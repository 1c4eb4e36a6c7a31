import PristonTale.Auth.AuthSocket

set_option relaxedAutoImplicit false
set_option autoImplicit false

/-!
# The packets that are dispatched

`AuthSocket` hands everything that is in the buffer to one handler, as one packet, whenever
`OnRead` calls it. So what it dispatches is decided by the completions alone: the bytes of a
completion and the number `m_Socket.available()` reports then. How many bytes each packet
dispatched has is computed here from these (`handOvers`), and with it the exact conditions under
which the packets dispatched are those the client sent, and under which they fit in
`PacketReceiving.Packet`.

## Main definitions

* `SteerStone.handOvers` — the sizes of the packets dispatched, from the completions.
* `SteerStone.ClientPacket` — a packet as a client sends it.

## Main results

* `SteerStone.dispatched_of_run` — what a run dispatches.
* `SteerStone.framing_iff` — the packets dispatched are those sent exactly when each is handed over
  alone and whole.
* `SteerStone.receive_bound_iff` — the packets dispatched fit exactly when no more than 8192 bytes
  are handed over at once.
-/

namespace SteerStone

open Foundations

/-- How many bytes are handed over at each call of `ProcessIncomingData`, for a vector of `size`
bytes of which `fill` wait: a completion after which `OnRead` reads on adds its bytes to those that
wait and the bytes available to the vector, any other hands everything over. -/
def handOvers : ℕ → ℕ → List ReadAction → List ℕ
  | _, _, [] => []
  | size, fill, .fail :: as => handOvers size fill as
  | size, fill, .complete bytes available :: as =>
    if Socket.growsFor size bytes.length available then
      handOvers (size + available) (fill + bytes.length) as
    else (fill + bytes.length) :: handOvers size 0 as

variable (grow : ℕ → ℕ → ℕ) (env : ℕ → Environment) (stack : ℕ → List UInt8)
  (opening : Environment)

/-! ## One step -/

/-- `ProcessIncomingData` takes everything as one packet and empties the buffer. -/
lemma process_authSocket {s : Socket} {c : Channel UInt8} (log : List Dispatch)
    (h : InRefines s c) :
    (s.process grow (authSocket env stack opening) log).1 =
        log ++ [toDispatch (stack log.length) s.inBuffer.pending] ∧
      (s.process grow (authSocket env stack opening) log).2.inBuffer.pending = [] ∧
      (s.process grow (authSocket env stack opening) log).2.inBuffer.buffer.size =
        s.inBuffer.buffer.size := by
  have htake : (s.inBuffer.read s.readLengthRemaining).1 = s.inBuffer.pending := by
    rw [Socket.readLengthRemaining, PacketBuffer.read_fst le_rfl]
    exact List.take_of_length_le (Nat.le_of_eq (PacketBuffer.length_pending h.valid))
  refine ⟨?_, ?_, ?_⟩
  · simp only [Socket.process, authSocket, decryptPacket_eq, if_true, htake]
  · simp only [Socket.process, authSocket, decryptPacket_eq, if_true,
      Socket.startAsyncRead_inBuffer]
    simp [Socket.resetRead, PacketBuffer.pending]
  · simp only [Socket.process, authSocket, decryptPacket_eq, if_true,
      Socket.startAsyncRead_inBuffer, Socket.resetRead, Socket.calls_buffer]

/-- What a step of the server does to the packets dispatched and to the buffer. -/
lemma authSocket_step {s : Socket} {c : Channel UInt8} {log : List Dispatch} {a : ReadAction}
    {st : List Dispatch × Socket} (href : InRefines s c) (hr : Reading s)
    (h : (readSystem grow (authSocket env stack opening)).step (log, s) a = some st) :
    (∃ bytes available, a = .complete bytes available ∧
      Socket.growsFor s.inBuffer.buffer.size bytes.length available ∧ st.1 = log ∧
      st.2.inBuffer.buffer.size = s.inBuffer.buffer.size + available ∧
      st.2.inBuffer.pending = s.inBuffer.pending ++ bytes) ∨
    (∃ bytes available, a = .complete bytes available ∧
      ¬ Socket.growsFor s.inBuffer.buffer.size bytes.length available ∧
      st.1 = log ++ [toDispatch (stack log.length) (s.inBuffer.pending ++ bytes)] ∧
      st.2.inBuffer.buffer.size = s.inBuffer.buffer.size ∧ st.2.inBuffer.pending = []) ∨
    (a = .fail ∧ st.1 = log ∧ st.2.inBuffer = s.inBuffer) := by
  obtain ⟨hopen, ⟨bytes, available, rfl, hfit, rfl⟩ | ⟨rfl, rfl⟩⟩ :=
    readSystem_step_cases grow _ hr href.valid h
  · have href' : InRefines { s with reads := [] } c := href.congr rfl rfl
    have harr : InRefines (s.arrived bytes) (c.push bytes) := href'.arrive hfit
    have hpending : (s.arrived bytes).inBuffer.pending = s.inBuffer.pending ++ bytes := by
      rw [harr.pending, Channel.push_queue, href.pending]
    have hsize : (s.arrived bytes).inBuffer.buffer.size = s.inBuffer.buffer.size :=
      StdVector.size_copyIn _ hfit
    rw [Socket.onRead_arrived grow _ log hopen available hfit]
    by_cases hgrow : Socket.growsFor s.inBuffer.buffer.size bytes.length available
    · refine .inl ⟨bytes, available, rfl, hgrow, ?_⟩
      have henl := harr.enlarge grow available
      rw [if_pos hgrow]
      refine ⟨rfl, ?_, ?_⟩
      · rw [Socket.startAsyncRead_inBuffer, ← hsize]
        exact StdVector.size_resize _ _ _ _
      · rw [Socket.startAsyncRead_inBuffer, henl.pending, ← harr.pending, hpending]
    · refine .inr (.inl ⟨bytes, available, rfl, hgrow, ?_⟩)
      obtain ⟨hlog, hempty, hsame⟩ := process_authSocket grow env stack opening log harr
      rw [if_neg hgrow]
      exact ⟨by rw [hlog, hpending], by rw [hsame, hsize], hempty⟩
  · refine .inr (.inr ⟨rfl, rfl, ?_⟩)
    rw [Socket.onReadError, Socket.onError_eq, Socket.closeSocket_inBuffer]

/-! ## Runs -/

/-- **What a run dispatches**: packets of the sizes that are handed over, which together with what
still waits are the bytes received.

**Proof sketch.** Induction on the run. A completion after which `OnRead` reads on adds its bytes
to what waits and dispatches nothing; any other dispatches what waits with its bytes, and the
buffer is empty again (`authSocket_step`). -/
theorem dispatched_of_run {as : List ReadAction} {log : List Dispatch} {s : Socket}
    {c : Channel UInt8} {st : List Dispatch × Socket} (href : InRefines s c) (hr : Reading s)
    (h : (readSystem grow (authSocket env stack opening)).run (log, s) as = some st) :
    ∃ ds, st.1 = log ++ ds ∧
      ds.map (fun d => d.bytes.length) =
        handOvers s.inBuffer.buffer.size s.inBuffer.pending.length as ∧
      (ds.map Dispatch.bytes).flatten ++ st.2.inBuffer.pending =
        s.inBuffer.pending ++ as.flatMap ReadAction.bytes ∧
      ∀ d ∈ ds, ∃ mem, d = toDispatch mem d.bytes := by
  induction as generalizing log s c with
  | nil =>
    obtain rfl : (log, s) = st := by simpa using h
    exact ⟨[], by simp, rfl, by simp, by simp⟩
  | cons a as ih =>
    obtain ⟨⟨log', s'⟩, hstep, hrun⟩ := (Transition.run_cons_eq_some _).mp h
    obtain ⟨c', -, href', hr'⟩ := readSystem_simulates grow _
      (authSocket_conforms env stack opening) (log, s) a (log', s') c ⟨href, hr⟩ hstep
    obtain ⟨ds, hlog, hlen, hbytes, hmem⟩ := ih href' hr' hrun
    rcases authSocket_step grow env stack opening href hr hstep with
      ⟨bytes, available, rfl, hgrow, hl, hsize, hpend⟩ |
      ⟨bytes, available, rfl, hgrow, hl, hsize, hpend⟩ | ⟨rfl, hl, hb⟩
    · simp only at hl hsize hpend
      refine ⟨ds, by rw [hlog, hl], ?_, ?_, hmem⟩
      · rw [handOvers, if_pos hgrow, hlen, hsize, hpend, List.length_append]
      · rw [hbytes, hpend]
        simp [ReadAction.bytes]
    · simp only at hl hsize hpend
      refine ⟨toDispatch (stack log.length) (s.inBuffer.pending ++ bytes) :: ds, ?_, ?_, ?_, ?_⟩
      · rw [hlog, hl, List.append_assoc, List.singleton_append]
      · rw [handOvers, if_neg hgrow, List.map_cons, hlen, hsize, hpend]
        simp [toDispatch]
      · rw [List.map_cons, List.flatten_cons, List.append_assoc, hbytes, hpend]
        simp [toDispatch, ReadAction.bytes]
      · intro d hd
        rcases List.mem_cons.mp hd with rfl | hd
        · exact ⟨_, rfl⟩
        · exact hmem d hd
    · simp only at hl hb
      refine ⟨ds, by rw [hlog, hl], ?_, ?_, hmem⟩
      · rw [handOvers, hlen, hb]
      · rw [hbytes, hb]
        simp [ReadAction.bytes]

/-- What a run dispatches from the opening of the socket on. -/
lemma dispatched_of_open {as : List ReadAction} {st : List Dispatch × Socket}
    (h : (readSystem grow (authSocket env stack opening)).run
      ([], Socket.openSocket grow (authSocket env stack opening)) as = some st) :
    st.1.map (fun d => d.bytes.length) = handOvers 4096 0 as ∧
      (st.1.map Dispatch.bytes).flatten ++ st.2.inBuffer.pending =
        as.flatMap ReadAction.bytes ∧
      ∀ d ∈ st.1, ∃ mem, d = toDispatch mem d.bytes := by
  obtain ⟨ds, hlog, hlen, hbytes, hmem⟩ := dispatched_of_run grow env stack opening
    (InRefines.openSocket grow _) (Reading.openSocket grow _) h
  simp only [List.nil_append] at hlog
  subst hlog
  exact ⟨by simpa using hlen, by simpa using hbytes, hmem⟩

/-! ## Framing -/

/-- A packet as a client sends it: its `Length` field is its size, which is that of a header at
least and fits in `PacketReceiving.Packet`. -/
structure ClientPacket where
  /-- The bytes. -/
  bytes : List UInt8
  /-- There is a header. -/
  header_le : 8 ≤ bytes.length
  /-- The packet fits. -/
  length_le : bytes.length ≤ packetCapacity
  /-- The `Length` field. -/
  length_eq : leNat (bytes.take 2) = bytes.length

/-- The packet dispatched as it was sent. -/
def ClientPacket.dispatch (p : ClientPacket) : Dispatch := ⟨packetHeader p.bytes, p.bytes⟩

/-- A packet with a header is dispatched by that header, whatever the memory held before. -/
lemma toDispatch_of_le {bytes : List UInt8} (h : 8 ≤ bytes.length) (mem : List UInt8) :
    toDispatch mem bytes = ⟨packetHeader bytes, bytes⟩ := by
  rw [toDispatch, received, packetHeader_append h]

/-- **Framing, exactly.** In every run in which the bytes of client packets arrive in any pieces,
the packets dispatched are the packets sent if and only if each is handed over alone and whole.

**Proof sketch.** The dispatched packets have the sizes handed over, and with what waits they are
the bytes received (`dispatched_of_open`). If the sizes are those of the packets sent, nothing
waits, and two lists of byte strings with the same sizes and the same concatenation are equal. -/
theorem framing_iff (ps : List ClientPacket) (as : List ReadAction)
    (st : List Dispatch × Socket)
    (hbytes : as.flatMap ReadAction.bytes = (ps.map ClientPacket.bytes).flatten)
    (h : (readSystem grow (authSocket env stack opening)).run
      ([], Socket.openSocket grow (authSocket env stack opening)) as = some st) :
    st.1 = ps.map ClientPacket.dispatch ↔
      handOvers 4096 0 as = ps.map fun p => p.bytes.length := by
  obtain ⟨hlen, hcat, hmem⟩ := dispatched_of_open grow env stack opening h
  constructor
  · intro heq
    rw [← hlen, heq, List.map_map]
    rfl
  · intro hsizes
    rw [hsizes] at hlen
    have hlens : (st.1.map Dispatch.bytes).map List.length =
        (ps.map ClientPacket.bytes).map List.length := by
      simpa [List.map_map, Function.comp_def] using hlen
    -- nothing waits: as many bytes were dispatched as were received
    have hempty : st.2.inBuffer.pending = [] := by
      have htotal := congrArg List.length (hcat.trans hbytes)
      rw [List.length_append, List.length_flatten, List.length_flatten, hlens] at htotal
      exact List.length_eq_zero_iff.mp (by omega)
    rw [hempty, List.append_nil, hbytes] at hcat
    have hall : st.1.map Dispatch.bytes = ps.map ClientPacket.bytes :=
      List.eq_iff_flatten_eq.mpr ⟨hcat, hlens⟩
    apply List.ext_getElem
    · simpa using congrArg List.length hall
    · intro i hi hi'
      have hi'' : i < ps.length := by simpa using hi'
      have hb : (st.1[i]).bytes = (ps[i]).bytes := by
        have := congrArg (fun l => l[i]?) hall
        simpa [hi, hi''] using this
      obtain ⟨mem, hd⟩ := hmem _ (List.getElem_mem hi)
      rw [hd, hb, toDispatch_of_le (ps[i]).header_le, List.getElem_map]
      rfl

/-- A packet that is only a header, whose handler is `HandleNULL`. -/
def headerPacket (b : UInt8) : ClientPacket where
  bytes := [8, 0, 0, 0, b, 0, 0, 0]
  header_le := le_rfl
  length_le := by simp [packetCapacity]
  length_eq := rfl

/-- A ping of sixteen bytes. -/
def pingPacket : ClientPacket where
  bytes := leBytes 2 16 ++ [0, 0] ++ leBytes 4 ClientPacketHeader.ping.value ++ List.replicate 8 0
  header_le := by decide
  length_le := by decide
  length_eq := by decide

/-- A login of the user `A` with the password `B`. -/
def loginPacket : ClientPacket where
  bytes := leBytes 2 54 ++ [0, 0] ++ leBytes 4 ClientPacketHeader.loginUser.value ++
    List.replicate 12 0 ++ 65 :: List.replicate 31 0 ++ [66, 0]
  header_le := by decide
  length_le := by decide
  length_eq := by decide

/-- The server with nothing in its tables and memory. -/
def blankServer : Derived (List Dispatch) :=
  authSocket (fun _ => .blank) (fun _ => []) .blank

/-- A login arrives in two pieces, of which the first makes the in-buffer grow, and then a ping. -/
def loginInPieces : List ReadAction :=
  [.complete (loginPacket.bytes.take 30) 4080, .complete (loginPacket.bytes.drop 30) 0,
    .complete pingPacket.bytes 0]

/-- A login that arrives in pieces, and a ping, are dispatched as they were sent. -/
theorem framing_iff_login : ∃ st,
    (readSystem (fun _ n => n) blankServer).run
        ([], Socket.openSocket (fun _ n => n) blankServer) loginInPieces = some st ∧
      st.1 = [loginPacket.dispatch, pingPacket.dispatch] := by
  obtain ⟨st, hrun, -⟩ := (readSystem (fun _ n => n) blankServer).exists_run_of_any (fun _ => True)
    ([], Socket.openSocket (fun _ n => n) blankServer) loginInPieces (by decide +kernel)
  exact ⟨st, hrun, (framing_iff (fun _ n => n) (fun _ => .blank) (fun _ => []) .blank
    [loginPacket, pingPacket] _ _ (by decide +kernel) hrun).mpr (by decide +kernel)⟩

/-- Framing fails: two packets that arrive in one completion are dispatched as one. -/
theorem framing_fails : ∃ (ps : List ClientPacket) (as : List ReadAction) (st : _),
    as.flatMap ReadAction.bytes = (ps.map ClientPacket.bytes).flatten ∧
      (readSystem (fun _ n => n) blankServer).run
        ([], Socket.openSocket (fun _ n => n) blankServer) as = some st ∧
      st.1 ≠ ps.map ClientPacket.dispatch := by
  let ps := [headerPacket 1, headerPacket 2]
  obtain ⟨st, hrun⟩ := exists_first_completion (fun _ n => n) blankServer []
    (ps.map ClientPacket.bytes).flatten 0 (by decide)
  refine ⟨ps, _, st, by simp [ReadAction.bytes], hrun, ?_⟩
  intro heq
  have hlen := (dispatched_of_open _ _ _ _ hrun).1
  rw [heq] at hlen
  exact absurd hlen (by decide)

/-! ## The receive bound -/

/-- **The receive bound, exactly.** In every run, every packet dispatched fits in
`PacketReceiving.Packet` if and only if no more than 8192 bytes are ever handed over at once.

**Proof sketch.** Each packet dispatched has the length of what was handed over with it
(`dispatched_of_open`). -/
theorem receive_bound_iff (as : List ReadAction) (st : List Dispatch × Socket)
    (h : (readSystem grow (authSocket env stack opening)).run
      ([], Socket.openSocket grow (authSocket env stack opening)) as = some st) :
    (∀ d ∈ st.1, d.bytes.length ≤ packetCapacity) ↔
      ∀ n ∈ handOvers 4096 0 as, n ≤ packetCapacity := by
  rw [← (dispatched_of_open grow env stack opening h).1]
  simp

/-- A completion that fills the in-buffer while more bytes wait than it holds, and one that fills
the enlarged in-buffer. -/
def flooding : List ReadAction :=
  [.complete (List.replicate 4096 0) 4097, .complete (List.replicate 4097 0) 0]

/-- A first completion that fills the in-buffer while 4097 bytes wait leaves 4097 bytes free. -/
lemma exists_flooding {δ : Type} (D : Derived δ) (d : δ) (full rest : List UInt8)
    (hfull : full.length = 4096) (hrest : rest.length = 4097) : ∃ st,
    (readSystem grow D).run (d, Socket.openSocket grow D)
      [.complete full 4097, .complete rest 0] = some st := by
  have hsize : (Socket.openSocket grow D).inBuffer.buffer.size = 4096 := by simp
  rw [run_complete grow D d full 4097 (.openSocket grow D) (Socket.openSocket_isOpen grow D)
      (by simp [hfull]), hsize, hfull, if_pos (by decide),
    run_complete grow D d rest 0 (.start rfl)
      (by simp [Socket.enlarge, Socket.arrived, Socket.advance, Socket.deliver])]
  · exact ⟨_, rfl⟩
  · simp only [Socket.startAsyncRead_inBuffer, Socket.enlarge, StdVector.size_resize]
    simp [Socket.arrived, Socket.advance, Socket.deliver, StdVector.size_copyIn, hfull, hrest]

/-- Neither of them overruns `PacketReceiving.Packet`. -/
theorem receive_bound_iff_login : ∃ st,
    (readSystem (fun _ n => n) blankServer).run
        ([], Socket.openSocket (fun _ n => n) blankServer) loginInPieces = some st ∧
      ∀ d ∈ st.1, d.bytes.length ≤ packetCapacity := by
  obtain ⟨st, hrun, -⟩ := (readSystem (fun _ n => n) blankServer).exists_run_of_any (fun _ => True)
    ([], Socket.openSocket (fun _ n => n) blankServer) loginInPieces (by decide +kernel)
  exact ⟨st, hrun, (receive_bound_iff (fun _ n => n) (fun _ => .blank) (fun _ => []) .blank
    _ _ hrun).mpr (by decide +kernel)⟩

/-- The receive bound fails: 8193 bytes are copied to `PacketReceiving.Packet`. -/
theorem receive_bound_fails : ∃ (as : List ReadAction) (st : _),
    (readSystem (fun _ n => n) blankServer).run
        ([], Socket.openSocket (fun _ n => n) blankServer) as = some st ∧
      ∃ d ∈ st.1, packetCapacity < d.bytes.length := by
  obtain ⟨st, hrun⟩ := exists_flooding (fun _ n => n) blankServer []
    (List.replicate 4096 0) (List.replicate 4097 0) List.length_replicate List.length_replicate
  change (readSystem _ _).run _ flooding = _ at hrun
  have hlen := (dispatched_of_open _ _ _ _ hrun).1
  have hsizes : handOvers 4096 0 flooding = [8193] := by
    simp only [flooding, handOvers, List.length_replicate]
    decide
  rw [hsizes] at hlen
  obtain ⟨d, hd, hdlen⟩ := List.mem_map.mp (hlen ▸ List.mem_singleton_self 8193)
  exact ⟨flooding, st, hrun, d, hd, by rw [hdlen]; decide⟩

end SteerStone
