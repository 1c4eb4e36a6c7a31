import PristonTale.Auth.Framing
import PristonTale.Auth.PingEcho
import PristonTale.Foundations.Frames
import PristonTale.Network.SendingSide

set_option relaxedAutoImplicit false
set_option autoImplicit false

/-!
# What a client receives

The bytes that leave a client socket, as the client reads them: every packet starts with its
`Length`, so the stream of bytes that the transport has accepted is cut into packets again. They are
the packet of `SendVersionCheck` and the packets the handlers have sent for what was dispatched, in
order. The answer to a ping is the exception: as many bytes are sent as the packet received says,
and what is sent in their `Length` is the low half of an address.

## Main definitions

* `SteerStone.packetFrames` — packets as frames.
* `SteerStone.answer` — the events of the handler of one packet dispatched.
* `SteerStone.sentTo` — the packets sent to a client for those dispatched.

## Main results

* `SteerStone.written_of_run` — the bytes written are those of the packets sent.
* `SteerStone.client_reads_replies` — the packets a client reads are the first of those sent.
-/

namespace SteerStone

open Foundations

variable (grow : ℕ → ℕ → ℕ) (env : ℕ → Environment) (stack : ℕ → List UInt8)
  (opening : Environment)

/-- A packet starts with its length, in two bytes. -/
def packetFrames : FrameFormat UInt8 where
  header := 2
  size bytes := leNat (bytes.take 2)
  header_pos := Nat.two_pos
  size_append xs ys h := by rw [List.take_append_of_le_length h]

/-- The events of the handler of a packet, the number `i` of those dispatched. -/
def answer (i : ℕ) (d : Dispatch) : List Event :=
  (executePacket (env i) (Opcodes.initializePackets.getClientPacket d.header).handler
    (received (stack i) d.bytes)).events 0

/-- The packets sent for those dispatched, of which the first has the number `i`. -/
def answers : ℕ → List Dispatch → List (List UInt8)
  | _, [] => []
  | i, d :: ds => (answer env stack i d).filterMap Event.sent ++ answers (i + 1) ds

/-- The packets sent to a client: that of `SendVersionCheck`, and those sent for the packets
dispatched. An answer of no bytes is none. -/
def sentTo (log : List Dispatch) : List (List UInt8) :=
  (((sendVersionCheck opening).events 0).filterMap Event.sent ++ answers env stack 0 log).filter
    fun bytes => bytes ≠ []

/-! ## What is written -/

/-- More packets dispatched. -/
lemma answers_append (i : ℕ) (ds es : List Dispatch) :
    answers env stack i (ds ++ es) =
      answers env stack i ds ++ answers env stack (i + ds.length) es := by
  induction ds generalizing i with
  | nil => rfl
  | cons d ds ih =>
    rw [List.cons_append, answers, ih, answers, List.append_assoc, List.length_cons,
      Nat.add_right_comm, Nat.add_assoc]

/-- The calls of a handler write what it sends. -/
lemma written_calls (events : List Event) :
    ((events.filterMap Event.call).flatMap Call.sending).flatMap WriteAction.written =
      (events.filterMap Event.sent).flatten := by
  induction events with
  | nil => rfl
  | cons e events ih =>
    cases e with
    | send size length bytes =>
      simp [Event.call, Event.sent, Call.sending, WriteAction.written, ih]
    | executeQuery sql parameters => exact ih
    | closeSocket => exact ih

/-- What `ProcessIncomingData` writes. -/
lemma written_processing (log : List Dispatch) (s : Socket) :
    ∃ d : Dispatch, ((authSocket env stack opening).processIncomingData log s).next = log ++ [d] ∧
      ((authSocket env stack opening).processIncomingData log s).sending.flatMap
          WriteAction.written =
        ((answer env stack log.length d).filterMap Event.sent).flatten := by
  refine ⟨toDispatch (stack log.length) (s.inBuffer.read s.readLengthRemaining).1, ?_, ?_⟩
  · simp only [authSocket, decryptPacket_eq]
  · simp only [authSocket, decryptPacket_eq, Processing.sending, List.flatMap_cons,
      Call.sending, List.nil_append, true_or, if_true, List.append_nil]
    exact written_calls _

/-- `ProcessIncomingData` decides what the derived class has afterwards. -/
lemma process_fst {δ : Type} (D : Derived δ) (d : δ) (s : Socket) :
    (s.process grow D d).1 = (D.processIncomingData d s).next := by
  unfold Socket.process
  dsimp only
  split_ifs <;> rfl

/-- A step that no thread writes in. -/
def Unwritten : SocketAction → Prop
  | .transmit (.write _) => False
  | _ => True

/-- What one step dispatches and writes. -/
lemma written_step {st st' : List Dispatch × Socket} {a : SocketAction} (hun : Unwritten a)
    (h : (socketSystem grow (authSocket env stack opening)).step st a = some st') :
    ∃ ds, st'.1 = st.1 ++ ds ∧
      (a.sending (authSocket env stack opening) st).flatMap WriteAction.written =
        (answers env stack st.1.length ds).flatten := by
  cases a with
  | transmit a =>
    obtain ⟨t, -, rfl⟩ := Option.map_eq_some_iff.mp h
    refine ⟨[], (List.append_nil _).symm, ?_⟩
    cases a with
    | write bytes => exact hun.elim
    | _ => rfl
  | receive a =>
    rcases readSystem_step_any grow _ h with ⟨bytes, available, rfl, rfl⟩ | ⟨rfl, rfl⟩
    · simp only [SocketAction.sending]
      change ∃ ds, ((st.2.stored bytes).onRead grow _ st.1 _ _).1 = _ ∧ _
      unfold Socket.onRead
      by_cases hopen : (st.2.stored bytes).isOpen = true
      · rw [if_pos hopen]
        by_cases hgrow : Socket.growsFor (st.2.stored bytes).inBuffer.buffer.size bytes.length
            available
        · rw [if_pos hgrow, if_neg fun hc => hc.2 hgrow]
          exact ⟨[], (List.append_nil _).symm, rfl⟩
        · rw [if_neg hgrow, if_pos ⟨hopen, hgrow⟩]
          obtain ⟨d, hnext, hwritten⟩ := written_processing env stack opening st.1
            ((st.2.stored bytes).advance bytes.length)
          refine ⟨[d], ?_, ?_⟩
          · rw [process_fst, hnext]
          · rw [hwritten, answers, answers, List.append_nil]
      · rw [if_neg hopen, if_neg fun hc => hopen hc.1]
        exact ⟨[], (List.append_nil _).symm, rfl⟩
    · exact ⟨[], (List.append_nil _).symm, rfl⟩

/-- **What a run dispatches and writes**, when no thread writes: the bytes written are those of the
packets sent for what was dispatched. -/
lemma written_of_run {as : List SocketAction} {st st' : List Dispatch × Socket}
    (h : (socketSystem grow (authSocket env stack opening)).run st as = some st')
    (hun : ∀ a ∈ as, Unwritten a) :
    ∃ ds, st'.1 = st.1 ++ ds ∧
      ((socketSystem grow (authSocket env stack opening)).trace
        (SocketAction.sending (authSocket env stack opening)) st as).flatMap WriteAction.written =
          (answers env stack st.1.length ds).flatten := by
  induction as generalizing st with
  | nil =>
    obtain rfl : st = st' := by simpa using h
    exact ⟨[], (List.append_nil _).symm, rfl⟩
  | cons a as ih =>
    obtain ⟨st₁, hstep, hrest⟩ := (Transition.run_cons_eq_some _).mp h
    obtain ⟨ds, hlog, hwritten⟩ := written_step grow env stack opening
      (hun a List.mem_cons_self) hstep
    obtain ⟨es, hlog', hwritten'⟩ := ih hrest fun b hb => hun b (List.mem_cons_of_mem a hb)
    refine ⟨ds ++ es, by rw [hlog', hlog, List.append_assoc], ?_⟩
    rw [Transition.trace_cons_of_step _ as hstep, List.flatMap_append, hwritten, hwritten',
      answers_append, List.flatten_append, hlog, List.length_append]

/-- The bytes written in a run from `Open` on. -/
lemma written_of_open {as : List SocketAction} {st : List Dispatch × Socket}
    (h : (socketSystem grow (authSocket env stack opening)).run
      ([], Socket.openSocket grow (authSocket env stack opening)) as = some st)
    (hun : ∀ a ∈ as, Unwritten a) :
    (sendingRun grow (authSocket env stack opening) [] as).flatMap WriteAction.written =
      (sentTo env stack opening st.1).flatten := by
  obtain ⟨ds, hlog, hwritten⟩ := written_of_run grow env stack opening h hun
  rw [sendingRun, List.flatMap_append, hwritten, sentTo, List.flatten_filter_ne_nil,
    List.flatten_append, hlog, List.nil_append]
  refine congrArg (· ++ _) ?_
  rw [List.flatMap_map]
  rfl

/-! ## What is framed -/

/-- A packet dispatched is answered, if it is, with as many bytes as its answer announces or
none. -/
def PingFits (i : ℕ) (d : Dispatch) : Prop :=
  (Opcodes.initializePackets.getClientPacket d.header).handler = .handlePing →
    EchoesPing (env i) → ownLength (received (stack i) d.bytes) = 0 ∨
      ownLength (received (stack i) d.bytes) = packetPing.sizeof

/-- The first two bytes sent of some memory. -/
lemma take_read {mem : Memory} {n : ℕ} (hn : 2 ≤ n) : (mem.read 0 n).take 2 = mem.read 0 2 := by
  have htake := mem.take_drop_read 0 (k := 0) (m := 2) (n := n) (by omega)
  rwa [List.drop_zero] at htake

/-- Memory of which as much is sent as it announces. -/
lemma framed_read {mem : Memory} {n : ℕ} (hn : 2 ≤ n)
    (hlength : mem.load 2 PacketStruct.length = n) : packetFrames.Framed (mem.read 0 n) := by
  refine ⟨by rwa [Memory.length_read], ?_⟩
  show leNat ((mem.read 0 n).take 2) = _
  rw [take_read hn, Memory.length_read]
  exact hlength

/-- The packet of `SendVersionCheck` is framed. -/
lemma framed_version {bytes : List UInt8}
    (h : bytes ∈ ((sendVersionCheck opening).events 0).filterMap Event.sent) :
    packetFrames.Framed bytes := by
  rw [events_sendVersionCheck] at h
  obtain rfl : bytes = _ := by simpa [Event.sent] using h
  exact framed_read (by decide) (length_versionPacket _ _)

/-- What a login sends is framed or empty. -/
lemma framed_login {env : Environment} {packet bytes : List UInt8}
    (h : bytes ∈ ((handleLoginUser env packet).events 0).filterMap Event.sent) (hne : bytes ≠ []) :
    packetFrames.Framed bytes := by
  obtain ⟨e, he, hsent⟩ := List.mem_filterMap.mp h
  cases mem_events_handleLoginUser.mp he with
  | select | update | selectRealms => cases hsent
  | incorrectName | incorrectPassword =>
    obtain rfl := Option.some.inj hsent
    exact framed_read (by decide) (length_accountLogin _ _)
  | checkSum =>
    obtain rfl := Option.some.inj hsent
    exact framed_read (by decide) (length_packetCheck _)
  | userInfo =>
    obtain rfl := Option.some.inj hsent
    exact framed_read (by decide) (length_packetUser _ _)
  | serverList =>
    obtain rfl := Option.some.inj hsent
    refine framed_read ?_ (length_serverList _ _ _)
    -- the length is a multiple of four
    have hpos := List.length_pos_of_ne_nil hne
    rw [Memory.length_read] at hpos
    omega

/-- What a ping sends is framed or empty exactly when the packet announces sixteen bytes or none.

**Proof sketch.** The memory sent starts with the low half of an address, which is sixteen if the
ping is answered (`load_length_pointer`), and as many bytes are sent as the packet announces. -/
lemma framed_ping_iff {env : Environment} {packet : List UInt8} :
    (∀ bytes ∈ ((handlePing env packet).events 0).filterMap Event.sent, bytes ≠ [] →
      packetFrames.Framed bytes) ↔
    (EchoesPing env → ownLength packet = 0 ∨ ownLength packet = packetPing.sizeof) := by
  have hload : EchoesPing env → (pongMemory env).load 2 PacketStruct.length = 16 := by
    intro hecho
    have hsame : (pongMemory env).load 2 PacketStruct.length =
        ((env.stale .packetPointer).store env.pointerSize.bytes 0 env.packetAddress).load 2
          PacketStruct.length := Memory.load_store_of_disjoint _ (.inl (by decide))
    rw [hsame, load_length_pointer, hecho.1]
  rw [layout_packetPing.2]
  constructor
  · intro h hecho
    by_contra hnot
    have hmem : (pongMemory env).read 0 (ownLength packet) ∈
        ((handlePing env packet).events 0).filterMap Event.sent :=
      List.mem_filterMap.mpr ⟨_, mem_events_handlePing.mpr ⟨hecho.1, .inr ⟨hecho.2, rfl⟩⟩, rfl⟩
    have hne : (pongMemory env).read 0 (ownLength packet) ≠ [] := by
      intro hnil
      have hlength := congrArg List.length hnil
      rw [Memory.length_read] at hlength
      exact hnot (.inl hlength)
    obtain ⟨hheader, hsize⟩ := h _ hmem hne
    have htake : ((pongMemory env).read 0 (ownLength packet)).take 2 =
        (pongMemory env).read 0 2 := take_read (by rwa [Memory.length_read] at hheader)
    have hsixteen : (pongMemory env).load 2 PacketStruct.length = ownLength packet := by
      rw [Memory.length_read] at hsize
      rw [← hsize]
      exact (congrArg leNat htake).symm
    exact hnot (.inr (hsixteen.symm.trans (hload hecho)))
  · intro h bytes hbytes hne
    obtain ⟨e, he, hsent⟩ := List.mem_filterMap.mp hbytes
    obtain ⟨haddress, ⟨-, rfl⟩ | ⟨htime, rfl⟩⟩ := mem_events_handlePing.mp he
    · cases hsent
    · obtain rfl := Option.some.inj hsent
      have hecho : EchoesPing env := ⟨haddress, htime⟩
      have hpos := List.length_pos_of_ne_nil hne
      rw [Memory.length_read] at hpos
      rcases h hecho with hzero | hsixteen
      · rw [ownLength] at hzero
        omega
      · rw [ownLength] at hsixteen
        rw [hsixteen]
        exact framed_read (by decide) (hload hecho)

/-- An answer sends frames exactly when its ping, if it is one, fits. -/
lemma framed_answer_iff (i : ℕ) (d : Dispatch) :
    (∀ bytes ∈ (answer env stack i d).filterMap Event.sent, bytes ≠ [] →
      packetFrames.Framed bytes) ↔ PingFits env stack i d := by
  unfold answer PingFits
  cases (Opcodes.initializePackets.getClientPacket d.header).handler with
  | handleLoginUser =>
    refine iff_of_true (fun bytes hbytes hne => framed_login hbytes hne) ?_
    intro h
    cases h
  | handlePing =>
    rw [executePacket, framed_ping_iff]
    exact ⟨fun h _ => h, fun h => h rfl⟩
  | handleServerMessage | handleNULL =>
    refine iff_of_true (fun bytes hbytes => absurd hbytes List.not_mem_nil) ?_
    intro h
    cases h

/-- The answers are those of the packets dispatched, each with its number. -/
lemma mem_answers {i : ℕ} {ds : List Dispatch} {bytes : List UInt8} :
    bytes ∈ answers env stack i ds ↔
      ∃ j d, ds[j]? = some d ∧ bytes ∈ (answer env stack (i + j) d).filterMap Event.sent := by
  induction ds generalizing i with
  | nil => simp [answers]
  | cons d ds ih =>
    rw [answers, List.mem_append, ih]
    constructor
    · rintro (h | ⟨j, e, hj, h⟩)
      · exact ⟨0, d, rfl, h⟩
      · exact ⟨j + 1, e, hj, by rwa [Nat.add_right_comm, Nat.add_assoc] at h⟩
    · rintro ⟨j, e, hj, h⟩
      cases j with
      | zero =>
        obtain rfl := Option.some.inj hj
        exact .inl h
      | succ j => exact .inr ⟨j, e, hj, by rwa [Nat.add_right_comm, Nat.add_assoc]⟩

/-- **Everything sent to a client is framed exactly when the pings fit.** -/
theorem framed_sentTo_iff (log : List Dispatch) :
    (∀ bytes ∈ sentTo env stack opening log, packetFrames.Framed bytes) ↔
      ∀ i d, log[i]? = some d → PingFits env stack i d := by
  simp only [sentTo, List.mem_filter, List.mem_append, decide_eq_true_eq]
  constructor
  · intro h i d hd
    rw [← framed_answer_iff]
    intro bytes hbytes hne
    exact h bytes ⟨.inr ((mem_answers env stack).mpr ⟨i, d, hd, by rwa [Nat.zero_add]⟩), hne⟩
  · rintro h bytes ⟨hversion | hanswer, hne⟩
    · exact framed_version opening hversion
    · obtain ⟨j, d, hd, hbytes⟩ := (mem_answers env stack).mp hanswer
      rw [Nat.zero_add] at hbytes
      exact (framed_answer_iff env stack j d).mpr (h j d hd) bytes hbytes hne

/-- **What a client reads.** In every run of a client socket of the server in which no other thread
writes and no `Write` outgrows the vector while a write is outstanding, as long as the socket is
open: if each ping that was answered had the length of a ping, or none, the packets that the client
reads off the bytes the transport has accepted are the first of those the server has sent, in order
and whole. When nothing waits to be sent they are all of them, and they are exactly if that holds of
the pings: any other ping sends bytes that are no packet.

**Proof sketch.** The bytes accepted, with those that wait, are those written (`output_of_run`), and
these are the packets sent, one after the other (`written_of_open`). Each is a frame if the pings
fit (`framed_sentTo_iff`), and a reader of frames reads frames only. -/
theorem client_reads_replies (as : List SocketAction) (st : List Dispatch × Socket)
    (h : (socketSystem grow (authSocket env stack opening)).run
      ([], Socket.openSocket grow (authSocket env stack opening)) as = some st)
    (hun : ∀ a ∈ as, Unwritten a)
    (hkeep : (writeSystem grow).Along KeepsBlock Socket.fresh
      (sendingRun grow (authSocket env stack opening) [] as))
    (hopen : st.2.isOpen = true) :
    ((∀ i d, st.1[i]? = some d → PingFits env stack i d) →
      packetFrames.unframe st.2.accepted <+: sentTo env stack opening st.1) ∧
    (st.2.writeState = .idle →
      (packetFrames.unframe st.2.accepted = sentTo env stack opening st.1 ↔
        ∀ i d, st.1[i]? = some d → PingFits env stack i d)) := by
  have hout := (output_of_run grow _ h hkeep hopen).trans
    (written_of_open grow env stack opening h hun)
  refine ⟨fun hpings => ?_, fun hidle => ?_⟩
  · refine (packetFrames.unframe_of_prefix ((framed_sentTo_iff env stack opening st.1).mpr hpings)
      ?_).1
    exact ⟨_, hout⟩
  · have hempty := ((coherent_of_run grow _ h hopen).idle hidle).2.2
    rw [hempty, List.take_zero, List.append_nil] at hout
    rw [hout, packetFrames.unframe_flatten_iff, framed_sentTo_iff]

/-- A server without accounts, where the low half of the address of a packet received is the length
of a ping. -/
def pongServer : Environment := { Environment.blank with packetAddress := 16 }

/-- Its `AuthSocket`. -/
abbrev pongSocket : Derived (List Dispatch) :=
  authSocket (fun _ => pongServer) (fun _ => []) pongServer

/-- A ping is answered with sixteen bytes there. -/
lemma pingFits_pongServer (i : ℕ) (d : Dispatch)
    (h : [pingPacket.dispatch, loginPacket.dispatch][i]? = some d) :
    PingFits (fun _ => pongServer) (fun _ => []) i d := by
  match i with
  | 0 =>
    obtain rfl := Option.some.inj h
    exact fun _ _ => .inr (by decide)
  | 1 =>
    obtain rfl := Option.some.inj h
    exact fun hping => absurd hping (by decide)
  | i + 2 => simp at h

/-- A ping arrives, and a login while the answer is being sent; the transport takes the bytes that
are sent in two pieces that are not those of the packets. -/
def pingThenLogin : List SocketAction :=
  [.receive (.complete pingPacket.bytes 0), .transmit .flushTimer,
    .receive (.complete loginPacket.bytes 0), .transmit (.writeComplete 30 fun _ => 0),
    .transmit (.writeComplete 282 fun _ => 0)]

/-- A client whose ping was answered, and whose login was refused, reads both answers. -/
theorem client_reads_replies_ping_login : ∃ st,
    (socketSystem (fun _ n => n) pongSocket).run
      ([], Socket.openSocket (fun _ n => n) pongSocket) pingThenLogin = some st ∧
    st.1 = [pingPacket.dispatch, loginPacket.dispatch] ∧
    packetFrames.unframe st.2.accepted =
      sentTo (fun _ => pongServer) (fun _ => []) pongServer st.1 := by
  obtain ⟨st, hrun, hlog, hopen, hidle⟩ :=
    (socketSystem (fun _ n => n) pongSocket).exists_run_of_any
      (fun st => st.1 = [pingPacket.dispatch, loginPacket.dispatch] ∧ st.2.isOpen = true ∧
        st.2.writeState = .idle)
      ([], Socket.openSocket (fun _ n => n) pongSocket) pingThenLogin (by decide +kernel)
  have hkeep : (writeSystem fun _ n => n).Along KeepsBlock Socket.fresh
      (sendingRun (fun _ n => n) pongSocket [] pingThenLogin) := by
    decide +kernel
  have hread := (client_reads_replies (fun _ n => n) (fun _ => pongServer) (fun _ => [])
    pongServer pingThenLogin st hrun (by simp [pingThenLogin, Unwritten]) hkeep hopen).2 hidle
  refine ⟨st, hrun, hlog, hread.mpr ?_⟩
  rw [hlog]
  exact pingFits_pongServer

end SteerStone
