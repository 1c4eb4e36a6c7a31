import Mathlib.Data.List.Count
import PristonTale.Network.Connections

set_option relaxedAutoImplicit false
set_option autoImplicit false

/-!
# The memory of the handlers

asio keeps the handler of each operation that is outstanding in memory that it asks the handler for.
Those of reads and writes ask the `handler_allocator` of their socket
(`Shared/Network/Socket.h`), which has room for one of them in itself and sends every other one to
the global heap. There are two at a time, so either of them may be the one in the allocator, and
each goes back to where it came from.

## Main definitions

* `SteerStone.HandlerAllocator` — `handler_allocator`, with `allocate` and `deallocate`.
* `SteerStone.HandlerMemory` — the allocator, the heap and the handlers that have memory.
* `SteerStone.memorySystem` — a socket and the memory of its handlers.
* `SteerStone.HandlerMemory.Sound` — each handler has memory of its own.

## Main results

* `SteerStone.HandlerMemory.sound_acquire`, `SteerStone.HandlerMemory.exists_release` — what the two
  functions of the allocator keep.
* `SteerStone.handler_memory` — the memory of the handlers in every run of a socket.

## Implementation notes

* asio frees the memory of a handler before it calls it, as it documents.
* The global heap gives a block whose address no block has that is in use.
* The waits of the flush timer do not use the allocator.
-/

namespace SteerStone

open Foundations

/-- Where the memory of a handler is. -/
inductive HandlerBlock where
  /-- `mBuffer`. -/
  | buffer
  /-- A block of the global heap. -/
  | heap (address : ℕ)
  deriving DecidableEq, Repr

/-- `handler_allocator`. -/
structure HandlerAllocator where
  /-- `m_inUse`. -/
  inUse : Bool
  deriving DecidableEq, Repr

namespace HandlerAllocator

/-- `BufferSize`. -/
def bufferSize : ℕ := 512

/-- `allocate`; `fresh` is what `operator new` returns, if it is called. -/
def allocate (size fresh : ℕ) (a : HandlerAllocator) : HandlerBlock × HandlerAllocator :=
  if a.inUse = false ∧ size ≤ bufferSize then (.buffer, ⟨true⟩) else (.heap fresh, a)

/-- `deallocate`, with the address that `operator delete` is called with, if it is. -/
def deallocate (a : HandlerAllocator) : HandlerBlock → HandlerAllocator × Option ℕ
  | .buffer => (⟨false⟩, none)
  | .heap address => (a, some address)

end HandlerAllocator

/-- The operations whose handlers use the allocator. -/
inductive OpKind where
  | read
  | write
  deriving DecidableEq, Repr

/-- A handler that has memory. -/
structure LiveHandler where
  /-- Its operation. -/
  kind : OpKind
  /-- Its memory. -/
  block : HandlerBlock
  /-- How much it has asked for. -/
  size : ℕ
  deriving DecidableEq, Repr

/-- The handler is on the heap, though it would have had room in the allocator. -/
def LiveHandler.displaced (h : LiveHandler) : Bool :=
  h.block ≠ .buffer ∧ h.size ≤ HandlerAllocator.bufferSize

/-- The allocator of a socket, the heap and the handlers that have memory. -/
structure HandlerMemory where
  /-- `m_allocator`. -/
  allocator : HandlerAllocator
  /-- The blocks of the heap that `operator new` has returned and that have not been deleted. -/
  heap : List ℕ
  /-- The handlers, the youngest first. -/
  live : List LiveHandler
  deriving DecidableEq, Repr

namespace HandlerMemory

/-- The constructor of the allocator. -/
def new : HandlerMemory := ⟨⟨false⟩, [], []⟩

/-- A handler gets memory. -/
def acquire (kind : OpKind) (size fresh : ℕ) (m : HandlerMemory) : Option HandlerMemory :=
  match m.allocator.allocate size fresh with
  | (.buffer, a) => some ⟨a, m.heap, ⟨kind, .buffer, size⟩ :: m.live⟩
  | (.heap address, a) =>
    if address ∈ m.heap then none
    else some ⟨a, address :: m.heap, ⟨kind, .heap address, size⟩ :: m.live⟩

/-- Handlers get memory, one after the other; each asks for a size, and has an address of the heap
that may be returned. -/
def acquireAll : List OpKind → List (ℕ × ℕ) → HandlerMemory → Option HandlerMemory
  | [], [], m => some m
  | kind :: kinds, request :: requests, m =>
    (m.acquire kind request.1 request.2).bind (acquireAll kinds requests)
  | _, _, _ => none

/-- The memory of a handler is freed. Nothing defined happens if there is none, or if `operator
delete` is called with an address that is no block in use. -/
def release (kind : OpKind) (m : HandlerMemory) : Option HandlerMemory :=
  (m.live.find? fun h => h.kind = kind).bind fun h =>
    match m.allocator.deallocate h.block with
    | (a, none) => some ⟨a, m.heap, m.live.erase h⟩
    | (a, some address) =>
      if address ∈ m.heap then some ⟨a, m.heap.erase address, m.live.erase h⟩ else none

/-- **Each handler has memory of its own.** -/
structure Sound (m : HandlerMemory) : Prop where
  /-- No two handlers share memory. -/
  nodup : (m.live.map LiveHandler.block).Nodup
  /-- `m_inUse` tells whether a handler is in the allocator. -/
  inUse : m.allocator.inUse = true ↔ HandlerBlock.buffer ∈ m.live.map LiveHandler.block
  /-- The blocks of the heap are those of handlers. -/
  heap : ∀ address, address ∈ m.heap ↔ HandlerBlock.heap address ∈ m.live.map LiveHandler.block
  /-- The blocks of the heap are different. -/
  heapNodup : m.heap.Nodup
  /-- A handler in the allocator has room there. -/
  fits : ∀ h ∈ m.live, h.block = .buffer → h.size ≤ HandlerAllocator.bufferSize

end HandlerMemory

/-- The operation that completes. -/
def SocketAction.completes : SocketAction → Option OpKind
  | .receive _ => some .read
  | .transmit (.writeComplete _ _) => some .write
  | .transmit .writeFail => some .write
  | .transmit _ => none

/-- The operations started from one state of a socket to another. -/
def started (s s' : Socket) : List OpKind :=
  List.replicate (s'.reads.length - s.reads.length) .read ++
    List.replicate (s'.writes.length - s.writes.length) .write

variable {δ : Type} (grow : ℕ → ℕ → ℕ) (D : Derived δ)

/-- **A socket and the memory of its handlers.** The handler of the operation that completes gives
its memory back, and runs; those of the operations started get memory. -/
def memorySystem : Transition ((δ × Socket) × HandlerMemory) (SocketAction × List (ℕ × ℕ)) where
  step s a :=
    ((socketSystem grow D).step s.1 a.1).bind fun st =>
      (match a.1.completes with
        | some kind => s.2.release kind
        | none => some s.2).bind fun m =>
          (m.acquireAll (started (a.1.retire s.1.2) st.2) a.2).map fun m' => (st, m')

/-! ## The allocator -/

namespace HandlerMemory

variable {m m' : HandlerMemory} {kind : OpKind}

/-- **What `allocate` does.** -/
lemma acquire_cases {size fresh : ℕ} (h : m.acquire kind size fresh = some m') :
    (m.allocator.inUse = false ∧ size ≤ HandlerAllocator.bufferSize ∧
        m' = ⟨⟨true⟩, m.heap, ⟨kind, .buffer, size⟩ :: m.live⟩) ∨
      ((m.allocator.inUse = true ∨ HandlerAllocator.bufferSize < size) ∧ fresh ∉ m.heap ∧
        m' = ⟨m.allocator, fresh :: m.heap, ⟨kind, .heap fresh, size⟩ :: m.live⟩) := by
  unfold acquire HandlerAllocator.allocate at h
  by_cases hfree : m.allocator.inUse = false ∧ size ≤ HandlerAllocator.bufferSize
  · rw [if_pos hfree] at h
    exact .inl ⟨hfree.1, hfree.2, (Option.some.inj h).symm⟩
  · rw [if_neg hfree] at h
    dsimp only at h
    split_ifs at h with hfresh
    refine .inr ⟨?_, hfresh, (Option.some.inj h).symm⟩
    by_cases hinUse : m.allocator.inUse = false
    · exact .inr (Nat.lt_of_not_le fun hle => hfree ⟨hinUse, hle⟩)
    · exact .inl (Bool.not_eq_false _ ▸ hinUse)

/-- A handler that gets memory is one more. -/
lemma live_acquire {size fresh : ℕ} (h : m.acquire kind size fresh = some m') :
    ∃ block, m'.live = ⟨kind, block, size⟩ :: m.live := by
  rcases acquire_cases h with ⟨-, -, rfl⟩ | ⟨-, -, rfl⟩
  · exact ⟨_, rfl⟩
  · exact ⟨_, rfl⟩

/-- **`allocate` gives each handler memory of its own.** -/
theorem sound_acquire {size fresh : ℕ} (hs : m.Sound)
    (h : m.acquire kind size fresh = some m') : m'.Sound := by
  rcases acquire_cases h with ⟨hfree, hle, rfl⟩ | ⟨-, hfresh, rfl⟩
  · have hno : HandlerBlock.buffer ∉ m.live.map LiveHandler.block := fun hmem => by
      rw [hs.inUse.mpr hmem] at hfree
      exact Bool.false_ne_true hfree.symm
    refine ⟨List.nodup_cons.mpr ⟨hno, hs.nodup⟩, iff_of_true rfl List.mem_cons_self,
      fun address => ?_, hs.heapNodup, fun h hh hblock => ?_⟩
    · simp [hs.heap address]
    · rcases List.mem_cons.mp hh with rfl | hh
      · exact hle
      · exact hs.fits h hh hblock
  · refine ⟨List.nodup_cons.mpr ⟨fun hmem => hfresh ((hs.heap fresh).mpr hmem), hs.nodup⟩, ?_,
      fun address => ?_, List.nodup_cons.mpr ⟨hfresh, hs.heapNodup⟩, fun h hh hblock => ?_⟩
    · simp [hs.inUse]
    · simp [hs.heap address]
    · rcases List.mem_cons.mp hh with rfl | hh
      · cases hblock
      · exact hs.fits h hh hblock

/-- The memory of the handlers that are left when one is gone. -/
lemma mem_map_erase (hs : m.Sound) {h : LiveHandler} (hh : h ∈ m.live) (block : HandlerBlock) :
    block ∈ (m.live.erase h).map LiveHandler.block ↔
      block ∈ m.live.map LiveHandler.block ∧ block ≠ h.block := by
  have hlive : m.live.Nodup := List.Nodup.of_map _ hs.nodup
  simp only [List.mem_map, hlive.mem_erase_iff]
  constructor
  · rintro ⟨h', ⟨hne, hh'⟩, rfl⟩
    exact ⟨⟨h', hh', rfl⟩, fun heq => hne (List.inj_on_of_nodup_map hs.nodup hh' hh heq)⟩
  · rintro ⟨⟨h', hh', rfl⟩, hne⟩
    exact ⟨h', ⟨fun heq => hne (by rw [heq]), hh'⟩, rfl⟩

/-- **`deallocate` gives the memory back to where it came from.** If there is a handler for an
operation, the memory of one is freed, and `operator delete` is called with no other address than
that of a block in use.

**Proof sketch.** The first handler of the operation has the buffer or a block of the heap. Either
is freed, and no other handler has it (`mem_map_erase`). -/
theorem exists_release (hs : m.Sound) (h : 0 < m.live.countP fun h => h.kind = kind) :
    ∃ h ∈ m.live, h.kind = kind ∧ ∃ m', m.release kind = some m' ∧ m'.live = m.live.erase h ∧
      m'.Sound := by
  obtain ⟨h', hmem, hkind⟩ := List.countP_pos_iff.mp h
  obtain ⟨h, hfind⟩ := Option.isSome_iff_exists.mp
    (List.find?_isSome (p := fun h : LiveHandler => decide (h.kind = kind)) |>.mpr
      ⟨h', hmem, hkind⟩)
  have hh : h ∈ m.live := List.mem_of_find?_eq_some hfind
  have hk : h.kind = kind := of_decide_eq_true
    (List.find?_some (p := fun h : LiveHandler => decide (h.kind = kind)) hfind)
  have hleft := mem_map_erase hs hh
  have hnodup : ((m.live.erase h).map LiveHandler.block).Nodup :=
    hs.nodup.sublist (List.erase_sublist.map _)
  have hfits : ∀ h' ∈ m.live.erase h, h'.block = .buffer →
      h'.size ≤ HandlerAllocator.bufferSize := fun h' hh' =>
    hs.fits h' (List.mem_of_mem_erase hh')
  refine ⟨h, hh, hk, ?_⟩
  cases hblock : h.block with
  | buffer =>
    refine ⟨⟨⟨false⟩, m.heap, m.live.erase h⟩, ?_, rfl, hnodup, ?_, fun address => ?_,
      hs.heapNodup, hfits⟩
    · rw [release, hfind, Option.bind_some, hblock]
      rfl
    · refine iff_of_false Bool.false_ne_true fun hmem => ?_
      exact ((hleft _).mp hmem).2 hblock.symm
    · rw [hs.heap, hleft, hblock]
      simp
  | heap address =>
    have hin : address ∈ m.heap := (hs.heap address).mpr
      (hblock ▸ List.mem_map_of_mem (f := LiveHandler.block) hh)
    refine ⟨⟨m.allocator, m.heap.erase address, m.live.erase h⟩, ?_, rfl, hnodup, ?_,
      fun address' => ?_, hs.heapNodup.erase address, hfits⟩
    · rw [release, hfind, Option.bind_some, hblock]
      exact if_pos hin
    · rw [hs.inUse, hleft, hblock]
      simp
    · rw [hs.heapNodup.mem_erase_iff, hs.heap, hleft, hblock, and_comm]
      simp

/-- The handlers after several got memory. -/
lemma countP_acquireAll {kinds : List OpKind} {requests : List (ℕ × ℕ)}
    (h : m.acquireAll kinds requests = some m') (kind : OpKind) :
    (m'.live.countP fun h => h.kind = kind) =
      (m.live.countP fun h => h.kind = kind) + kinds.count kind := by
  induction kinds generalizing requests m with
  | nil =>
    cases requests with
    | nil =>
      obtain rfl := Option.some.inj h
      rfl
    | cons request requests => cases h
  | cons k kinds ih =>
    cases requests with
    | nil => cases h
    | cons request requests =>
      obtain ⟨m₁, hfirst, hrest⟩ := Option.bind_eq_some_iff.mp h
      obtain ⟨block, hlive⟩ := live_acquire hfirst
      rw [ih hrest, hlive, List.countP_cons, List.count_cons]
      simp only [beq_iff_eq, decide_eq_true_eq]
      omega

/-- The handlers are those of reads and those of writes. -/
lemma length_live (m : HandlerMemory) : m.live.length =
    (m.live.countP fun h => h.kind = .read) + m.live.countP fun h => h.kind = .write := by
  rw [List.length_eq_countP_add_countP (fun h : LiveHandler => decide (h.kind = .read))]
  refine congrArg _ (List.countP_congr fun h _ => ?_)
  cases h.kind <;> simp

/-- **Of two handlers at most, one is displaced at most**: it has found another one in the
allocator. -/
lemma displaced_acquire {size fresh : ℕ} (hs : m.Sound)
    (hd : m.live.countP LiveHandler.displaced ≤ 1) (h : m.acquire kind size fresh = some m')
    (hle : m'.live.length ≤ 2) : m'.live.countP LiveHandler.displaced ≤ 1 := by
  rcases acquire_cases h with ⟨-, -, rfl⟩ | ⟨hwhy, -, rfl⟩
  · rw [List.countP_cons]
    simpa [LiveHandler.displaced] using hd
  · rcases hwhy with hinUse | hlarge
    · obtain ⟨h', hh', hblock⟩ := List.mem_map.mp (hs.inUse.mp hinUse)
      have hone : m.live = [h'] := by
        rw [List.length_cons] at hle
        obtain ⟨h'', hlive⟩ := List.length_eq_one_iff.mp
          (Nat.le_antisymm (Nat.le_of_succ_le_succ hle) (List.length_pos_of_mem hh'))
        rw [hlive, List.mem_singleton] at hh'
        rw [hlive, hh']
      have hnone : LiveHandler.displaced h' = false := by simp [LiveHandler.displaced, hblock]
      dsimp only
      rw [hone, List.countP_cons, List.countP_cons, hnone]
      simp only [List.countP_nil, Bool.false_eq_true, if_false, Nat.zero_add]
      split_ifs <;> omega
    · rw [List.countP_cons]
      have hnot : ¬ size ≤ HandlerAllocator.bufferSize := Nat.not_le_of_lt hlarge
      simpa [LiveHandler.displaced, hnot] using hd

/-- What several handlers that get memory keep. -/
lemma sound_acquireAll {kinds : List OpKind} {requests : List (ℕ × ℕ)} (hs : m.Sound)
    (hd : m.live.countP LiveHandler.displaced ≤ 1)
    (h : m.acquireAll kinds requests = some m') (hle : m'.live.length ≤ 2) :
    m'.Sound ∧ m'.live.countP LiveHandler.displaced ≤ 1 := by
  induction kinds generalizing requests m with
  | nil =>
    cases requests with
    | nil =>
      obtain rfl := Option.some.inj h
      exact ⟨hs, hd⟩
    | cons request requests => cases h
  | cons k kinds ih =>
    cases requests with
    | nil => cases h
    | cons request requests =>
      obtain ⟨m₁, hfirst, hrest⟩ := Option.bind_eq_some_iff.mp h
      have hmono : m₁.live.length ≤ m'.live.length := by
        rw [length_live, length_live, countP_acquireAll hrest, countP_acquireAll hrest]
        omega
      exact ih (sound_acquire hs hfirst) (displaced_acquire hs hd hfirst (by omega)) hrest

/-- The allocator starts sound. -/
lemma sound_new : new.Sound :=
  ⟨List.nodup_nil, by simp [new], by simp [new], List.nodup_nil, by simp [new]⟩

end HandlerMemory

/-! ## The operations of a socket -/

/-- `StartAsyncRead` starts a read or nothing. -/
lemma startAsyncRead_reads_le (s : Socket) :
    s.reads.length ≤ s.startAsyncRead.reads.length := by
  unfold Socket.startAsyncRead
  split_ifs <;> simp

/-- `StartAsyncRead` starts no write. -/
lemma startAsyncRead_writes (s : Socket) : s.startAsyncRead.writes = s.writes := by
  unfold Socket.startAsyncRead
  split_ifs <;> rfl

/-- `OnRead` starts no write and ends no read. -/
lemma onRead_started (s : Socket) (d : δ) (length available : ℕ) :
    s.reads.length ≤ (s.onRead grow D d length available).2.reads.length ∧
      (s.onRead grow D d length available).2.writes = s.writes := by
  have hreads : ∀ cs, ((s.advance length).calls grow cs).reads = s.reads := fun cs => by
    rw [Socket.calls_reads]
    rfl
  have hwrites : ∀ cs, ((s.advance length).calls grow cs).writes = s.writes := fun cs => by
    rw [calls_writes]
    rfl
  have hstart : ∀ t : Socket, t.reads = s.reads → t.writes = s.writes →
      s.reads.length ≤ t.startAsyncRead.reads.length ∧ t.startAsyncRead.writes = s.writes := by
    intro t hr hw
    rw [startAsyncRead_writes, ← hr]
    exact ⟨startAsyncRead_reads_le t, hw⟩
  unfold Socket.onRead Socket.process
  dsimp only
  split_ifs
  · exact hstart _ rfl rfl
  · exact hstart _ (hreads _) (hwrites _)
  · exact hstart _ (hreads _) (hwrites _)
  · rw [Socket.closeSocket_reads, Socket.closeSocket_writes]
    exact ⟨Nat.le_of_eq (congrArg List.length (hreads _)).symm, hwrites _⟩
  · exact ⟨Nat.le_of_eq (congrArg List.length (hreads _)).symm, hwrites _⟩
  · exact ⟨Nat.le_refl _, rfl⟩

/-- **A step ends no operation but the one that completes.**

**Proof sketch.** A read that completes starts no write, and at most one read (`onRead_started`). A
step of the sending side leaves the reads (`writeSystem_reads`), and each of its cases starts a
write or leaves those that are left. -/
lemma retire_le {st st' : δ × Socket} {a : SocketAction}
    (h : (socketSystem grow D).step st a = some st') :
    (a.retire st.2).reads.length ≤ st'.2.reads.length ∧
      (a.retire st.2).writes.length ≤ st'.2.writes.length := by
  cases a with
  | receive a =>
    rcases readSystem_step_any grow D h with ⟨bytes, available, rfl, rfl⟩ | ⟨rfl, rfl⟩
    · have hstarted := onRead_started grow D
        (({ st.2 with reads := st.2.reads.tail } : Socket).deliver bytes) st.1 bytes.length
        available
      exact ⟨hstarted.1, Nat.le_of_eq (congrArg List.length hstarted.2).symm⟩
    · rw [Socket.onReadError, Socket.onError_eq, Socket.closeSocket_reads,
        Socket.closeSocket_writes]
      exact ⟨Nat.le_refl _, Nat.le_refl _⟩
  | transmit a =>
    obtain ⟨t, ht, rfl⟩ := Option.map_eq_some_iff.mp h
    have hreads : (SocketAction.retire st.2 (.transmit a)).reads = st.2.reads := by
      cases a <;> rfl
    refine ⟨by rw [hreads, writeSystem_reads grow ht], ?_⟩
    rcases writeSystem_step_cases grow ht with ⟨bytes, rfl, rfl⟩ | ⟨rfl, rfl⟩ |
      ⟨w, ws, rfl, hw, rfl⟩ | ⟨op, ops, n, stale, rfl, hw, -, rfl⟩ | ⟨op, ops, rfl, hw, rfl⟩ |
      ⟨rfl, rfl⟩
    · rw [Socket.write_writes]
      exact Nat.le_refl _
    · exact Nat.le_refl _
    · unfold Socket.flushOut
      split_ifs <;> simp [SocketAction.retire, Socket.asyncWriteSome]
    · unfold Socket.onWriteComplete
      dsimp only
      split_ifs <;> simp [SocketAction.retire, Socket.asyncWriteSome, hw]
    · rw [Socket.onError_eq, Socket.closeSocket_writes]
      simp [SocketAction.retire, hw]
    · rw [Socket.closeSocket_writes]
      exact Nat.le_refl _

/-- The operation that completes is gone, and the other kind of operation has stayed. -/
lemma retire_length {st st' : δ × Socket} {a : SocketAction}
    (h : (socketSystem grow D).step st a = some st') :
    (a.retire st.2).reads.length + (if a.completes = some .read then 1 else 0) =
        st.2.reads.length ∧
      (a.retire st.2).writes.length + (if a.completes = some .write then 1 else 0) =
        st.2.writes.length := by
  cases a with
  | receive a =>
    have hpos : st.2.reads ≠ [] := by
      obtain ⟨d, s⟩ := st
      intro hnil
      cases a <;> simp [socketSystem, readSystem, show s.reads = [] from hnil] at h
    have hlength := List.length_pos_of_ne_nil hpos
    simp only [SocketAction.completes, SocketAction.retire, List.length_tail, if_true]
    refine ⟨by omega, ?_⟩
    simp
  | transmit a =>
    obtain ⟨t, ht, -⟩ := Option.map_eq_some_iff.mp h
    rcases writeSystem_step_cases grow ht with ⟨bytes, rfl, -⟩ | ⟨rfl, -⟩ |
      ⟨w, ws, rfl, -, -⟩ | ⟨op, ops, n, stale, rfl, hw, -, -⟩ | ⟨op, ops, rfl, hw, -⟩ |
      ⟨rfl, -⟩ <;> simp [SocketAction.completes, SocketAction.retire, *]

/-! ## Runs -/

/-- **The memory matches the socket**: it is sound, there is a handler for each operation that is
outstanding, and one is displaced at most. -/
structure Matched (s : (δ × Socket) × HandlerMemory) : Prop where
  /-- Each handler has memory of its own. -/
  sound : s.2.Sound
  /-- The reads have handlers. -/
  reads : (s.2.live.countP fun h => h.kind = .read) = s.1.2.reads.length
  /-- The writes have handlers. -/
  writes : (s.2.live.countP fun h => h.kind = .write) = s.1.2.writes.length
  /-- One handler is displaced at most. -/
  displaced : s.2.live.countP LiveHandler.displaced ≤ 1

/-- How many operations of a kind are started. -/
lemma count_started (s s' : Socket) :
    (started s s').count .read = s'.reads.length - s.reads.length ∧
      (started s s').count .write = s'.writes.length - s.writes.length := by
  simp [started, List.count_append, List.count_replicate]

/-- The handlers of operations that are started get memory. -/
lemma matched_acquireAll {m m' : HandlerMemory} {s : Socket} {t : δ × Socket}
    {requests : List (ℕ × ℕ)} (hs : m.Sound)
    (hreads : (m.live.countP fun h => h.kind = .read) = s.reads.length)
    (hwrites : (m.live.countP fun h => h.kind = .write) = s.writes.length)
    (hd : m.live.countP LiveHandler.displaced ≤ 1) (hler : s.reads.length ≤ t.2.reads.length)
    (hlew : s.writes.length ≤ t.2.writes.length) (htwo : t.2.handlers ≤ 2)
    (h : m.acquireAll (started s t.2) requests = some m') : Matched (t, m') := by
  obtain ⟨hstartedReads, hstartedWrites⟩ := count_started s t.2
  have hr : (m'.live.countP fun h => h.kind = .read) = t.2.reads.length := by
    rw [HandlerMemory.countP_acquireAll h, hreads, hstartedReads]
    omega
  have hw : (m'.live.countP fun h => h.kind = .write) = t.2.writes.length := by
    rw [HandlerMemory.countP_acquireAll h, hwrites, hstartedWrites]
    omega
  have hle : m'.live.length ≤ 2 := by
    rw [HandlerMemory.length_live, hr, hw]
    unfold Socket.handlers at htwo
    omega
  obtain ⟨hsound, hdisplaced⟩ := HandlerMemory.sound_acquireAll hs hd h hle
  exact ⟨hsound, hr, hw, hdisplaced⟩

/-- **The handler of an operation that completes has memory**, and it can be freed. -/
lemma exists_release_of_completes {s : (δ × Socket) × HandlerMemory} (h : Matched s)
    {a : SocketAction} {st : δ × Socket} (hstep : (socketSystem grow D).step s.1 a = some st)
    {kind : OpKind} (hkind : a.completes = some kind) :
    ∃ h ∈ s.2.live, h.kind = kind ∧ ∃ m', s.2.release kind = some m' ∧
      m'.live = s.2.live.erase h ∧ m'.Sound := by
  obtain ⟨hreads, hwrites⟩ := retire_length grow D hstep
  refine HandlerMemory.exists_release h.sound ?_
  cases kind with
  | read =>
    rw [h.reads, ← hreads, if_pos hkind]
    exact Nat.succ_pos _
  | write =>
    rw [h.writes, ← hwrites, if_pos hkind]
    exact Nat.succ_pos _

/-- A step keeps the memory matched, if two handlers hold the socket at most. -/
lemma matched_step {s s' : (δ × Socket) × HandlerMemory} {a : SocketAction × List (ℕ × ℕ)}
    (h : Matched s) (htwo : s'.1.2.handlers ≤ 2)
    (hstep : (memorySystem grow D).step s a = some s') : Matched s' := by
  obtain ⟨st, hst, hrest⟩ := Option.bind_eq_some_iff.mp hstep
  obtain ⟨m, hm, hmap⟩ := Option.bind_eq_some_iff.mp hrest
  obtain ⟨m', hacquire, rfl⟩ := Option.map_eq_some_iff.mp hmap
  obtain ⟨hler, hlew⟩ := retire_le grow D hst
  obtain ⟨hreads, hwrites⟩ := retire_length grow D hst
  cases hkind : a.1.completes with
  | none =>
    rw [hkind] at hm hreads hwrites
    obtain rfl := Option.some.inj hm
    exact matched_acquireAll h.sound (h.reads.trans hreads.symm) (h.writes.trans hwrites.symm)
      h.displaced hler hlew htwo hacquire
  | some kind =>
    obtain ⟨handler, hmem, hk, m₁, hrelease, hlive, hsound⟩ :=
      exists_release_of_completes grow D h hst hkind
    rw [hkind] at hm
    obtain rfl := Option.some.inj (hrelease.symm.trans hm)
    have hcount : ∀ p : LiveHandler → Bool, m₁.live.countP p =
        s.2.live.countP p - if p handler then 1 else 0 := by
      intro p
      rw [hlive, List.countP_erase]
      simp [hmem]
    refine matched_acquireAll hsound ?_ ?_ ?_ hler hlew htwo hacquire
    · rw [hcount, h.reads, ← hreads, hkind, hk]
      cases kind <;> simp
    · rw [hcount, h.writes, ← hwrites, hkind, hk]
      cases kind <;> simp
    · have hle := h.displaced
      rw [hcount]
      omega

/-- The socket of a run, and what a run of a socket with its memory keeps. -/
lemma matched_run {d : δ} {requests : List (ℕ × ℕ)} {m : HandlerMemory}
    (hopen : HandlerMemory.new.acquireAll
      (started Socket.fresh (Socket.openSocket grow D)) requests = some m)
    {as : List (SocketAction × List (ℕ × ℕ))} {s : (δ × Socket) × HandlerMemory}
    (h : (memorySystem grow D).run ((d, Socket.openSocket grow D), m) as = some s) :
    Matched s := by
  have hrefl : (socketSystem grow D).run (d, Socket.openSocket grow D) [] =
      some (d, Socket.openSocket grow D) := rfl
  have hstart : Matched ((d, Socket.openSocket grow D), m) :=
    matched_acquireAll (t := (d, Socket.openSocket grow D)) HandlerMemory.sound_new rfl rfl
      (Nat.zero_le 1) (Nat.zero_le _) (Nat.zero_le _)
      (handlers_le_two grow D hrefl).2 hopen
  have hinv := (memorySystem grow D).run_invariant
    (I := fun s => Matched s ∧ ∃ bs,
      (socketSystem grow D).run (d, Socket.openSocket grow D) bs = some s.1)
    (fun s a s' ⟨hs, bs, hbs⟩ hstep => by
      obtain ⟨st, hst, hrest⟩ := Option.bind_eq_some_iff.mp hstep
      obtain ⟨m₁, -, hmap⟩ := Option.bind_eq_some_iff.mp hrest
      obtain ⟨m₂, -, rfl⟩ := Option.map_eq_some_iff.mp hmap
      have hrun : (socketSystem grow D).run (d, Socket.openSocket grow D) (bs ++ [a.1]) =
          some st := by
        rw [(socketSystem grow D).run_append [a.1] hbs,
          (socketSystem grow D).run_cons_of_step [] hst]
        rfl
      exact ⟨matched_step grow D hs (handlers_le_two grow D hrun).2 hstep, _, hrun⟩)
    h ⟨hstart, [], rfl⟩
  exact hinv.1

/-- **The memory of the handlers.** For every derived class and every run of a socket that was
opened, whatever sizes the handlers have and whatever addresses the heap gives: no two handlers that
are outstanding share memory, and one in the allocator has room there. There is memory for one
handler for each read and each write, two at most. When an operation completes, its handler has
memory that can be freed: `operator delete` is called for no other address than that of a block in
use. And of the handlers that would have room in the allocator, one at most is on the heap.

**Proof sketch.** `m_inUse` tells whether one of the handlers is in the allocator, and `deallocate`
tells by the address where the memory came from (`HandlerMemory.sound_acquire`,
`HandlerMemory.exists_release`). Two handlers hold the socket at most (`handlers_le_two`), so a
handler that finds the allocator in use is alone on the heap. -/
theorem handler_memory (d : δ) (requests : List (ℕ × ℕ)) (m : HandlerMemory)
    (hopen : HandlerMemory.new.acquireAll
      (started Socket.fresh (Socket.openSocket grow D)) requests = some m)
    (as : List (SocketAction × List (ℕ × ℕ))) (s : (δ × Socket) × HandlerMemory)
    (h : (memorySystem grow D).run ((d, Socket.openSocket grow D), m) as = some s) :
    (s.2.live.map LiveHandler.block).Nodup ∧
    (∀ h ∈ s.2.live, h.block = .buffer → h.size ≤ HandlerAllocator.bufferSize) ∧
    (s.2.live.countP fun h => h.kind = .read) = s.1.2.reads.length ∧
    (s.2.live.countP fun h => h.kind = .write) = s.1.2.writes.length ∧
    (∀ a st, (socketSystem grow D).step s.1 a = some st → ∀ kind, a.completes = some kind →
      ∃ m', s.2.release kind = some m') ∧
    s.2.live.countP LiveHandler.displaced ≤ 1 := by
  have hmatched := matched_run grow D hopen h
  refine ⟨hmatched.sound.nodup, hmatched.sound.fits, hmatched.reads, hmatched.writes,
    fun a st hst kind hkind => ?_, hmatched.displaced⟩
  obtain ⟨_, -, -, m', hm', -⟩ := exists_release_of_completes grow D hmatched hst hkind
  exact ⟨m', hm'⟩

/-- A read in the allocator and a write on the heap. -/
theorem handler_memory_read : ∃ m s,
    HandlerMemory.new.acquireAll
      (started Socket.fresh (Socket.openSocket (fun _ n => n) Derived.answer)) [(64, 1)] =
        some m ∧
    (memorySystem (fun _ n => n) Derived.answer).run
      (((), Socket.openSocket (fun _ n => n) Derived.answer), m)
      [(.transmit .flushTimer, [(64, 2)])] = some s ∧
    s.2.live.map LiveHandler.block = [.heap 2, .buffer] ∧
    s.2.live.countP LiveHandler.displaced ≤ 1 :=
  ⟨_, _, rfl, rfl, rfl, (handler_memory (fun _ n => n) Derived.answer () [(64, 1)] _ rfl
    [(.transmit .flushTimer, [(64, 2)])] _ rfl).2.2.2.2.2⟩

end SteerStone
