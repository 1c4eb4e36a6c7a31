import PristonTale.Network.Listener

set_option relaxedAutoImplicit false
set_option autoImplicit false

/-!
# The balance of the workers

`SelectWorker` gives each new socket to a worker with the fewest, and counts it there before a
connection is accepted on it. When the accept fails the socket is taken back from that worker, which
undoes the last step: so the workers stay balanced as long as sockets are not removed otherwise.

## Main definitions

* `SteerStone.Listener.Even` — the workers are balanced, now and when the accepts that are
  outstanding are taken back.
* `SteerStone.acceptSystem` — the accept loop alone.

## Main results

* `SteerStone.Listener.even_beginAccept`, `SteerStone.even_step` — a `BeginAccept`, and an accept,
  keep the workers balanced.
* `SteerStone.workers_balanced` — the worker selected, and the balance in every run of accepts.
-/

namespace SteerStone

open Foundations

namespace Listener

/-- The numbers of sockets of any two workers are within one of each other, now and when an accept
that is outstanding is taken back. -/
structure Even (l : Listener) : Prop where
  /-- Now. -/
  balanced : Balanced NetworkThread.size l.workerThreads
  /-- When the socket of an accept is removed. -/
  undone : ∀ worker socket, (worker, socket) ∈ l.accepts →
    Balanced NetworkThread.size (l.onWorker worker (.removeSocket socket)).workerThreads

/-- To remove the socket that was created last is to undo `CreateSocket`. -/
lemma removeSocket_createSocket (socket : ℕ) (t : NetworkThread) :
    (t.createSocket socket).removeSocket socket = t := by
  unfold NetworkThread.createSocket NetworkThread.removeSocket
  rw [List.erase_cons_head]

/-- **`BeginAccept`** keeps balanced workers balanced, and its accept can be taken back.

**Proof sketch.** The new socket goes to a worker with the fewest (`Balanced.modify`); to remove it
again leaves the workers as they were. -/
lemma even_beginAccept {m l : Listener} (hm : Balanced NetworkThread.size m.workerThreads)
    (hnone : m.accepts = []) (h : m.beginAccept = some l) : l.Even := by
  obtain ⟨w, hw, rfl⟩ := Option.map_eq_some_iff.mp h
  obtain ⟨t, ht, hleast⟩ := selectWorker_least hw
  refine ⟨hm.modify ht hleast rfl, ?_⟩
  intro worker socket hmem
  have hmem' : (worker, socket) ∈ m.accepts ++ [(w, m.created)] := hmem
  rw [hnone, List.nil_append, List.mem_singleton, Prod.mk.injEq] at hmem'
  obtain ⟨rfl, rfl⟩ := hmem'
  have hundo : NetworkThread.removeSocket m.created ∘ NetworkThread.createSocket m.created = id :=
    funext fun t => removeSocket_createSocket m.created t
  show Balanced _ ((m.workerThreads.modify worker (.createSocket m.created)).modify worker
    (.removeSocket m.created))
  rw [List.modify_modify_eq, hundo, List.modify_id]
  exact hm

end Listener

/-- **The accept loop alone**: sockets are removed only when an accept fails. -/
def acceptSystem : Transition Listener AcceptOutcome where
  step l outcome := listenerSystem.step l (.accept outcome)

/-- One accept keeps the workers balanced.

**Proof sketch.** An accept that failed is taken back, one that succeeded stays; from there it is
`BeginAccept` (`Listener.even_beginAccept`). If the exception leaves the thread, nothing else
happens. -/
lemma even_step {l l' : Listener} {outcome : AcceptOutcome} (hrunning : Running l) (h : l.Even)
    (hstep : acceptSystem.step l outcome = some l') : l'.Even := by
  have haccept : listenerSystem.step l (.accept outcome) = some l' := hstep
  obtain ⟨w, k, hacc, -⟩ := (hrunning (terminated_of_step haccept)).pending
  have hon := onAccept_of_step hacc haccept
  cases outcome with
  | error =>
    have hundone := h.undone w k (by rw [hacc]; exact List.mem_singleton_self _)
    exact Listener.even_beginAccept (m := Listener.onWorker { l with accepts := [] } w
      (.removeSocket k)) hundone rfl hon
  | connected => exact Listener.even_beginAccept (m := { l with accepts := [] }) h.balanced rfl hon
  | vanished =>
    rw [eq_of_onAccept_throws (AcceptOutcome.throws_iff.mpr (.inl rfl)) hon]
    exact ⟨h.balanced, fun _ _ hmem => absurd hmem List.not_mem_nil⟩
  | unversioned =>
    rw [eq_of_onAccept_throws (AcceptOutcome.throws_iff.mpr (.inr rfl)) hon]
    exact ⟨h.balanced, fun _ _ hmem => absurd hmem List.not_mem_nil⟩

/-- A new listener is balanced. -/
lemma even_new {n : ℕ} {l : Listener} (h : Listener.new n = some l) : l.Even := by
  refine Listener.even_beginAccept (fun t ht t' ht' => ?_) rfl h
  rw [List.eq_of_mem_replicate ht, List.eq_of_mem_replicate ht']
  exact Nat.le_succ _

/-- **The workers are balanced.** `SelectWorker` returns, of every vector of workers that is not
empty, the first worker of those with the fewest sockets. And for every number of workers, in every
run of accepts that succeed or fail, in which sockets are removed only when an accept fails, the
numbers of sockets of any two workers differ by one at most after every step.

**Proof sketch.** The loop of `SelectWorker` keeps the first least worker of those it has seen
(`Listener.selectWorker_firstLeast`). For the balance, one accept is outstanding at any time
(`running_step`), and to take it back leaves the workers balanced as well (`even_step`). -/
theorem workers_balanced :
    (∀ l : Listener, l.workerThreads ≠ [] → ∃ worker t, l.selectWorker = some worker ∧
      l.workerThreads[worker]? = some t ∧ (∀ t' ∈ l.workerThreads, t.size ≤ t'.size) ∧
      ∀ worker' < worker, ∀ t', l.workerThreads[worker']? = some t' → t.size < t'.size) ∧
    ∀ (n : ℕ) (l : Listener), Listener.new n = some l → ∀ (outcomes : List AcceptOutcome)
      (l' : Listener), acceptSystem.run l outcomes = some l' →
        ∀ t ∈ l'.workerThreads, ∀ t' ∈ l'.workerThreads, t.size ≤ t'.size + 1 := by
  constructor
  · intro l hworkers
    obtain ⟨worker, hworker⟩ := Listener.exists_selectWorker hworkers
    obtain ⟨t, hfirst⟩ := Listener.selectWorker_firstLeast hworker
    exact ⟨worker, t, hworker, hfirst.get, hfirst.least, hfirst.first⟩
  · intro n l hl outcomes l' hrun
    have hstart : Running l ∧ l.Even := ⟨fun _ => (Listener.accepting_new hl).1, even_new hl⟩
    have hend : Running l' ∧ l'.Even := by
      refine acceptSystem.run_invariant (I := fun l => Running l ∧ l.Even) ?_ hrun hstart
      rintro s outcome s' ⟨hrunning, heven⟩ hstep
      exact ⟨running_step s (.accept outcome) s' hrunning hstep, even_step hrunning heven hstep⟩
    exact hend.2.balanced

/-- Two workers, and a run of three accepts, one of which fails. -/
theorem workers_balanced_two : ∃ l l', Listener.new 2 = some l ∧
    acceptSystem.run l [.connected, .error, .connected] = some l' ∧
      l'.workerThreads.map NetworkThread.size = [2, 1] ∧
      ∀ t ∈ l'.workerThreads, ∀ t' ∈ l'.workerThreads, t.size ≤ t'.size + 1 :=
  ⟨_, _, rfl, rfl, rfl, workers_balanced.2 2 _ rfl [.connected, .error, .connected] _ rfl⟩

end SteerStone
