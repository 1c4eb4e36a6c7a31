import PristonTale.Foundations.Transition

set_option relaxedAutoImplicit false
set_option autoImplicit false

/-!
# The callback queue

`FunctionCallBack` (`Shared/Platform/Thread/FunctionCallBack.{h,cpp}`) stores functions until they
are executed on one thread. Its contract for `ProcessFunctions` is to execute all functions in
storage; what it does is to take one from the back and execute that, so of several functions the
one added last is executed and the others stay.

## Main definitions

* `SteerStone.FunctionCallBack` — the storage; `SteerStone.FunctionCallBack.addCallBack` and
  `SteerStone.FunctionCallBack.processFunctions` — the functions.
* `SteerStone.callBackSystem` — any sequence of calls, with what has been added since the last
  `ProcessFunctions`.
* `SteerStone.ExecutesAll` — the contract of a call.

## Main results

* `SteerStone.executesAll_iff` — the sequences of calls in which each call keeps the contract.

## Implementation notes

* A callback is a value of an arbitrary type. It does not touch the queue.
-/

namespace SteerStone

open Foundations

variable {φ : Type}

/-- A `FunctionCallBack`: `m_CallBack`. -/
structure FunctionCallBack (φ : Type) where
  /-- The functions. -/
  callBack : List φ
  deriving DecidableEq, Repr

namespace FunctionCallBack

/-- The constructor. -/
def new : FunctionCallBack φ := ⟨[]⟩

/-- `AddCallBack`. -/
def addCallBack (function : φ) (c : FunctionCallBack φ) : FunctionCallBack φ :=
  ⟨c.callBack ++ [function]⟩

/-- `ProcessFunctions`: the functions it executes, in order, and the storage then. -/
def processFunctions (c : FunctionCallBack φ) : List φ × FunctionCallBack φ :=
  match c.callBack.getLast? with
  | none => ([], c)
  | some function => ([function], ⟨c.callBack.dropLast⟩)

end FunctionCallBack

/-- A call of `AddCallBack` or of `ProcessFunctions`. -/
inductive CallBackCall (φ : Type) where
  | addCallBack (function : φ)
  | processFunctions
  deriving DecidableEq, Repr

/-- A queue, and the functions that have been added since the last `ProcessFunctions`, in order. -/
structure CallBackHistory (φ : Type) where
  /-- The queue. -/
  queue : FunctionCallBack φ
  /-- The functions added since the last `ProcessFunctions`. -/
  added : List φ
  deriving DecidableEq, Repr

/-- A new queue. -/
def CallBackHistory.new : CallBackHistory φ := ⟨.new, []⟩

/-- **Any sequence of calls.** -/
def callBackSystem : Transition (CallBackHistory φ) (CallBackCall φ) where
  step st
    | .addCallBack function => some ⟨st.queue.addCallBack function, st.added ++ [function]⟩
    | .processFunctions => some ⟨st.queue.processFunctions.2, []⟩

/-- **The contract of a call**: `ProcessFunctions` executes all functions added since the last
`ProcessFunctions`, each once and in the order added, and leaves the storage empty. -/
def ExecutesAll (st : CallBackHistory φ) (call : CallBackCall φ) : Prop :=
  call = .processFunctions → st.queue.processFunctions = (st.added, .new)

/-- At most one function has been added when `ProcessFunctions` is called. -/
def AtMostOne (st : CallBackHistory φ) (call : CallBackCall φ) : Prop :=
  call = .processFunctions → st.added.length ≤ 1

instance [DecidableEq φ] (st : CallBackHistory φ) (call : CallBackCall φ) :
    Decidable (ExecutesAll st call) :=
  inferInstanceAs (Decidable (_ → _))

/-- All functions in storage are executed exactly when there is at most one.

**Proof sketch.** One function is executed at most, so two are not; and an empty storage and a
storage of one are left empty. -/
lemma processFunctions_eq_iff (fs : List φ) :
    (⟨fs⟩ : FunctionCallBack φ).processFunctions = (fs, .new) ↔ fs.length ≤ 1 := by
  constructor
  · intro h
    have hexecuted : ∀ c : FunctionCallBack φ, c.processFunctions.1.length ≤ 1 := by
      intro c
      unfold FunctionCallBack.processFunctions
      split
      · exact Nat.zero_le 1
      · exact Nat.le_refl 1
    have hlength := hexecuted ⟨fs⟩
    rw [h] at hlength
    exact hlength
  · intro h
    match fs, h with
    | [], _ => rfl
    | [f], _ => rfl

/-- While the calls keep the contract, the storage holds what has been added since the last
`ProcessFunctions`. -/
lemma callBack_eq_added {st st' : CallBackHistory φ} {call : CallBackCall φ}
    (h : st.queue.callBack = st.added) (hcall : ExecutesAll st call)
    (hstep : callBackSystem.step st call = some st') : st'.queue.callBack = st'.added := by
  cases call with
  | addCallBack function =>
    obtain rfl := Option.some.inj hstep
    show st.queue.callBack ++ [function] = st.added ++ [function]
    rw [h]
  | processFunctions =>
    obtain rfl := Option.some.inj hstep
    show st.queue.processFunctions.2.callBack = []
    rw [hcall rfl]
    rfl

/-- **The callback queue, exactly.** For every sequence of calls: each `ProcessFunctions` executes
all functions added since the one before, each once and in the order added, and leaves the storage
empty, if and only if there is at most one such function at each `ProcessFunctions`.

**Proof sketch.** While the contract is kept, the storage holds what has been added since the last
`ProcessFunctions` (`callBack_eq_added`); and with that in storage, the contract is kept exactly
when it is one function at most (`processFunctions_eq_iff`). -/
theorem executesAll_iff (calls : List (CallBackCall φ)) :
    callBackSystem.Along ExecutesAll .new calls ↔ callBackSystem.Along AtMostOne .new calls := by
  refine callBackSystem.along_iff_along (I := fun st => st.queue.callBack = st.added) ?_ ?_ rfl
    calls
  · exact fun st call st' h hcall hstep => callBack_eq_added h hcall hstep
  · intro st call h
    have hiff := processFunctions_eq_iff st.added
    rw [← h] at hiff
    unfold ExecutesAll AtMostOne
    rw [← h]
    exact imp_congr_right fun _ => hiff

/-- Of two functions the one added last is executed, and the other stays in storage. -/
theorem executesAll_fails :
    (FunctionCallBack.new.addCallBack 0 |>.addCallBack 1).processFunctions = ([1], ⟨[0]⟩) ∧
      ¬ callBackSystem.Along ExecutesAll .new
        [.addCallBack 0, .addCallBack 1, .processFunctions] := by
  decide

end SteerStone
