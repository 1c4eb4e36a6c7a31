import PristonTale.Foundations.Program

set_option relaxedAutoImplicit false
set_option autoImplicit false

/-!
# What the packet handlers do

The handlers of the server as programs: the events they have outside (packets sent, statements
executed, the connection closed), and the two ways they stop before their end. The state counts
the calls made into the SQL driver, each of which may throw.

## Main definitions

* `SteerStone.Event`, `SteerStone.Stop`, `SteerStone.Action` — the programs.
* `SteerStone.orStop` — using a value that may not be there.
-/

namespace SteerStone

open Foundations

/-- A parameter bound to a statement. -/
inductive Parameter where
  | string (text : List UInt8)
  | uint (value : ℕ)
  deriving DecidableEq, Repr

/-- What can be seen of a handler from outside. -/
inductive Event where
  /-- `SendPacket` was called with a pointer to an object of `size` bytes and the length `length`,
  and passed `bytes` to `Write`. -/
  | send (size length : ℕ) (bytes : List UInt8)
  /-- A statement was executed with its bound parameters. -/
  | executeQuery (sql : String) (parameters : List (ℕ × Parameter))
  /-- `CloseSocket` was called. -/
  | closeSocket
  deriving DecidableEq, Repr

/-- The bytes an event passes to `Write`. -/
def Event.sent : Event → Option (List UInt8)
  | .send _ _ bytes => some bytes
  | _ => none

/-- Why a handler stops before its end. -/
inductive Stop where
  /-- The SQL driver threw `sql::SQLException` and nobody caught it. -/
  | sqlException
  /-- A null pointer was dereferenced, memory that is not there was read, or memory that is in use
  was overwritten. -/
  | fault
  deriving DecidableEq, Repr

/-- A program of the server; its state is the number of calls made into the SQL driver. -/
abbrev Action := Program Event Stop ℕ

/-- Use a value that may not be there. -/
def orStop {α : Type} (x : Stop) : Option α → Action α
  | some a => pure a
  | none => .stop x

variable {α : Type} {x : Stop} {o : Option α} {a : α} {n m : ℕ}

/-- Taking a value or stopping has no events. -/
@[simp] lemma events_orStop : (orStop x o).events n = [] := by
  cases o <;> rfl

/-- It returns the value there is. -/
@[simp] lemma returns_orStop : (orStop x o).Returns n a m ↔ o = some a ∧ m = n := by
  cases o with
  | none => simp [orStop]
  | some b => simp [orStop, eq_comm]

/-- With a value the program goes on. -/
@[simp] lemma orStop_some_bind {β : Type} (f : α → Action β) :
    (orStop x (some a) >>= f : Action β) = f a := Program.pure_bind a f

/-- Without one it stops. -/
@[simp] lemma orStop_none_bind {β : Type} (f : α → Action β) :
    (orStop x none >>= f : Action β) = .stop x := Program.stop_bind x f

/-- A program that goes on with a value that is there. -/
lemma run_orStop_bind {β : Type} (h : o = some a) (f : α → Action β) :
    (orStop x o >>= f).run n = (f a).run n :=
  Program.run_bind_of_silent f events_orStop (returns_orStop.mpr ⟨h, rfl⟩)

end SteerStone
