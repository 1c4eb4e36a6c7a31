import PristonTale.Foundations.StdMap

set_option relaxedAutoImplicit false
set_option autoImplicit false

/-!
# Opcode tables

The authentication server and the world server each have a class `Opcodes` with two tables of
handlers, for the packets of the client and for those of the server. The two classes differ in their
handlers only. What is common to them is that each table is a map of its own: it holds what has been
stored into it, whatever has been stored into the other.

## Main definitions

* `SteerStone.StoreCall` — a call of `StoreClientPacket` or `StoreServerPacket`.
* `SteerStone.OpcodeTables` — a class with two tables that such a call stores into.
* `SteerStone.LookupsAgree` — the lookups give what was stored last under an id.

## Main results

* `SteerStone.OpcodeTables.find_client_replay`, `SteerStone.OpcodeTables.find_server_replay` — what
  the tables hold after any sequence of calls.
* `SteerStone.OpcodeTables.lookupsAgree_iff` — the ids for which a class is right that looks server
  packets up in the table of the client.
-/

namespace SteerStone

open Foundations

variable {T H : Type}

/-- A call of `StoreClientPacket` or of `StoreServerPacket`. -/
inductive StoreCall (H : Type) where
  | client (opcode : ℕ) (entry : H)
  | server (opcode : ℕ) (entry : H)

/-- What a sequence of calls stores into the table of the client. -/
def clientStores : List (StoreCall H) → List (ℕ × H)
  | [] => []
  | .client opcode entry :: calls => (opcode, entry) :: clientStores calls
  | .server _ _ :: calls => clientStores calls

/-- What a sequence of calls stores into the table of the server. -/
def serverStores : List (StoreCall H) → List (ℕ × H)
  | [] => []
  | .client _ _ :: calls => serverStores calls
  | .server opcode entry :: calls => (opcode, entry) :: serverStores calls

/-- A class `Opcodes`: two tables, and calls that each store into the one they name. -/
structure OpcodeTables (T H : Type) where
  /-- `mClientOpcode`. -/
  client : T → StdMap ℕ H
  /-- `mServerOpcode`. -/
  server : T → StdMap ℕ H
  /-- The calls. -/
  store : T → StoreCall H → T
  /-- `StoreClientPacket` stores into the table of the client. -/
  client_client : ∀ t opcode entry,
    client (store t (.client opcode entry)) = (client t).store opcode entry
  /-- `StoreServerPacket` does not. -/
  client_server : ∀ t opcode entry, client (store t (.server opcode entry)) = client t
  /-- `StoreClientPacket` does not store into the table of the server. -/
  server_client : ∀ t opcode entry, server (store t (.client opcode entry)) = server t
  /-- `StoreServerPacket` does. -/
  server_server : ∀ t opcode entry,
    server (store t (.server opcode entry)) = (server t).store opcode entry

/-- **The lookups after a sequence of calls** give the entry stored last under an id into the table
they are named after, or the empty one; the lookup of a server packet may have no result. -/
def LookupsAgree (empty : H) (getClientPacket : ℕ → H) (getServerPacket : ℕ → Option H)
    (calls : List (StoreCall H)) (id : ℕ) : Prop :=
  getClientPacket id = (lastAssigned id (clientStores calls)).getD empty ∧
    getServerPacket id = some ((lastAssigned id (serverStores calls)).getD empty)

namespace OpcodeTables

variable (O : OpcodeTables T H)

/-- The tables after a sequence of calls. -/
def replay (t : T) (calls : List (StoreCall H)) : T := calls.foldl O.store t

/-- A table after a sequence of calls, from what one call does to it.

**Proof sketch.** Induction on the calls, for every state of the tables. -/
lemma table_replay {table : T → StdMap ℕ H} {stores : List (StoreCall H) → List (ℕ × H)}
    (hnil : stores [] = [])
    (hcons : ∀ t call calls, (table (O.store t call)).storeAll (stores calls) =
      (table t).storeAll (stores (call :: calls)))
    (t : T) (calls : List (StoreCall H)) :
    table (O.replay t calls) = (table t).storeAll (stores calls) := by
  induction calls generalizing t with
  | nil =>
    rw [hnil]
    rfl
  | cons call calls ih =>
    show table (O.replay (O.store t call) calls) = _
    rw [ih, hcons]

/-- The table of the client after a sequence of calls. -/
lemma client_replay (t : T) (calls : List (StoreCall H)) :
    O.client (O.replay t calls) = (O.client t).storeAll (clientStores calls) := by
  refine O.table_replay rfl (fun t call calls => ?_) t calls
  cases call with
  | client opcode entry =>
    rw [O.client_client]
    rfl
  | server opcode entry =>
    rw [O.client_server]
    rfl

/-- The table of the server after a sequence of calls. -/
lemma server_replay (t : T) (calls : List (StoreCall H)) :
    O.server (O.replay t calls) = (O.server t).storeAll (serverStores calls) := by
  refine O.table_replay rfl (fun t call calls => ?_) t calls
  cases call with
  | client opcode entry =>
    rw [O.server_client]
    rfl
  | server opcode entry =>
    rw [O.server_server]
    rfl

/-- **The table of the client** holds the entry stored last under an id. -/
theorem find_client_replay {t : T} (ht : O.client t = []) (calls : List (StoreCall H)) (id : ℕ) :
    (O.client (O.replay t calls)).find id = lastAssigned id (clientStores calls) := by
  rw [client_replay, StdMap.find_storeAll, ht]
  exact Option.or_none

/-- **The table of the server** holds the entry stored last under an id. -/
theorem find_server_replay {t : T} (ht : O.server t = []) (calls : List (StoreCall H)) (id : ℕ) :
    (O.server (O.replay t calls)).find id = lastAssigned id (serverStores calls) := by
  rw [server_replay, StdMap.find_storeAll, ht]
  exact Option.or_none

/-- **The ids for which the lookups agree**, in a class that finds both kinds of packets in the
table of the client: those under which the entry stored last for the client is the one that was
stored last for the server, or the empty one if there was none. -/
theorem lookupsAgree_iff {t : T} (ht : O.client t = []) (empty : H) (calls : List (StoreCall H))
    (id : ℕ) :
    LookupsAgree empty (fun id => ((O.client (O.replay t calls)).find id).getD empty)
        (fun id => (O.client (O.replay t calls)).find id) calls id ↔
      lastAssigned id (clientStores calls) =
        some ((lastAssigned id (serverStores calls)).getD empty) := by
  rw [LookupsAgree, O.find_client_replay ht]
  exact and_iff_right rfl

/-- In such a class, storing for the client leaves what is found under an id as it was when it is
for another id, or when the entry is already there. -/
lemma find_client_store_client_iff (t : T) (opcode id : ℕ) (entry : H) :
    (O.client (O.store t (.client opcode entry))).find id = (O.client t).find id ↔
      id ≠ opcode ∨ (O.client t).find id = some entry := by
  rw [O.client_client, StdMap.find_store]
  by_cases hid : id = opcode
  · rw [if_pos hid, eq_comm]
    exact ⟨Or.inr, fun h => h.resolve_left fun hne => hne hid⟩
  · rw [if_neg hid]
    exact iff_of_true rfl (Or.inl hid)

end OpcodeTables

end SteerStone
