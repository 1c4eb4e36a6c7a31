import PristonTale.Auth.AuthSocket
import PristonTale.Auth.SendBound
import PristonTale.Foundations.Transition

set_option relaxedAutoImplicit false
set_option autoImplicit false

/-!
# Keep-alive

One `AuthSocket` over the packets it dispatches, with its member `p_PingDiff` and the server time
at each packet. The header of the class calls `p_PingDiff` the last time the server heard from the
client, but it is assigned in the constructor only: `HandlePing` compares the age of the socket, not
the time since the last ping, with `PongTimer`.

## Main definitions

* `SteerStone.KeepAlive` — the member, and when the last ping came.
* `SteerStone.keepAliveSystem` — the packets dispatched, one step for each.
* `SteerStone.ClosesOnlyLate` — what the time since the last ping is when a ping closes the socket.

## Main results

* `SteerStone.closes_iff` — when a ping closes the socket.
* `SteerStone.keep_alive_iff` — pings close the socket for being late only, exactly when none that
  comes in time is answered after the socket is older than `PongTimer`.
-/

namespace SteerStone

open Foundations

/-- An `AuthSocket`, as far as `HandlePing` is concerned. -/
structure KeepAlive where
  /-- `p_PingDiff`. -/
  pingDiff : UInt32
  /-- The server time when `HandlePing` was last called, or when the socket was constructed. -/
  lastPing : UInt32
  /-- Whether no handler has closed the socket. -/
  isOpen : Bool
  deriving DecidableEq, Repr

/-- The constructor of `AuthSocket`, at the server time given. -/
def KeepAlive.new (serverTime : UInt32) : KeepAlive := ⟨serverTime, serverTime, true⟩

/-- A packet that is dispatched. -/
structure Arrival where
  /-- The packet. -/
  packet : List UInt8
  /-- What its handler depends on besides; `p_PingDiff` and `PongTimer` are those of the socket. -/
  env : Environment

namespace Arrival

/-- The handler that is selected. -/
def handler (a : Arrival) : Handler :=
  (Opcodes.initializePackets.getClientPacket (packetHeader a.packet)).handler

/-- The environment of the handler. -/
def environment (a : Arrival) (pongTimer : UInt32) (s : KeepAlive) : Environment :=
  { a.env with pongTimer := pongTimer, pingDiff := s.pingDiff }

/-- The handler calls `CloseSocket`. -/
def Closes (a : Arrival) (pongTimer : UInt32) (s : KeepAlive) : Prop :=
  Event.closeSocket ∈ (executePacket (a.environment pongTimer s) a.handler a.packet).events 0

instance (a : Arrival) (pongTimer : UInt32) (s : KeepAlive) :
    Decidable (a.Closes pongTimer s) := inferInstanceAs (Decidable (_ ∈ _))

/-- The time since the last ping. -/
def sinceLastPing (a : Arrival) (s : KeepAlive) : ℕ :=
  a.env.serverTime.toNat - s.lastPing.toNat

end Arrival

/-- The packets an open socket dispatches, with a server time that does not wrap. No handler
assigns `p_PingDiff`. -/
def keepAliveSystem (pongTimer : UInt32) : Transition KeepAlive Arrival where
  step s a :=
    if s.isOpen ∧ s.lastPing ≤ a.env.serverTime then
      some { s with
        lastPing := if a.handler = .handlePing then a.env.serverTime else s.lastPing
        isOpen := ¬ a.Closes pongTimer s }
    else none

variable (pongTimer : UInt32)

/-- A ping closes the socket only when more than `PongTimer` has passed since the last one. -/
def ClosesOnlyLate (s : KeepAlive) (a : Arrival) : Prop :=
  a.handler = .handlePing → a.Closes pongTimer s → pongTimer.toNat < a.sinceLastPing s

/-- A ping comes in time: at most `PongTimer` after the last one. -/
def InTime (s : KeepAlive) (a : Arrival) : Prop :=
  a.handler = .handlePing → a.sinceLastPing s ≤ pongTimer.toNat

/-- A ping does not close the socket. -/
def StaysOpen (s : KeepAlive) (a : Arrival) : Prop :=
  a.handler = .handlePing → ¬ a.Closes pongTimer s

/-- A ping comes at most `PongTimer` after `constructed`, unless `HandlePing` takes no notice of
it. -/
def YoungSocket (constructed : UInt32) (a : Arrival) : Prop :=
  a.handler = .handlePing → a.env.packetAddress % 65536 = 16 →
    a.env.serverTime.toNat - constructed.toNat ≤ pongTimer.toNat

instance (s : KeepAlive) (a : Arrival) : Decidable (InTime pongTimer s a) :=
  inferInstanceAs (Decidable (_ → _))

instance (constructed : UInt32) (a : Arrival) : Decidable (YoungSocket pongTimer constructed a) :=
  inferInstanceAs (Decidable (_ → _ → _))

/-! ## One ping -/

/-- **When a ping closes the socket**: when `HandlePing` takes notice of it, and more than
`PongTimer` has passed since `p_PingDiff`. -/
theorem closes_iff {s : KeepAlive} {a : Arrival} (hping : a.handler = .handlePing)
    (htime : s.pingDiff ≤ a.env.serverTime) :
    a.Closes pongTimer s ↔ a.env.packetAddress % 65536 = 16 ∧
      pongTimer.toNat < a.env.serverTime.toNat - s.pingDiff.toNat := by
  have hsub : (a.env.serverTime - s.pingDiff).toNat =
      a.env.serverTime.toNat - s.pingDiff.toNat := UInt32.toNat_sub_of_le _ _ htime
  unfold Arrival.Closes
  rw [hping, executePacket, mem_events_handlePing]
  simp only [Arrival.environment, UInt32.lt_iff_toNat_lt, hsub, reduceCtorEq, and_false, or_false,
    and_true]

/-! ## Runs -/

/-- `p_PingDiff` is the server time of the constructor, and no ping came before that. -/
def SinceConstruction (constructed : UInt32) (s : KeepAlive) : Prop :=
  s.pingDiff = constructed ∧ constructed ≤ s.lastPing

variable {pongTimer}

/-- What a step is. -/
lemma keepAliveSystem_step {s s' : KeepAlive} {a : Arrival}
    (h : (keepAliveSystem pongTimer).step s a = some s') :
    s.lastPing ≤ a.env.serverTime ∧ s'.pingDiff = s.pingDiff ∧ s.lastPing ≤ s'.lastPing := by
  simp only [keepAliveSystem] at h
  by_cases hstep : s.isOpen = true ∧ s.lastPing ≤ a.env.serverTime
  · rw [if_pos hstep] at h
    obtain rfl := Option.some.inj h
    refine ⟨hstep.2, rfl, ?_⟩
    dsimp only
    split_ifs
    · exact hstep.2
    · exact UInt32.le_refl _
  · simp [hstep] at h

/-- No step assigns `p_PingDiff`. -/
lemma sinceConstruction_step {constructed : UInt32} (s : KeepAlive) (a : Arrival) (s' : KeepAlive)
    (hI : SinceConstruction constructed s)
    (h : (keepAliveSystem pongTimer).step s a = some s') : SinceConstruction constructed s' := by
  obtain ⟨-, hdiff, hlast⟩ := keepAliveSystem_step h
  exact ⟨hdiff.trans hI.1, UInt32.le_trans hI.2 hlast⟩

/-- A ping closes the socket according to its age. -/
lemma closes_iff_of_step {constructed : UInt32} {s s' : KeepAlive} {a : Arrival}
    (hI : SinceConstruction constructed s) (h : (keepAliveSystem pongTimer).step s a = some s')
    (hping : a.handler = .handlePing) :
    a.Closes pongTimer s ↔ a.env.packetAddress % 65536 = 16 ∧
      pongTimer.toNat < a.env.serverTime.toNat - constructed.toNat := by
  obtain ⟨htime, -, -⟩ := keepAliveSystem_step h
  have hle : s.pingDiff ≤ a.env.serverTime := by
    rw [hI.1]
    exact UInt32.le_trans hI.2 htime
  rw [closes_iff pongTimer hping hle, hI.1]

/-- **Keep-alive, exactly.** For every `PongTimer` and every run of the packets of one socket:
pings close it only when more than `PongTimer` has passed since the last one, if and only if every
ping that `HandlePing` takes notice of comes at most `PongTimer` after the construction of the
socket, or more than that after the last one. If all pings come in time, none closes it if and only
if every ping that `HandlePing` takes notice of comes at most `PongTimer` after the construction.

**Proof sketch.** `p_PingDiff` stays what the constructor made it (`sinceConstruction_step`), so a
ping closes the socket according to its age (`closes_iff`); the conditions agree step by step. -/
theorem keep_alive_iff (pongTimer constructed : UInt32) (as : List Arrival) (t : KeepAlive)
    (h : (keepAliveSystem pongTimer).run (.new constructed) as = some t) :
    ((keepAliveSystem pongTimer).Along (ClosesOnlyLate pongTimer) (.new constructed) as ↔
      (keepAliveSystem pongTimer).Along
        (fun s a => InTime pongTimer s a → YoungSocket pongTimer constructed a)
        (.new constructed) as) ∧
    ((keepAliveSystem pongTimer).Along (InTime pongTimer) (.new constructed) as →
      ((keepAliveSystem pongTimer).Along (StaysOpen pongTimer) (.new constructed) as ↔
        (keepAliveSystem pongTimer).Along (fun _ a => YoungSocket pongTimer constructed a)
          (.new constructed) as)) := by
  have hnew : SinceConstruction constructed (.new constructed) := ⟨rfl, UInt32.le_refl _⟩
  constructor
  · apply (keepAliveSystem pongTimer).along_congr (D := fun _ _ => True) sinceConstruction_step _ h
      hnew ((keepAliveSystem pongTimer).along_true _ as)
    intro s a s' hI _ hstep
    unfold ClosesOnlyLate InTime YoungSocket
    by_cases hping : a.handler = .handlePing
    · simp only [hping, forall_const, closes_iff_of_step hI hstep hping]
      omega
    · simp [hping]
  · intro htimely
    apply (keepAliveSystem pongTimer).along_congr sinceConstruction_step _ h hnew htimely
    intro s a s' hI _ hstep
    unfold StaysOpen YoungSocket
    by_cases hping : a.handler = .handlePing
    · simp only [hping, forall_const, closes_iff_of_step hI hstep hping]
      omega
    · simp [hping]

/-- A ping at the server time given, at an address that `HandlePing` takes notice of. -/
def pingAt (serverTime : UInt32) : Arrival where
  packet := [16, 0, 0, 0, 7, 0, 0x5A, 0x43]
  env := { Environment.blank with packetAddress := 16, serverTime := serverTime }

/-- Its header selects `HandlePing`. -/
lemma handler_pingAt (serverTime : UInt32) : (pingAt serverTime).handler = .handlePing := by
  have hheader : packetHeader (pingAt serverTime).packet = ClientPacketHeader.ping.value := by
    show packetHeader [16, 0, 0, 0, 7, 0, 0x5A, 0x43] = _
    decide
  rw [Arrival.handler, hheader, Opcodes.handler_getClientPacket, if_pos rfl]

/-- Two pings come within `PongTimer` of the construction, and a third too late: it closes the
socket, and none of the others does. -/
theorem keep_alive_late : ∃ t,
    (keepAliveSystem 30000).run (.new 0) [pingAt 10000, pingAt 25000, pingAt 60000] = some t ∧
      t.isOpen = false ∧
      (keepAliveSystem 30000).Along (ClosesOnlyLate 30000) (.new 0)
        [pingAt 10000, pingAt 25000, pingAt 60000] := by
  obtain ⟨t, hrun, hclosed⟩ := (keepAliveSystem 30000).exists_run_of_any
    (fun t => t.isOpen = false) (.new 0) [pingAt 10000, pingAt 25000, pingAt 60000]
    (by decide +kernel)
  exact ⟨t, hrun, hclosed, (keep_alive_iff 30000 0 _ t hrun).1.mpr (by decide +kernel)⟩

/-- A ping every 20 seconds: the second one closes the socket, which is then older than
`PongTimer`. -/
theorem keep_alive_fails : ∃ t,
    (keepAliveSystem 30000).run (.new 0) [pingAt 20000, pingAt 40000] = some t ∧
      (keepAliveSystem 30000).Along (InTime 30000) (.new 0) [pingAt 20000, pingAt 40000] ∧
      ¬ (keepAliveSystem 30000).Along (StaysOpen 30000) (.new 0)
        [pingAt 20000, pingAt 40000] := by
  have hfirst : (keepAliveSystem 30000).step (.new 0) (pingAt 20000) =
      some ⟨0, 20000, true⟩ := by
    have hopen : ¬ (pingAt 20000).Closes 30000 (.new 0) := by
      rw [closes_iff 30000 (handler_pingAt _) (by decide)]
      decide
    have hguard : (KeepAlive.new 0).isOpen = true ∧
        (KeepAlive.new 0).lastPing ≤ (pingAt 20000).env.serverTime := by decide
    simp only [keepAliveSystem, if_pos hguard, handler_pingAt, hopen]
    rfl
  have hsecond : (pingAt 40000).Closes 30000 ⟨0, 20000, true⟩ := by
    rw [closes_iff 30000 (handler_pingAt _) (by decide)]
    decide
  refine ⟨⟨0, 40000, false⟩, ?_, ⟨?_, ?_⟩, ?_⟩
  · rw [Transition.run_cons_of_step _ _ hfirst]
    simp only [Transition.run, keepAliveSystem, handler_pingAt, hsecond]
    rfl
  · intro _
    decide
  · intro s' hs'
    obtain rfl := Option.some.inj (hfirst.symm.trans hs')
    refine ⟨?_, fun _ _ => trivial⟩
    intro _
    decide
  · intro hall
    exact (hall.2 _ hfirst).1 (handler_pingAt _) hsecond

end SteerStone
