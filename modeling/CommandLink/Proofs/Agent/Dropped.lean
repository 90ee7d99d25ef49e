import CommandLink.Proofs.Agent.Sessions
/-!
# Invocations that are dropped

When the listener that took a request is shut down, the request is dropped wherever it stands, while
the agent and its pool live on. A session that it holds then is one that nobody gives back.

Results:
* `midway_cases`: while a connector is at work, the pool is as before the turn or as after it.
* `kept_drop`, `kept_cut`: what is lost with an invocation that is dropped.
* `dropped_balance`: a program has as many users as there are invocations that hold its session, and
  as many again as sessions of it were lost.
-/
namespace CommandLink

namespace Invocation
variable {tool : ToolConfig} {s : AgentState} {i : Invocation} {pool : VmPool}

/-- The program whose session an invocation holds. -/
def held? : Invocation → Option Nat
  | running order _ | returning order _ => some order.pid
  | waiting _ | ended _ => none

/-- What an invocation wants of the pool. -/
def call? : Invocation → Option (PoolCall Nat)
  | waiting order => some (.acquire order.pid)
  | returning order _ => some (.release order.pid)
  | running .. | ended _ => none

/-- The pool after an invocation has gone away in the middle of its turn, that is, while the connector
looks for the program or is about to let go of it. -/
def midway? (i : Invocation) (pool : VmPool) : Option VmPool :=
  match i.call? with
  | none => none
  | some call =>
    let (t, _) := PoolTurns.turn Text.decimal ⟨pool, [(0, call)], .free⟩
    match t.phase with
    | .free => none
    | .connecting .. | .disconnecting .. => some (t.abandon 0).pool

theorem count_held (i : Invocation) (pid : Nat) : i.held?.toList.count pid = (i.holds pid).toNat := by
  have hone (held : Nat) : [held].count pid = (held == pid).toNat := by
    rw [List.count_singleton]
    cases held == pid <;> rfl
  cases i with
  | waiting order => rfl
  | running order session => exact hone order.pid
  | returning order outcome => exact hone order.pid
  | ended reply => rfl

/-- While the connector looks for a program, the pool is as it was before; while it lets go of one, the
pool is as it will be when the session has been given back. -/
theorem midway_cases (h : i.midway? s.pool = some pool) :
    (∃ order, i = waiting order ∧ pool = s.pool)
    ∨ ∃ order outcome, i = returning order outcome
      ∧ giveBack order s = (.ok (), pool, s.machine) := by
  cases i with
  | waiting order =>
    refine .inl ⟨order, rfl, ?_⟩
    unfold midway? call? PoolTurns.turn at h
    dsimp only at h
    cases hfind : s.pool.find? order.pid with
    | some stored =>
      rw [hfind] at h
      cases h
    | none =>
      rw [hfind] at h
      exact (Option.some.inj h).symm
  | returning order outcome =>
    refine .inr ⟨order, outcome, rfl, ?_⟩
    unfold midway? call? PoolTurns.turn at h
    dsimp only at h
    unfold giveBack Pool.release
    rcases hleave : s.pool.leave order.pid with _ | ⟨_ | session, left⟩
    · rw [hleave] at h
      cases h
    · rw [hleave] at h
      cases h
    · rw [hleave] at h
      cases h
      rfl
  | running order session => cases h
  | ended reply => cases h

end Invocation

namespace Crew
variable {tool : ToolConfig} {w : Crew} {lost : List Nat} {front back : List (Request × Invocation)}
  {r : Request} {i : Invocation} {s : AgentState} {pool : VmPool}

/-- What can become of invocations any of which may be dropped: while it waits for the pool, while the
tool runs, or in the middle of its turn at the pool. With it the sessions that were lost. -/
inductive Interrupted (tool : ToolConfig) : Crew → List Nat → Prop
  | start (machine : Machine) : Interrupted tool (start machine) []
  | step {w w' : Crew} {lost : List Nat} (before : Interrupted tool w lost) (next : Step tool w w') :
      Interrupted tool w' lost
  | drop {s : AgentState} {lost : List Nat} (front : List (Request × Invocation)) (r : Request)
      (i : Invocation) (back : List (Request × Invocation))
      (before : Interrupted tool ⟨front ++ (r, i) :: back, s⟩ lost) :
      Interrupted tool ⟨front ++ back, i.dropped s⟩ (lost ++ i.held?.toList)
  | cut {s : AgentState} {lost : List Nat} (front : List (Request × Invocation)) (r : Request)
      (i : Invocation) (back : List (Request × Invocation))
      (before : Interrupted tool ⟨front ++ (r, i) :: back, s⟩ lost) {pool : VmPool}
      (midway : i.midway? s.pool = some pool) :
      Interrupted tool ⟨front ++ back, { s with pool := pool }⟩ lost

/-- A session that a dropped invocation held is lost. -/
theorem kept_drop (h : Kept tool ⟨front ++ (r, i) :: back, s⟩ lost) :
    Kept tool ⟨front ++ back, i.dropped s⟩ (lost ++ i.held?.toList) := by
  refine ⟨fun pid => ?_, h.genuine, fun {r' i'} hm => h.aimed (mem_split_of hm)⟩
  have hbalance := h.balance pid
  rw [holders_split] at hbalance
  rw [List.count_append, Invocation.count_held]
  have hothers : holders ⟨front ++ back, i.dropped s⟩ pid = holders ⟨front ++ back, s⟩ pid := rfl
  have hpool : (i.dropped s).pool = s.pool := Invocation.dropped_pool i s
  dsimp only at hbalance ⊢
  rw [hpool]
  omega

/-- Nothing is lost with an invocation that is dropped in the middle of its turn at the pool. -/
theorem kept_cut (h : Kept tool ⟨front ++ (r, i) :: back, s⟩ lost)
    (midway : i.midway? s.pool = some pool) :
    Kept tool ⟨front ++ back, { s with pool := pool }⟩ lost := by
  rcases Invocation.midway_cases midway with ⟨order, rfl, rfl⟩ | ⟨order, outcome, rfl, hgive⟩
  · have hdrop := kept_drop h
    rw [show (Invocation.waiting order).held?.toList = [] from rfl, List.append_nil] at hdrop
    exact hdrop
  · -- as if the invocation had ended and was dropped then
    have hended := kept_step h (.act front r (.returning order outcome) back)
    have hstep : Invocation.step tool (.returning order outcome) s
        = (.ended (Invocation.reply order outcome), { s with pool := pool }) := by
      show Invocation.release order outcome s = _
      unfold Invocation.release
      rw [hgive]
    rw [hstep] at hended
    have hdrop := kept_drop hended
    rw [show (Invocation.ended _).held?.toList = [] from rfl, List.append_nil] at hdrop
    exact hdrop

theorem kept_interrupted (h : Interrupted tool w lost) : Kept tool w lost := by
  induction h with
  | start machine => exact kept_start tool machine
  | step _ next ih => exact kept_step ih next
  | drop _ _ _ _ _ ih => exact kept_drop ih
  | cut _ _ _ _ _ midway ih => exact kept_cut ih midway

/-! ## What is left of those that were dropped -/

/-- Whom a session is handed out to when nobody holds one: the program must be there, unless the pool
still has a session of it. -/
theorem acquire_unheld (h : Kept tool w lost) {order : ToolOrder} (hnone : w.holders order.pid = 0)
    (machine : Machine) :
    ((Invocation.acquire tool order ⟨machine, w.agent.pool⟩).1 = .running order ⟨order.pid, tool⟩
      ↔ order.pid ∈ lost ∨ (machine.isAlive order.pid).1 = true)
    ∧ (Invocation.acquire tool order ⟨machine, w.agent.pool⟩).2.machine
      = if order.pid ∈ lost then machine else (machine.isAlive order.pid).2 := by
  have hbalance := h.balance order.pid
  rw [hnone, Nat.zero_add] at hbalance
  unfold Invocation.acquire Pool.acquire
  by_cases hlost : order.pid ∈ lost
  · have hcount : 0 < lost.count order.pid := List.count_pos_iff.2 hlost
    cases hfind : w.agent.pool.find? order.pid with
    | none =>
      have := Pool.usage_eq_zero_iff.2 hfind
      omega
    | some stored =>
      have hsession := h.genuine order.pid _ (Pool.connection?_of_find? hfind)
      simp [hlost, hsession]
  · have hcount : lost.count order.pid = 0 := List.count_eq_zero.2 hlost
    have hfind : w.agent.pool.find? order.pid = none := by
      rw [← Pool.usage_eq_zero_iff]
      omega
    unfold VmSession.attach
    rcases halive : machine.isAlive order.pid with ⟨alive, asked⟩
    cases alive <;> simp [hfind, hlost]

/-- Of invocations any of which may be dropped: a program has as many users as there are invocations
that hold its session, and as many again as were dropped while they held it. Who is dropped before it has
a session, while the connector looks for the program or while it lets go of it, leaves the others as the
only users; who is dropped while the tool runs, or before the pool takes the session back, leaves one
user too many. The program is looked for again, once nobody holds its session, unless one was lost. -/
theorem dropped_balance (h : w.Interrupted tool lost) :
    (∀ pid, w.agent.pool.usage pid = w.holders pid + lost.count pid)
    ∧ (∀ front r i back s, w = ⟨front ++ (r, i) :: back, s⟩ →
      (∀ pool, i.midway? s.pool = some pool →
        ∀ pid, pool.usage pid = holders ⟨front ++ back, s⟩ pid + lost.count pid)
      ∧ ∀ pid, (i.dropped s).pool.usage pid
        = holders ⟨front ++ back, s⟩ pid + lost.count pid + (i.holds pid).toNat)
    ∧ ∀ order machine, w.holders order.pid = 0 →
      ((Invocation.acquire tool order ⟨machine, w.agent.pool⟩).1 = .running order ⟨order.pid, tool⟩
        ↔ order.pid ∈ lost ∨ (machine.isAlive order.pid).1 = true)
      ∧ (Invocation.acquire tool order ⟨machine, w.agent.pool⟩).2.machine
        = if order.pid ∈ lost then machine else (machine.isAlive order.pid).2 := by
  have hkept := kept_interrupted h
  refine ⟨hkept.balance, fun front r i back s hw => ?_,
    fun order machine hnone => acquire_unheld hkept hnone machine⟩
  subst hw
  constructor
  · intro pool midway pid
    exact (kept_cut hkept midway).balance pid
  · intro pid
    have hdrop := (kept_drop hkept).balance pid
    rw [List.count_append, Invocation.count_held, ← Nat.add_assoc] at hdrop
    exact hdrop

/-- A machine on which no program runs. -/
def deserted : Machine := { lively with signalled := fun _ => .noSuchPid }

/-- Three requests for one program. The first is dropped while the connector looks for the program, the
second when its run is over and the connector lets go of the program, the third while the tool runs. -/
theorem dropped_balance_thrice : ∃ (w : Crew) (lost : List Nat),
    w.Interrupted .standard lost ∧ w.members = [] ∧ lost = [7] ∧ w.agent.pool.usage 7 = 1 := by
  have garbage := Builtin.garbageErrand_mem .standard
  have hfirst := Interrupted.cut [] _ _ [] ((Interrupted.start lively).step
    (.come _ (aimedAt 7) garbage)) rfl
  have hrunning := (hfirst.step (.come _ (aimedAt 7) garbage)).step (.act [] _ _ [])
  have hsecond := Interrupted.cut [] _ _ [] (hrunning.step
    (.report [] _ _ _ [] (.ok ⟨some 0, "collected", ""⟩))) rfl
  have hthird := Interrupted.drop [] _ _ [] ((hsecond.step (.come _ (aimedAt 7) garbage)).step
    (.act [] _ _ []))
  obtain ⟨hbalance, -⟩ := dropped_balance hthird
  exact ⟨_, _, hthird, rfl, by decide +kernel, (hbalance 7).trans (by decide +kernel)⟩

/-- A run of the tool is dropped. Nobody is left, and yet the program has a user; when it is gone, its
session is still handed out. -/
theorem dropped_run_is_lost : ∃ (w : Crew) (lost : List Nat),
    w.Interrupted .standard lost ∧ w.holders 7 = 0 ∧ w.agent.pool.usage 7 = 1
    ∧ (deserted.isAlive 7).1 = false
    ∧ (Invocation.acquire .standard ⟨7, ["GC.run"], none⟩ ⟨deserted, w.agent.pool⟩).1
      = .running ⟨7, ["GC.run"], none⟩ ⟨7, .standard⟩ := by
  have hcome := (Interrupted.start lively).step
    (.come _ (aimedAt 7) (Builtin.garbageErrand_mem .standard))
  have hdropped := Interrupted.drop [] _ _ [] (hcome.step (.act [] _ _ []))
  exact ⟨_, _, hdropped, rfl, by decide +kernel, by decide +kernel, rfl⟩

end Crew
end CommandLink
