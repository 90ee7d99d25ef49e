import CommandLink.Agent.Builtin
import CommandLink.Proofs.Pool.Lifecycle
/-!
# Sessions of the tool

Any number of requests run the tool at the same time and share one pool of sessions. Each of them
takes its steps when it is its turn, the tool may come to anything, and the machine goes on meanwhile.

Results:
* `stepped`: all that a step of an invocation can do.
* `kept_step`: no step upsets the account of the sessions, of which some may be lost already.
* `running_gives_back`: an invocation that holds a session runs the tool through it and can give it
  back, whatever the run comes to.
* `reachable_complete`: an undisturbed invocation takes such steps too.
* `usage_withTool`: a request that runs undisturbed leaves the users of every program as they were.
* `sessions_balance`: a program has as many users as there are invocations that hold its session, and
  when all have ended nothing is left in the pool.
-/
namespace CommandLink

namespace VmSession

theorem attach_ok {tool : ToolConfig} {pid : Nat} {m : Machine} {session : VmSession}
    (h : (attach tool pid m).1 = .ok session) : session = ⟨pid, tool⟩ := by
  unfold attach at h
  split at h
  · exact (Except.ok.inj h).symm
  · cases h

/-- A run starts the tool for the program of the session, whatever comes of it then. -/
theorem machine_run (session : VmSession) (arguments : List String) (m : Machine) :
    (session.run arguments m).2
      = (m.start session.tool.command (Text.decimal session.pid :: arguments)).2 := by
  unfold run
  split
  · next hstart => rw [hstart]
  · next hstart =>
    rw [hstart]
    split <;> rfl

end VmSession

namespace Builtin

theorem garbageErrand_mem (tool : ToolConfig) : garbageErrand ∈ errands tool :=
  List.mem_cons_self

theorem dumpErrand_mem (tool : ToolConfig) : dumpErrand tool ∈ errands tool :=
  List.mem_cons_of_mem _ List.mem_cons_self

theorem pid_of_mem_errands {tool : ToolConfig} {errand : Errand} (h : errand ∈ errands tool)
    (pid : Nat) (s : AgentState) : (errand pid s).pid = pid := by
  unfold errands at h
  rw [List.mem_cons, List.mem_singleton] at h
  cases h with
  | inl h =>
    rw [h]
    rfl
  | inr h =>
    rw [h]
    rfl

end Builtin

namespace Invocation
variable {tool : ToolConfig} {s s' : AgentState} {i i' : Invocation} {r : Request}

/-! ## What a step of an invocation does -/

/-- All that a step of an invocation can do. -/
inductive Stepped (tool : ToolConfig) (s : AgentState) : Invocation → Invocation → AgentState → Prop
  | acquired {order : ToolOrder} {session : VmSession} {pool : VmPool} {machine : Machine}
      (h : s.pool.acquire (VmSession.attach tool) Text.decimal order.pid s.machine
        = (.ok session, pool, machine)) :
      Stepped tool s (.waiting order) (.running order session) ⟨machine, pool⟩
  | absent {order : ToolOrder} {e : PoolError} {pool : VmPool} {machine : Machine}
      (h : s.pool.acquire (VmSession.attach tool) Text.decimal order.pid s.machine
        = (.error e, pool, machine)) :
      Stepped tool s (.waiting order)
        (.ended (.response (.nok ("no VM with pid " ++ Text.decimal order.pid)))) ⟨machine, pool⟩
  | finished {order : ToolOrder} {session : VmSession}
      {outcome : Except (List String) ToolOutput} {machine : Machine}
      (h : session.run order.arguments s.machine = (some outcome, machine)) :
      Stepped tool s (.running order session) (.returning order outcome) { s with machine := machine }
  | unfinished {order : ToolOrder} {session : VmSession} {machine : Machine}
      (h : session.run order.arguments s.machine = (none, machine)) :
      Stepped tool s (.running order session) (.running order session) { s with machine := machine }
  | released {order : ToolOrder} {outcome : Except (List String) ToolOutput}
      {given : Except PoolError Unit} {pool : VmPool} {machine : Machine}
      (h : giveBack order s = (given, pool, machine)) :
      Stepped tool s (.returning order outcome) (.ended (reply order outcome)) ⟨machine, pool⟩
  | past (reply : Reply) : Stepped tool s (.ended reply) (.ended reply) s

theorem stepped (tool : ToolConfig) (i : Invocation) (s : AgentState) :
    Stepped tool s i (i.step tool s).1 (i.step tool s).2 := by
  cases i with
  | waiting order =>
    rw [show step tool (waiting order) s = acquire tool order s from rfl, acquire]
    rcases h : s.pool.acquire (VmSession.attach tool) Text.decimal order.pid s.machine
      with ⟨_ | session, pool, machine⟩
    · exact .absent h
    · exact .acquired h
  | running order session =>
    rw [show step tool (running order session) s = runTool order session s from rfl, runTool]
    rcases h : session.run order.arguments s.machine with ⟨_ | outcome, machine⟩
    · exact .unfinished h
    · exact .finished h
  | returning order outcome =>
    rw [show step tool (returning order outcome) s = release order outcome s from rfl, release]
    rcases h : giveBack order s with ⟨given, pool, machine⟩
    exact .released h
  | ended reply => exact .past reply

/-- Who holds a session starts the tool through it, and goes on once the run has come to something. -/
theorem step_running (tool : ToolConfig) (order : ToolOrder) (session : VmSession) (s : AgentState) :
    (running order session).step tool s
      = ((session.run order.arguments s.machine).1.elim (running order session) (returning order),
        { s with machine :=
          (s.machine.start session.tool.command (Text.decimal session.pid :: order.arguments)).2 }) := by
  rw [← VmSession.machine_run, show step tool (running order session) s = runTool order session s from rfl,
    runTool]
  rcases session.run order.arguments s.machine with ⟨_ | outcome, machine⟩
  · rfl
  · rfl

/-- A session that is held is given back to a pool that knows of it. -/
theorem giveBack_ok {order : ToolOrder} (h : 0 < s.pool.usage order.pid) :
    (giveBack order s).1 = .ok () := by
  rcases hgive : giveBack order s with ⟨given, pool, machine⟩
  obtain ⟨hfails, herror, -⟩ := Pool.release_spec hgive
  cases given with
  | ok u => rfl
  | error e =>
    obtain ⟨rfl, -⟩ := herror e rfl
    have := hfails.1 rfl
    omega

/-- Nothing is done to the machine for it. -/
theorem giveBack_machine {order : ToolOrder} {given : Except PoolError Unit} {pool : VmPool}
    {machine : Machine} (h : giveBack order s = (given, pool, machine)) : machine = s.machine := by
  unfold giveBack Pool.release at h
  split at h <;> cases h <;> rfl

/-- A step changes the users of a program by as much as it changes who holds its session. -/
theorem Stepped.usage (h : Stepped tool s i i' s')
    (used : ∀ pid, i.holds pid = true → 0 < s.pool.usage pid) (pid : Nat) :
    s'.pool.usage pid + (i.holds pid).toNat = s.pool.usage pid + (i'.holds pid).toNat := by
  cases h with
  | acquired h => exact Pool.usage_acquired h pid
  | absent h =>
    obtain ⟨-, hfailed, -⟩ := Pool.acquire_spec h
    rw [hfailed _ rfl]
    rfl
  | finished h => rfl
  | unfinished h => rfl
  | @released order outcome given pool machine h =>
    have hok := giveBack_ok (used order.pid (beq_self_eq_true _))
    rw [h] at hok
    dsimp only at hok
    subst hok
    exact Pool.usage_released h pid
  | past reply => rfl

/-- A session is one of its own program, with the tool that is configured. -/
def Genuine (tool : ToolConfig) (pool : VmPool) : Prop :=
  ∀ pid session, pool.connection? pid = some session → session = ⟨pid, tool⟩

theorem Stepped.genuine (h : Stepped tool s i i' s') (hgenuine : Genuine tool s.pool) :
    Genuine tool s'.pool := by
  cases h with
  | @acquired order session pool machine h =>
    obtain ⟨hfrom, hstored⟩ := Pool.connection?_acquire h
    intro pid other hother
    rcases hstored pid other hother with hold | ⟨rfl, hnew⟩
    · exact hgenuine pid other hold
    · cases hnew
      rcases hfrom session rfl with hold | hattached
      · exact hgenuine _ _ hold
      · exact VmSession.attach_ok hattached
  | absent h =>
    obtain ⟨-, hfailed, -⟩ := Pool.acquire_spec h
    rw [hfailed _ rfl]
    exact hgenuine
  | finished h => exact hgenuine
  | unfinished h => exact hgenuine
  | released h => exact fun pid other hother => hgenuine pid other (Pool.connection?_release h hother)
  | past reply => exact hgenuine

/-- An invocation is aimed at the target of its request, and so is the session through which it runs
the tool. -/
def Aimed (tool : ToolConfig) (r : Request) : Invocation → Prop
  | waiting order | returning order _ => targetPid r = .ok order.pid
  | running order session => targetPid r = .ok order.pid ∧ session = ⟨order.pid, tool⟩
  | ended _ => True

theorem Stepped.aimed (h : Stepped tool s i i' s') (hgenuine : Genuine tool s.pool)
    (haimed : i.Aimed tool r) : i'.Aimed tool r := by
  cases h with
  | @acquired order session pool machine h =>
    refine ⟨haimed, ?_⟩
    rcases (Pool.connection?_acquire h).1 session rfl with hold | hattached
    · exact hgenuine _ _ hold
    · exact VmSession.attach_ok hattached
  | absent h => trivial
  | finished h => exact haimed.1
  | unfinished h => exact haimed
  | released h => trivial
  | past reply => trivial

theorem aimed_invocation {errand : Builtin.Errand} (h : errand ∈ Builtin.errands tool) (r : Request)
    (s : AgentState) : (Builtin.invocation errand r s).Aimed tool r := by
  unfold Builtin.invocation
  cases htarget : targetPid r with
  | error refusal => trivial
  | ok pid =>
    show targetPid r = .ok (errand pid s).pid
    rw [htarget, Builtin.pid_of_mem_errands h]

theorem not_holds_invocation (errand : Builtin.Errand) (r : Request) (s : AgentState) (pid : Nat) :
    (Builtin.invocation errand r s).holds pid = false := by
  unfold Builtin.invocation
  split <;> rfl

end Invocation

/-! ## Invocations that share a pool -/

/-- Requests that run the tool, each as far as it has come, and the agent whose pool they share. -/
structure Crew where
  members : List (Request × Invocation)
  agent : AgentState

namespace Crew
variable {tool : ToolConfig} {w w' : Crew} {lost : List Nat}

/-- Nobody runs the tool yet. -/
def start (machine : Machine) : Crew := ⟨[], ⟨machine, .empty⟩⟩

/-- How many invocations hold a session of a program. -/
def holders (w : Crew) (pid : Nat) : Nat := w.members.countP fun m => m.2.holds pid

/-- What can happen next: a request comes, an invocation takes its step, a run of the tool comes to
whatever it may, or something else happens to the machine. -/
inductive Step (tool : ToolConfig) : Crew → Crew → Prop
  | come (w : Crew) (r : Request) {errand : Builtin.Errand} (known : errand ∈ Builtin.errands tool) :
      Step tool w { w with members := w.members ++ [(r, Builtin.invocation errand r w.agent)] }
  | act {s : AgentState} (front : List (Request × Invocation)) (r : Request) (i : Invocation)
      (back : List (Request × Invocation)) :
      Step tool ⟨front ++ (r, i) :: back, s⟩
        ⟨front ++ (r, (i.step tool s).1) :: back, (i.step tool s).2⟩
  | report {s : AgentState} (front : List (Request × Invocation)) (r : Request) (order : ToolOrder)
      (session : VmSession) (back : List (Request × Invocation))
      (outcome : Except (List String) ToolOutput) :
      Step tool ⟨front ++ (r, .running order session) :: back, s⟩
        ⟨front ++ (r, .returning order outcome) :: back, s⟩
  | elsewhere (w : Crew) (machine : Machine) :
      Step tool w { w with agent := { w.agent with machine := machine } }

/-- What can become of invocations that all run to their ends. -/
inductive Reachable (tool : ToolConfig) : Crew → Prop
  | start (machine : Machine) : Reachable tool (start machine)
  | step {w w' : Crew} (before : Reachable tool w) (next : Step tool w w') : Reachable tool w'

/-- The account of the sessions, some of which nobody will ever give back. -/
structure Kept (tool : ToolConfig) (w : Crew) (lost : List Nat) : Prop where
  balance (pid : Nat) : w.agent.pool.usage pid = w.holders pid + lost.count pid
  genuine : Invocation.Genuine tool w.agent.pool
  aimed {r : Request} {i : Invocation} (h : (r, i) ∈ w.members) : i.Aimed tool r

theorem holders_split (front : List (Request × Invocation)) (r : Request) (i : Invocation)
    (back : List (Request × Invocation)) (s : AgentState) (pid : Nat) :
    holders ⟨front ++ (r, i) :: back, s⟩ pid
      = holders ⟨front ++ back, s⟩ pid + (i.holds pid).toNat := by
  unfold holders
  rw [List.countP_append, List.countP_append, List.countP_cons]
  cases i.holds pid
  · simp
  · simp
    omega

theorem mem_split {front back : List (Request × Invocation)} {m m' : Request × Invocation}
    (h : m ∈ front ++ m' :: back) : m = m' ∨ m ∈ front ++ back := by
  rw [List.mem_append, List.mem_cons] at h
  rw [List.mem_append]
  tauto

theorem mem_split_of {front back : List (Request × Invocation)} {m m' : Request × Invocation}
    (h : m ∈ front ++ back) : m ∈ front ++ m' :: back :=
  List.mem_append.2 ((List.mem_append.1 h).imp_right (List.mem_cons_of_mem _))

/-- Who holds a session uses its program. -/
theorem Kept.used {front : List (Request × Invocation)} {r : Request} {i : Invocation}
    {back : List (Request × Invocation)} {s : AgentState}
    (h : Kept tool ⟨front ++ (r, i) :: back, s⟩ lost) {pid : Nat} (hi : i.holds pid = true) :
    0 < s.pool.usage pid := by
  have hbalance := h.balance pid
  rw [holders_split, hi, Bool.toNat_true] at hbalance
  dsimp only at hbalance
  omega

theorem kept_start (tool : ToolConfig) (machine : Machine) : Kept tool (start machine) [] :=
  ⟨fun _ => rfl, fun _ _ => nofun, nofun⟩

/-- No step upsets the account of the sessions. -/
theorem kept_step (h : Kept tool w lost) (next : Step tool w w') : Kept tool w' lost := by
  cases next with
  | come _ r known =>
    refine ⟨fun pid => ?_, h.genuine, fun {r' i'} hm => ?_⟩
    · rw [h.balance pid]
      unfold holders
      simp [Invocation.not_holds_invocation]
    · rw [List.mem_append, List.mem_singleton] at hm
      cases hm with
      | inl hm => exact h.aimed hm
      | inr hm =>
        cases hm
        exact Invocation.aimed_invocation known r w.agent
  | @act s front r i back =>
    have hstepped := Invocation.stepped tool i s
    refine ⟨fun pid => ?_, hstepped.genuine h.genuine, fun {r' i'} hm => ?_⟩
    · have husage := hstepped.usage (fun pid hi => h.used hi) pid
      have hbalance := h.balance pid
      rw [holders_split] at hbalance ⊢
      have hothers : holders ⟨front ++ back, (i.step tool s).2⟩ pid
          = holders ⟨front ++ back, s⟩ pid := rfl
      dsimp only at hbalance ⊢
      omega
    · rcases mem_split hm with heq | hm
      · cases heq
        exact hstepped.aimed h.genuine (h.aimed (by simp))
      · exact h.aimed (mem_split_of hm)
  | @report s front r order session back outcome =>
    refine ⟨fun pid => ?_, h.genuine, fun {r' i'} hm => ?_⟩
    · have hbalance := h.balance pid
      rw [holders_split] at hbalance ⊢
      exact hbalance
    · rcases mem_split hm with heq | hm
      · cases heq
        have haimed : Invocation.Aimed tool r (.running order session) := h.aimed (by simp)
        exact haimed.1
      · exact h.aimed (mem_split_of hm)
  | elsewhere _ machine => exact ⟨h.balance, h.genuine, h.aimed⟩

theorem kept_reachable (h : w.Reachable tool) : Kept tool w [] := by
  induction h with
  | start machine => exact kept_start tool machine
  | step _ next ih => exact kept_step ih next

/-! ## What an invocation can go on with -/

section
variable {front back : List (Request × Invocation)} {r : Request} {order : ToolOrder}
  {session : VmSession} {s : AgentState}

/-- Whatever the run of the tool came to, the session can be given back, and then its program has one
user less. -/
theorem returning_gives_back {outcome : Except (List String) ToolOutput}
    (h : Reachable tool ⟨front ++ (r, .returning order outcome) :: back, s⟩) :
    ∃ pool, Invocation.giveBack order s = (.ok (), pool, s.machine)
      ∧ Reachable tool ⟨front ++ (r, .ended (Invocation.reply order outcome)) :: back, ⟨s.machine, pool⟩⟩
      ∧ ∀ pid, pool.usage pid + (order.pid == pid).toNat = s.pool.usage pid := by
  have hheld : (Invocation.returning order outcome).holds order.pid = true := beq_self_eq_true order.pid
  have hok := Invocation.giveBack_ok ((kept_reachable h).used hheld)
  have hended := h.step (.act front r _ back)
  rw [show Invocation.step tool (.returning order outcome) s = Invocation.release order outcome s from rfl,
    Invocation.release] at hended
  rcases hgive : Invocation.giveBack order s with ⟨given, pool, machine⟩
  rw [hgive] at hok hended
  dsimp only at hok hended
  obtain rfl := Invocation.giveBack_machine hgive
  subst hok
  exact ⟨pool, rfl, hended, Pool.usage_released hgive⟩

/-- An invocation that holds a session starts the tool for the program of its request, and waits for
what this run comes to. Whatever that is, the session can be given back. -/
theorem running_gives_back
    (h : Reachable tool ⟨front ++ (r, .running order session) :: back, s⟩) :
    (Invocation.running order session).step tool s
        = ((session.run order.arguments s.machine).1.elim (.running order session) (.returning order),
          { s with machine :=
            (s.machine.start tool.command (Text.decimal order.pid :: order.arguments)).2 })
    ∧ ∀ outcome, ∃ pool,
        Reachable tool ⟨front ++ (r, .ended (Invocation.reply order outcome)) :: back, ⟨s.machine, pool⟩⟩
        ∧ ∀ pid, pool.usage pid + (order.pid == pid).toNat = s.pool.usage pid := by
  have haimed : Invocation.Aimed tool r (.running order session) := (kept_reachable h).aimed (by simp)
  refine ⟨by rw [Invocation.step_running, haimed.2], fun outcome => ?_⟩
  obtain ⟨pool, -, hended, husage⟩ :=
    returning_gives_back (h.step (.report front r order session back outcome))
  exact ⟨pool, hended, husage⟩

end

/-! ## An undisturbed invocation -/

/-- An invocation that nobody disturbs takes the steps of an invocation among others. -/
theorem reachable_complete {front : List (Request × Invocation)} {r : Request} {i : Invocation}
    {back : List (Request × Invocation)} {s s' : AgentState} {reply : Reply}
    (h : Reachable tool ⟨front ++ (r, i) :: back, s⟩) (hreply : i.complete tool s = (reply, s'))
    (hends : reply ≠ .never) : Reachable tool ⟨front ++ (r, .ended reply) :: back, s'⟩ := by
  have hthird := ((h.step (.act front r i back)).step (.act front r _ back)).step
    (.act front r _ back)
  unfold Invocation.complete at hreply
  rcases hone : i.step tool s with ⟨i₁, s₁⟩
  rcases htwo : i₁.step tool s₁ with ⟨i₂, s₂⟩
  rcases hthree : i₂.step tool s₂ with ⟨i₃, s₃⟩
  rw [hone] at hreply hthird
  dsimp only at hreply hthird
  rw [htwo] at hreply hthird
  dsimp only at hreply hthird
  rw [hthree] at hthird
  cases i₂ with
  | running order session =>
    cases hreply
    exact absurd rfl hends
  | waiting _ | returning _ _ | ended _ =>
    dsimp only at hreply
    rw [hthree] at hreply
    cases i₃ with
    | ended last =>
      cases hreply
      exact hthird
    | waiting _ | running _ _ | returning _ _ =>
      cases hreply
      exact absurd rfl hends

/-- A request that runs the tool undisturbed leaves the users of every program as they were. -/
theorem usage_withTool (h : w.Reachable tool) {errand : Builtin.Errand}
    (known : errand ∈ Builtin.errands tool) {r : Request} {reply : Reply} {s' : AgentState}
    (hreply : Builtin.withTool tool errand r w.agent = (reply, s')) (hends : reply ≠ .never)
    (pid : Nat) : s'.pool.usage pid = w.agent.pool.usage pid := by
  have hended := kept_reachable (reachable_complete (h.step (.come w r known)) hreply hends)
  have hbefore := (kept_reachable h).balance pid
  have hafter := hended.balance pid
  rw [holders_split] at hafter
  have hothers : holders ⟨w.members ++ [], s'⟩ pid = w.holders pid := by
    unfold holders
    rw [List.append_nil]
  have hover : (Invocation.ended reply).holds pid = false := rfl
  rw [hothers, hover, Bool.toNat_false, Nat.add_zero] at hafter
  exact hafter.trans hbefore.symm

/-! ## The balance -/

/-- Whatever invocations come, in whatever order they take their steps and whatever their runs of the
tool come to: a program has as many users as there are invocations that hold its session. Every session
that is held can be given back; the tool runs through a session of the program that the request is aimed
at. When all have ended, the pool is empty. -/
theorem sessions_balance (h : w.Reachable tool) :
    (∀ pid, w.agent.pool.usage pid = w.holders pid)
    ∧ (∀ r order outcome, (r, .returning order outcome) ∈ w.members →
      (Invocation.giveBack order w.agent).1 = .ok ())
    ∧ (∀ r order session, (r, .running order session) ∈ w.members →
      targetPid r = .ok order.pid ∧ session = ⟨order.pid, tool⟩)
    ∧ ((∀ r i, (r, i) ∈ w.members → ∃ reply, i = .ended reply) → w.agent.pool.size = 0) := by
  have hkept := kept_reachable h
  have hbalance : ∀ pid, w.agent.pool.usage pid = w.holders pid := hkept.balance
  refine ⟨hbalance, fun r order outcome hm => ?_, fun r order session hm => hkept.aimed hm,
    fun hended => ?_⟩
  · apply Invocation.giveBack_ok
    rw [hbalance]
    exact List.countP_pos_iff.2 ⟨_, hm, beq_self_eq_true order.pid⟩
  · apply Pool.size_eq_zero
    intro pid
    rw [hbalance]
    unfold holders
    rw [List.countP_eq_zero]
    intro m hm
    obtain ⟨reply, hreply⟩ := hended m.1 m.2 hm
    rw [hreply]
    exact Bool.false_ne_true

/-- A machine on which every program runs. -/
def lively : Machine := ⟨⟨[], []⟩, .superuser, fun _ => .delivered, [], 0, []⟩

/-- A request that is aimed at a program. -/
def aimedAt (pid : Nat) : Request :=
  (Request.start .agent "GcReceiver" "gc").setParameter pidParameter (Text.decimal pid)

/-- Garbage is to be collected and a heap dumped for the same program. Both hold its session at the
same time; one run takes too long, the other succeeds, and the pool is empty again. -/
theorem sessions_balance_shared : ∃ during after : Crew,
    during.Reachable .standard ∧ during.agent.pool.usage 7 = 2
    ∧ after.Reachable .standard ∧ after.members.length = 2 ∧ after.agent.pool.size = 0 := by
  have hcome := ((Reachable.start lively).step
    (.come _ (aimedAt 7) (Builtin.garbageErrand_mem .standard))).step
    (.come _ (aimedAt 7) (Builtin.dumpErrand_mem .standard))
  have hduring := (hcome.step (.act [] _ _ [_])).step (.act [_] _ _ [])
  have hlate := (hduring.step (.report [] _ _ _ [_] (.error ["jcmd timed out after 30s"]))).step
    (.act [] _ _ [_])
  have hafter := (hlate.step (.report [_] _ _ _ [] (.ok ⟨some 0, "dumped", ""⟩))).step
    (.act [_] _ _ [])
  obtain ⟨hbalance, -⟩ := sessions_balance hduring
  obtain ⟨-, -, -, hempty⟩ := sessions_balance hafter
  refine ⟨_, _, hduring, (hbalance 7).trans (by decide +kernel), hafter, rfl, hempty ?_⟩
  intro r i hm
  cases List.mem_append.1 hm with
  | inl hm =>
    cases List.mem_singleton.1 hm
    exact ⟨_, rfl⟩
  | inr hm =>
    cases List.mem_singleton.1 hm
    exact ⟨_, rfl⟩

end Crew
end CommandLink
