import CommandLink.Proofs.Agent.Dropped
import CommandLink.Proofs.Text.Numerals
/-!
# What a request is aimed at

A request names its target in a parameter. Whatever that says, nothing but the one program it denotes
is signalled, looked for or handed to the tool: pids never wrap around, and none of them is zero.

Results:
* `targetPid_ok_iff`: which requests are aimed at which pid.
* `addressable_interrupted`: no session is ever one of a pid that no signal can be addressed to.
* `pid_safe`: what the receivers do for a request is done to its target, and depends on it through the
  target alone.
-/
namespace CommandLink

namespace Request

/-- A request is aimed at a pid: its parameter denotes the pid, which is neither of the lowest two and
has 32 bits. -/
def AimsAt (r : Request) (n : Nat) : Prop :=
  ∃ raw, r.parameter? pidParameter = some raw ∧ Text.Denotes raw n ∧ 2 ≤ n ∧ n < 0x100000000

end Request

section Target
variable {r : Request} {n m : Nat}

/-- The pid of a request, and otherwise an error. -/
theorem targetPid_cases (r : Request) :
    (∃ n, targetPid r = .ok n ∧ r.AimsAt n)
    ∨ (∃ text, targetPid r = .error (.error text)) ∧ ∀ n, ¬ r.AimsAt n := by
  unfold targetPid
  cases hraw : r.parameter? pidParameter with
  | none =>
    refine .inr ⟨⟨_, rfl⟩, ?_⟩
    rintro n ⟨raw, hsome, -⟩
    rw [hraw] at hsome
    cases hsome
  | some raw =>
    dsimp only
    cases hread : Text.readNumeral? Text.max32 (Text.trim raw) with
    | none =>
      refine .inr ⟨⟨_, rfl⟩, ?_⟩
      rintro n ⟨raw', hsome, hdenotes, -, hbound⟩
      rw [hraw] at hsome
      cases hsome
      rw [Text.readNumeral?_trim_iff.2 ⟨hdenotes, by unfold Text.max32; omega⟩] at hread
      cases hread
    | some n =>
      obtain ⟨hdenotes, hbound⟩ := Text.readNumeral?_trim_iff.1 hread
      dsimp only
      by_cases hlow : n < 2
      · rw [if_pos hlow]
        refine .inr ⟨⟨_, rfl⟩, ?_⟩
        rintro m ⟨raw', hsome, hdenotes', hm, -⟩
        rw [hraw] at hsome
        cases hsome
        have := hdenotes.unique hdenotes'
        omega
      · rw [if_neg hlow]
        unfold Text.max32 at hbound
        exact .inl ⟨n, rfl, raw, hraw, hdenotes, by omega, by omega⟩

theorem Request.AimsAt.unique (hn : r.AimsAt n) (hm : r.AimsAt m) : n = m := by
  obtain ⟨raw, hraw, hdenotes, -⟩ := hn
  obtain ⟨raw', hraw', hdenotes', -⟩ := hm
  rw [hraw] at hraw'
  cases hraw'
  exact hdenotes.unique hdenotes'

/-- What is read as the pid of a request is what the request is aimed at. -/
theorem targetPid_ok_iff : targetPid r = .ok n ↔ r.AimsAt n := by
  rcases targetPid_cases r with ⟨m, htarget, haims⟩ | ⟨⟨text, htarget⟩, hnone⟩
  · rw [htarget]
    constructor
    · intro h
      cases h
      exact haims
    · intro h
      rw [haims.unique h]
  · rw [htarget]
    exact ⟨nofun, fun h => absurd h (hnone n)⟩

theorem targetPid_error (h : ∀ n, ¬ r.AimsAt n) : ∃ text, targetPid r = .error (.error text) := by
  rcases targetPid_cases r with ⟨n, -, haims⟩ | ⟨herror, -⟩
  · exact absurd haims (h n)
  · exact herror

end Target

/-! ## What is done to programs -/

/-- What may be done for the sake of a request that runs the tool: its target is looked for, and the tool
is started with the target first, as a decimal. No other pid than the target's is ever addressed. -/
inductive Meant (tool : ToolConfig) (r : Request) : Act → Prop
  | probe {n : Nat} (aims : r.AimsAt n) (addressable : n < 0x80000000) : Meant tool r (.signal n false)
  | start {n : Nat} {pid : String} (aims : r.AimsAt n) (addressable : n < 0x80000000)
      (decimal : Text.Canonical pid n) (arguments : List String) :
      Meant tool r (.start tool.command (pid :: arguments))

/-- From one state of a machine to another, only what is meant was done. -/
def Machine.Confined (tool : ToolConfig) (r : Request) (m m' : Machine) : Prop :=
  ∃ acts, m'.acts = m.acts ++ acts ∧ ∀ act ∈ acts, Meant tool r act

namespace Machine
variable {tool : ToolConfig} {r : Request} {m m' m'' : Machine} {n : Nat} {act : Act}

theorem Confined.refl (tool : ToolConfig) (r : Request) (m : Machine) : m.Confined tool r m :=
  ⟨[], (List.append_nil _).symm, nofun⟩

theorem Confined.trans (h : m.Confined tool r m') (h' : m'.Confined tool r m'') :
    m.Confined tool r m'' := by
  obtain ⟨acts, hacts, hmeant⟩ := h
  obtain ⟨acts', hacts', hmeant'⟩ := h'
  refine ⟨acts ++ acts', by rw [hacts', hacts, List.append_assoc], fun act hact => ?_⟩
  exact (List.mem_append.1 hact).elim (hmeant act) (hmeant' act)

theorem Confined.one (h : m'.acts = m.acts ++ [act]) (meant : Meant tool r act) :
    m.Confined tool r m' :=
  ⟨[act], h, fun _ hact => List.mem_singleton.1 hact ▸ meant⟩

/-- Where no signal can be addressed to the target, nothing is done. -/
theorem Confined.nothing (h : m.Confined tool r m') (aims : r.AimsAt n) (hn : 0x80000000 ≤ n) :
    m'.acts = m.acts := by
  obtain ⟨acts, hacts, hmeant⟩ := h
  cases acts with
  | nil => rw [hacts, List.append_nil]
  | cons act rest =>
    have hact := hmeant act List.mem_cons_self
    cases hact with
    | probe aims' haddressable | start aims' haddressable =>
      have := aims.unique aims'
      omega

/-- A pid with more than 31 bits is not asked for, and none is found under it. -/
theorem isAlive_cases (m : Machine) (n : Nat) :
    n < 0x80000000 ∧ (m.isAlive n).2.acts = m.acts ++ [.signal n false]
    ∨ 0x80000000 ≤ n ∧ m.isAlive n = (false, m) := by
  unfold isAlive maxPid
  by_cases hn : n ≤ 0x7FFFFFFF
  · rw [if_pos hn]
    exact .inl ⟨by omega, rfl⟩
  · rw [if_neg hn]
    exact .inr ⟨by omega, rfl⟩

end Machine

namespace VmSession
variable {tool : ToolConfig} {r : Request} {m m' : Machine} {n : Nat} {outcome : Outcome}

theorem attach_addressable {session : VmSession} (h : (attach tool n m).1 = .ok session) :
    n < 0x80000000 := by
  rcases m.isAlive_cases n with ⟨hn, -⟩ | ⟨-, halive⟩
  · exact hn
  · unfold attach at h
    rw [halive] at h
    cases h

theorem attach_confined (aims : r.AimsAt n) : m.Confined tool r (attach tool n m).2 := by
  have hmachine : (attach tool n m).2 = (m.isAlive n).2 := by
    unfold attach
    split <;> next h => rw [h]
  rw [hmachine]
  rcases m.isAlive_cases n with ⟨hn, hacts⟩ | ⟨-, halive⟩
  · exact .one hacts (.probe aims hn)
  · rw [halive]
    exact .refl tool r m

/-- A run of the tool starts the tool, at most. -/
theorem run_confined {arguments : List String} (aims : r.AimsAt n) (hn : n < 0x80000000)
    (h : run ⟨n, tool⟩ arguments m = (outcome, m')) : m.Confined tool r m' := by
  have hmachine := machine_run ⟨n, tool⟩ arguments m
  rw [h] at hmachine
  dsimp only at hmachine
  obtain ⟨-, -, -, htwo, -⟩ := id aims
  rw [hmachine, Machine.start]
  split
  · exact .refl tool r m
  · exact .one rfl (.start aims hn (Text.canonical_decimal (by omega)) arguments)

end VmSession

/-! ## Sessions of pids that can be addressed -/

namespace Invocation
variable {tool : ToolConfig} {s s' : AgentState} {i i' : Invocation} {r : Request} {n : Nat}

/-- Whoever is in use has a pid that a signal can be addressed to. -/
def Addressable (pool : VmPool) : Prop := ∀ pid, 0 < pool.usage pid → pid < 0x80000000

/-- Giving a session back makes no program one that is used. -/
theorem giveBack_addressable {order : ToolOrder} {given : Except PoolError Unit} {pool : VmPool}
    {machine : Machine} (h : giveBack order s = (given, pool, machine))
    (haddressable : Addressable s.pool) : Addressable pool := by
  intro pid hused
  apply haddressable
  cases given with
  | ok u =>
    have := Pool.usage_released h pid
    omega
  | error e =>
    obtain ⟨-, hfailed, -⟩ := Pool.release_spec h
    rwa [(hfailed e rfl).2] at hused

theorem Stepped.addressable (h : Stepped tool s i i' s') (haddressable : Addressable s.pool) :
    Addressable s'.pool := by
  cases h with
  | @acquired order session pool machine h =>
    intro pid hused
    dsimp only at hused
    rw [Pool.usage_acquired h pid] at hused
    by_cases hpid : order.pid = pid
    · subst hpid
      rcases (Pool.connection?_acquire h).1 session rfl with hstored | hattached
      · apply haddressable
        by_contra hzero
        have hnone := Pool.usage_eq_zero_iff.1 (Nat.eq_zero_of_not_pos hzero)
        rw [Pool.connection?, hnone] at hstored
        cases hstored
      · exact VmSession.attach_addressable hattached
    · rw [beq_false_of_ne hpid, Bool.toNat_false, Nat.add_zero] at hused
      exact haddressable pid hused
  | absent h =>
    obtain ⟨-, hfailed, -⟩ := Pool.acquire_spec h
    rw [hfailed _ rfl]
    exact haddressable
  | finished h => exact haddressable
  | unfinished h => exact haddressable
  | released h => exact giveBack_addressable h haddressable
  | past reply => exact haddressable

/-- A step of an invocation does nothing but what is meant by the request. -/
theorem Stepped.confined (h : Stepped tool s i i' s') (haimed : i.Aimed tool r)
    (hused : ∀ pid, i.holds pid = true → pid < 0x80000000) : s.machine.Confined tool r s'.machine := by
  have hacquire {order : ToolOrder} {given : Except PoolError VmSession} {pool : VmPool}
      {machine : Machine} (aims : r.AimsAt order.pid)
      (h : s.pool.acquire (VmSession.attach tool) Text.decimal order.pid s.machine
        = (given, pool, machine)) : s.machine.Confined tool r machine := by
    unfold Pool.acquire at h
    split at h
    · cases h
      exact .refl tool r s.machine
    · have hattach : s.machine.Confined tool r (VmSession.attach tool order.pid s.machine).2 :=
        VmSession.attach_confined aims
      split at h <;> next hconnect => cases h; rwa [hconnect] at hattach
  cases h with
  | acquired h => exact hacquire (targetPid_ok_iff.1 haimed) h
  | absent h => exact hacquire (targetPid_ok_iff.1 haimed) h
  | @finished order session outcome machine h | @unfinished order session machine h =>
    obtain ⟨htarget, rfl⟩ := haimed
    exact VmSession.run_confined (targetPid_ok_iff.1 htarget)
      (hused order.pid (beq_self_eq_true order.pid)) h
  | released h =>
    dsimp only
    rw [giveBack_machine h]
    exact .refl tool r s.machine
  | past reply => exact .refl tool r s.machine

end Invocation

namespace Crew
variable {tool : ToolConfig} {w : Crew} {lost : List Nat} {front back : List (Request × Invocation)}
  {r : Request} {i : Invocation} {s : AgentState} {n : Nat}

theorem addressable_step {w' : Crew} (h : Invocation.Addressable w.agent.pool)
    (next : Step tool w w') : Invocation.Addressable w'.agent.pool := by
  cases next with
  | come _ r known => exact h
  | @act s front r i back => exact (Invocation.stepped tool i s).addressable h
  | @report s front r order session back outcome => exact h
  | elsewhere _ machine => exact h

/-- Whatever becomes of the invocations, only pids that a signal can be addressed to are in use. -/
theorem addressable_interrupted (h : w.Interrupted tool lost) :
    Invocation.Addressable w.agent.pool := by
  induction h with
  | start machine => exact fun _ hused => absurd hused (Nat.lt_irrefl 0)
  | step _ next ih => exact addressable_step ih next
  | drop front r i back _ ih => exact ih
  | cut front r i back _ midway ih =>
    rcases Invocation.midway_cases midway with ⟨order, rfl, rfl⟩ | ⟨order, outcome, rfl, hgive⟩
    · exact ih
    · exact Invocation.giveBack_addressable hgive ih

/-- The step of an invocation among others. -/
theorem step_confined (h : Interrupted tool ⟨front ++ (r, i) :: back, s⟩ lost) :
    s.machine.Confined tool r (i.step tool s).2.machine := by
  have hkept := kept_interrupted h
  exact (Invocation.stepped tool i s).confined (hkept.aimed (by simp))
    fun pid hi => addressable_interrupted h pid (hkept.used hi)

/-- An invocation that nobody disturbs, from its start to its end. -/
theorem complete_confined (h : Interrupted tool ⟨front ++ (r, i) :: back, s⟩ lost) :
    s.machine.Confined tool r (i.complete tool s).2.machine := by
  have hfirst := step_confined h
  have hone := h.step (.act front r i back)
  have hsecond := step_confined hone
  have htwo := hone.step (.act front r _ back)
  have hthird := step_confined htwo
  have hboth := hfirst.trans hsecond
  have hall := hboth.trans hthird
  unfold Invocation.complete
  rcases hfirstEq : i.step tool s with ⟨i₁, s₁⟩
  rcases hsecondEq : i₁.step tool s₁ with ⟨i₂, s₂⟩
  simp only [hfirstEq, hsecondEq] at hboth hall ⊢
  cases i₂ with
  | running order session => exact hboth
  | waiting _ | returning _ _ | ended _ =>
    dsimp only
    split <;> next hlast => rwa [hlast] at hall

/-! ## The receivers -/

/-- The receivers that are aimed at a program: one terminates it, the others run the tool. -/
theorem receive_cases {receiver : Receiver AgentState} (known : receiver ∈ Builtin.receivers tool)
    (hname : receiver.name ≠ "PingReceiver") :
    receiver = ⟨"KillVmReceiver", Builtin.kill⟩
    ∨ ∃ errand ∈ Builtin.errands tool, receiver.receive = Builtin.withTool tool errand := by
  unfold Builtin.receivers at known
  simp only [List.mem_cons, List.not_mem_nil, or_false] at known
  rcases known with rfl | rfl | rfl | rfl
  · exact absurd rfl hname
  · exact .inl rfl
  · exact .inr ⟨_, Builtin.garbageErrand_mem tool, rfl⟩
  · exact .inr ⟨_, Builtin.dumpErrand_mem tool, rfl⟩

/-- What the receivers do for a request, beside invocations of other requests. -/
structure Safe (tool : ToolConfig) (w : Crew) (r : Request) : Prop where
  /-- A request that is aimed at no pid is answered with an error, and nothing is done. -/
  refused : (∀ n, ¬ r.AimsAt n) → ∃ text, ∀ s,
    (∀ receiver ∈ Builtin.receivers tool, receiver.name ≠ "PingReceiver" →
      receiver.receive r s = (.response (.error text), s))
    ∧ ∀ errand, Builtin.invocation errand r s = .ended (.response (.error text))
  /-- Terminating sends one signal, to the pid the request is aimed at, and does nothing else. -/
  terminated : ∀ n s, r.AimsAt n → n < 0x80000000 →
    (Builtin.kill r s).2
      = { s with machine := { s.machine with acts := s.machine.acts ++ [.signal n true] } }
  /-- A request that runs the tool does no more than look for the pid and start the tool for it. -/
  diagnosed : ∀ errand ∈ Builtin.errands tool,
    w.agent.machine.Confined tool r (Builtin.withTool tool errand r w.agent).2.machine
  /-- So does a step of such a request among others. -/
  step : ∀ front i back s, w = ⟨front ++ (r, i) :: back, s⟩ →
    s.machine.Confined tool r (i.step tool s).2.machine
  /-- Nothing at all is done if no signal can be addressed to the pid. -/
  unaddressable : ∀ n, r.AimsAt n → 0x80000000 ≤ n →
    (∃ text, ∀ s, Builtin.kill r s = (.response (.error text), s))
    ∧ (∀ errand ∈ Builtin.errands tool,
      (Builtin.withTool tool errand r w.agent).2.machine.acts = w.agent.machine.acts)
    ∧ ∀ front i back s, w = ⟨front ++ (r, i) :: back, s⟩ →
      (i.step tool s).2.machine.acts = s.machine.acts
  /-- What is done and what is answered depend on the request through the pid alone. -/
  through : ∀ r' n, r.AimsAt n → r'.AimsAt n →
    (∀ receiver ∈ Builtin.receivers tool, receiver.name ≠ "PingReceiver" →
      receiver.receive r = receiver.receive r')
    ∧ ∀ errand, Builtin.invocation errand r = Builtin.invocation errand r'

theorem invocation_congr {r' : Request} (h : targetPid r = targetPid r') (errand : Builtin.Errand) :
    Builtin.invocation errand r = Builtin.invocation errand r' := by
  funext s
  unfold Builtin.invocation
  rw [h]

/-- Terminating a pid, by whether a signal can be addressed to it. -/
theorem kill_aimed (aims : r.AimsAt n) :
    (n < 0x80000000 → ∀ s, (Builtin.kill r s).2 = { s with machine := (s.machine.signal n true).2 })
    ∧ (0x80000000 ≤ n → ∃ text, ∀ s, Builtin.kill r s = (.response (.error text), s)) := by
  have htarget := targetPid_ok_iff.2 aims
  constructor
  · intro hn s
    have hbound : ¬ Machine.maxPid < n := by
      unfold Machine.maxPid
      omega
    unfold Builtin.kill
    rw [htarget]
    dsimp only
    rw [if_neg hbound]
  · intro hn
    have hbound : Machine.maxPid < n := by
      unfold Machine.maxPid
      omega
    refine ⟨"invalid pid '" ++ Text.decimal n ++ "'", fun s => ?_⟩
    unfold Builtin.kill
    rw [htarget]
    dsimp only
    rw [if_pos hbound]

/-- Whatever a request says, and whatever becomes of those it shares the agent with: what is done to
programs for its sake is done to the pid it is aimed at. -/
theorem pid_safe (h : w.Interrupted tool lost) (r : Request) : Safe tool w r where
  refused hnone := by
    obtain ⟨text, htarget⟩ := targetPid_error hnone
    have hinvocation (errand : Builtin.Errand) (s : AgentState) :
        Builtin.invocation errand r s = .ended (.response (.error text)) := by
      unfold Builtin.invocation
      rw [htarget]
    refine ⟨text, fun s => ⟨fun receiver known hname => ?_, fun errand => hinvocation errand s⟩⟩
    rcases receive_cases known hname with rfl | ⟨errand, -, hreceive⟩
    · exact Builtin.kill_refused htarget s
    · rw [hreceive, Builtin.withTool, hinvocation]
      rfl
  terminated n s aims hn := (kill_aimed aims).1 hn s
  diagnosed errand known := complete_confined (h.step (.come w r known))
  step front i back s hw := step_confined (hw ▸ h)
  unaddressable n aims hn :=
    ⟨(kill_aimed aims).2 hn,
      fun errand known => (complete_confined (h.step (.come w r known))).nothing aims hn,
      fun front i back s hw => (step_confined (hw ▸ h)).nothing aims hn⟩
  through r' n aims aims' := by
    have htarget : targetPid r = targetPid r' :=
      (targetPid_ok_iff.2 aims).trans (targetPid_ok_iff.2 aims').symm
    refine ⟨fun receiver known hname => ?_, invocation_congr htarget⟩
    funext s
    rcases receive_cases known hname with rfl | ⟨errand, -, hreceive⟩
    · simp only [Builtin.kill, htarget]
    · rw [hreceive, Builtin.withTool, Builtin.withTool, invocation_congr htarget]

/-- A request whose target is written in an unusual way. -/
def padded : Request :=
  (Request.start .agent "KillVmReceiver" "kill").setParameter pidParameter "\u3000+0007\t"

/-- The padded request means the same as the plain one, while another request runs the tool on the same
program. -/
theorem pid_safe_padded : ∃ w : Crew, w.Interrupted .standard [] ∧ w.agent.pool.usage 7 = 1
    ∧ padded.AimsAt 7
    ∧ (Builtin.kill padded w.agent).2.machine.acts
      = [.signal 7 false, .signal 7 true]
    ∧ ∀ receiver ∈ Builtin.receivers .standard, receiver.name ≠ "PingReceiver" →
      receiver.receive padded = receiver.receive (aimedAt 7) := by
  have hcome := (Interrupted.start lively).step
    (.come _ (aimedAt 7) (Builtin.garbageErrand_mem .standard))
  have hrunning := hcome.step (.act [] _ _ [])
  have haims : padded.AimsAt 7 := targetPid_ok_iff.1 (by decide +kernel)
  have hplain : (aimedAt 7).AimsAt 7 := targetPid_ok_iff.1 (by decide +kernel)
  have hsafe := pid_safe hrunning padded
  refine ⟨_, hrunning, by decide +kernel, haims, ?_, (hsafe.through _ 7 haims hplain).1⟩
  rw [hsafe.terminated 7 _ haims (by decide)]
  decide +kernel

end Crew
end CommandLink
