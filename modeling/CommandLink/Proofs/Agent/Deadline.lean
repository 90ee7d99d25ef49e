import CommandLink.Agent.Tool
/-!
# The time a tool is allowed

What a run of the tool does moment by moment. It reads both outputs under the timeout and, once both
are closed, waits for the exit without one. So the timeout covers the run as long as the tool closes
an output only with its exit, which is what tools do that die of being killed; one that closes both
outputs and stays is waited for, beyond any time.

Results:
* `watch_sound`: what the run has come to by a moment, by induction over the moments.
* `isOver_iff`, `watch_ended_iff`, `watch_killed_iff`: it ends when and as `capture` says.
* `isOver_never_iff`: a run that ends at no moment.
* `VmSession.run_timely`: a run is over in time unless the tool lingers, and what it comes to.
-/
namespace CommandLink

/-- The number an exit is reported by. -/
def ExitStatus.number : ExitStatus → Int
  | code n => n
  | signal _ => -1

/-- The number of the exit a tool left. -/
def ToolOutput.number (o : ToolOutput) : Int :=
  match o.exitCode with
  | some n => n
  | none => -1

/-- Where a run of the tool stands. -/
inductive Watch where
  /-- Reads both outputs, as long as there is time. -/
  | reading
  /-- Has read both to their ends and waits for the exit. -/
  | waiting
  /-- The tool has exited. -/
  | ended (moment : Nat) (output : ToolOutput)
  /-- The tool was killed, because the time was up. -/
  | killed (moment : Nat)
  deriving Repr, DecidableEq

def Watch.isOver : Watch → Bool
  | reading | waiting => false
  | ended .. | killed _ => true

/-- The moment at which the waiting ends, if it does. -/
def Capture.after? : Capture → Option Nat
  | finished after _ | timedOut after => some after
  | never => none

namespace ProgramRun
variable {r : ProgramRun} {allowed n moment : Nat} {w : Watch} {output : ToolOutput}

/-- Both outputs are closed at a moment. -/
def ClosedBy (r : ProgramRun) (moment : Nat) : Prop := ∃ t, r.outputsEnd = some t ∧ t ≤ moment

/-- The program still runs at a moment. -/
def Outlives (r : ProgramRun) (moment : Nat) : Prop :=
  ∀ e status, r.exits = some (e, status) → moment < e

/-- The outputs are closed by the exit, if not before. -/
def ClosesWithExit (r : ProgramRun) : Prop :=
  ∀ e status, r.exits = some (e, status) → r.ClosedBy e

/-- The program has closed its outputs and still runs. -/
def Lingers (r : ProgramRun) (moment : Nat) : Prop := r.ClosedBy moment ∧ r.Outlives moment

instance (r : ProgramRun) (moment : Nat) : Decidable (r.ClosedBy moment) :=
  match h : r.outputsEnd with
  | none => .isFalse fun ⟨_, ht, _⟩ => by rw [h] at ht; cases ht
  | some t => decidable_of_iff (t ≤ moment) (by simp [ClosedBy, h])

/-- Looks whether the program has exited. -/
def exitSeen (r : ProgramRun) (now : Nat) : Watch :=
  match r.exits with
  | some (e, status) => if e ≤ now then .ended now (r.output status) else .waiting
  | none => .waiting

/-- One look at the program. Closed outputs come before the clock, and the exit is looked for as soon
as they are closed. -/
def look (r : ProgramRun) (allowed now : Nat) : Watch → Watch
  | .reading =>
    if r.ClosedBy now then r.exitSeen now
    else if allowed ≤ now then .killed now
    else .reading
  | .waiting => r.exitSeen now
  | .ended moment output => .ended moment output
  | .killed moment => .killed moment

/-- Where the run stands after a look at every moment before `n`. -/
def watch (r : ProgramRun) (allowed : Nat) : Nat → Watch
  | 0 => .reading
  | n + 1 => r.look allowed n (r.watch allowed n)

/-- What can be said of a run from where it stands after the moments before `n`. -/
def Sound (r : ProgramRun) (allowed n : Nat) : Watch → Prop
  | .reading => n ≤ allowed ∧ ∀ t, r.outputsEnd = some t → n ≤ t
  | .waiting => ∃ t, r.outputsEnd = some t ∧ t ≤ allowed ∧ t < n
      ∧ ∀ e status, r.exits = some (e, status) → n ≤ e
  | .ended moment output => moment < n ∧ r.capture allowed = .finished moment output
  | .killed moment => moment < n ∧ r.capture allowed = .timedOut moment

/-- The look for the exit, by a run whose outputs were closed in time and that has not seen the exit
together with them. -/
theorem sound_exitSeen {t : Nat} (ht : r.outputsEnd = some t) (hallowed : t ≤ allowed) (hn : t ≤ n)
    (hunseen : ∀ e status, r.exits = some (e, status) → e ≤ n → n = max t e) :
    r.Sound allowed (n + 1) (r.exitSeen n) := by
  unfold exitSeen
  cases hexits : r.exits with
  | none => exact ⟨t, ht, hallowed, by omega, fun e status h => by rw [hexits] at h; cases h⟩
  | some exit =>
    obtain ⟨e, status⟩ := exit
    by_cases he : e ≤ n
    · have hcapture := capture_finished ht hallowed hexits
      rw [← hunseen e status hexits he] at hcapture
      simp only [if_pos he]
      exact ⟨by omega, hcapture⟩
    · simp only [if_neg he]
      refine ⟨t, ht, hallowed, by omega, fun e' status' h => ?_⟩
      rw [hexits] at h
      cases h
      omega

/-- One look keeps what can be said. -/
theorem sound_look (h : r.Sound allowed n w) : r.Sound allowed (n + 1) (r.look allowed n w) := by
  cases w with
  | reading =>
    obtain ⟨htime, hopen⟩ := h
    unfold look
    by_cases hclosed : r.ClosedBy n
    · obtain ⟨t, ht, hle⟩ := hclosed
      -- the outputs were open at all moments before, so they close right now
      have hnow : t = n := Nat.le_antisymm hle (hopen t ht)
      rw [if_pos ⟨t, ht, hle⟩]
      exact sound_exitSeen ht (by omega) hle fun e status _ he => by omega
    · have hlater : ∀ t, r.outputsEnd = some t → n < t := fun t ht =>
        Nat.lt_of_not_le fun hle => hclosed ⟨t, ht, hle⟩
      rw [if_neg hclosed]
      by_cases hup : allowed ≤ n
      · have hnow : n = allowed := Nat.le_antisymm htime hup
        rw [if_pos hup]
        exact ⟨Nat.lt_succ_self n, (capture_timedOut_iff r allowed n).2 ⟨hnow, hnow ▸ hlater⟩⟩
      · rw [if_neg hup]
        exact ⟨by omega, hlater⟩
  | waiting =>
    obtain ⟨t, ht, hallowed, hlt, hrunning⟩ := h
    exact sound_exitSeen ht hallowed (Nat.le_of_lt hlt) fun e status hexits he => by
      have := hrunning e status hexits
      omega
  | ended moment output => exact ⟨Nat.lt_succ_of_lt h.1, h.2⟩
  | killed moment => exact ⟨Nat.lt_succ_of_lt h.1, h.2⟩

theorem watch_sound (r : ProgramRun) (allowed n : Nat) : r.Sound allowed n (r.watch allowed n) := by
  induction n with
  | zero => exact ⟨Nat.zero_le _, fun t _ => Nat.zero_le t⟩
  | succ n ih => exact sound_look ih

/-- What a run that comes to an end has read and seen. -/
theorem capture_eq_finished (h : r.capture allowed = .finished moment output) :
    ∃ t e status, r.outputsEnd = some t ∧ t ≤ allowed ∧ r.exits = some (e, status)
      ∧ moment = max t e ∧ output = r.output status := by
  unfold capture at h
  cases ht : r.outputsEnd with
  | none => simp [ht] at h
  | some t =>
    by_cases hlt : allowed < t
    · simp [ht, hlt] at h
    · cases hexits : r.exits with
      | none => simp [ht, hlt, hexits] at h
      | some exit =>
        obtain ⟨e, status⟩ := exit
        simp only [ht, hlt, hexits, ite_false, Capture.finished.injEq] at h
        exact ⟨t, e, status, rfl, Nat.le_of_not_lt hlt, rfl, h.1.symm, h.2.symm⟩

/-- A run is over once the moment of its end has passed, and not before. -/
theorem isOver_iff :
    (r.watch allowed n).isOver = true ↔ ∃ moment, (r.capture allowed).after? = some moment ∧ moment < n := by
  have hsound := watch_sound r allowed n
  constructor
  · intro hover
    cases hw : r.watch allowed n with
    | reading => rw [hw] at hover; cases hover
    | waiting => rw [hw] at hover; cases hover
    | ended moment output =>
      rw [hw] at hsound
      exact ⟨moment, by rw [hsound.2]; rfl, hsound.1⟩
    | killed moment =>
      rw [hw] at hsound
      exact ⟨moment, by rw [hsound.2]; rfl, hsound.1⟩
  · rintro ⟨moment, hafter, hlt⟩
    cases hw : r.watch allowed n with
    | ended => rfl
    | killed => rfl
    | reading =>
      rw [hw] at hsound
      obtain ⟨htime, hopen⟩ := hsound
      cases hcapture : r.capture allowed with
      | never => rw [hcapture] at hafter; cases hafter
      | timedOut after =>
        rw [hcapture] at hafter
        cases hafter
        have := ((capture_timedOut_iff r allowed moment).1 hcapture).1
        omega
      | finished after output =>
        rw [hcapture] at hafter
        cases hafter
        obtain ⟨t, e, status, ht, -, -, hmoment, -⟩ := capture_eq_finished hcapture
        have := hopen t ht
        omega
    | waiting =>
      rw [hw] at hsound
      obtain ⟨t, ht, hle, -, hrunning⟩ := hsound
      cases hcapture : r.capture allowed with
      | never => rw [hcapture] at hafter; cases hafter
      | timedOut after =>
        have := ((capture_timedOut_iff r allowed after).1 hcapture).2 t ht
        omega
      | finished after output =>
        rw [hcapture] at hafter
        cases hafter
        obtain ⟨_, e, status, -, -, hexits, hmoment, -⟩ := capture_eq_finished hcapture
        have := hrunning e status hexits
        omega

theorem watch_ended_iff : r.watch allowed n = .ended moment output ↔
    r.capture allowed = .finished moment output ∧ moment < n := by
  have hsound := watch_sound r allowed n
  constructor
  · intro h
    rw [h] at hsound
    exact hsound.symm
  · rintro ⟨hcapture, hlt⟩
    have hover := isOver_iff.2 ⟨moment, by rw [hcapture]; rfl, hlt⟩
    cases hw : r.watch allowed n with
    | reading => rw [hw] at hover; cases hover
    | waiting => rw [hw] at hover; cases hover
    | ended moment' output' =>
      rw [hw] at hsound
      cases hcapture.symm.trans hsound.2
      rfl
    | killed moment' =>
      rw [hw] at hsound
      cases hcapture.symm.trans hsound.2

theorem watch_killed_iff : r.watch allowed n = .killed moment ↔
    r.capture allowed = .timedOut moment ∧ moment < n := by
  have hsound := watch_sound r allowed n
  constructor
  · intro h
    rw [h] at hsound
    exact hsound.symm
  · rintro ⟨hcapture, hlt⟩
    have hover := isOver_iff.2 ⟨moment, by rw [hcapture]; rfl, hlt⟩
    cases hw : r.watch allowed n with
    | reading => rw [hw] at hover; cases hover
    | waiting => rw [hw] at hover; cases hover
    | ended moment' output' =>
      rw [hw] at hsound
      cases hcapture.symm.trans hsound.2
    | killed moment' =>
      rw [hw] at hsound
      cases hcapture.symm.trans hsound.2
      rfl

/-- A run that is never over is one that waits for an exit that never comes. -/
theorem isOver_never_iff : r.capture allowed = .never ↔ ∀ n, (r.watch allowed n).isOver = false := by
  constructor
  · intro hnever n
    refine Bool.eq_false_iff.2 fun hover => ?_
    obtain ⟨moment, hafter, -⟩ := isOver_iff.1 hover
    rw [hnever] at hafter
    cases hafter
  · intro hopen
    have hnone (moment : Nat) (hafter : (r.capture allowed).after? = some moment) : False := by
      have hover := isOver_iff.2 ⟨moment, hafter, Nat.lt_succ_self moment⟩
      rw [hopen (moment + 1)] at hover
      cases hover
    cases hcapture : r.capture allowed with
    | never => rfl
    | finished moment output => exact absurd (by rw [hcapture]; rfl) (hnone moment)
    | timedOut moment => exact absurd (by rw [hcapture]; rfl) (hnone moment)

/-! ## Exits against the clock -/

theorem exits_of_not_outlives (h : ¬ r.Outlives moment) :
    ∃ e status, r.exits = some (e, status) ∧ e ≤ moment := by
  cases hexits : r.exits with
  | none => exact absurd (fun e status hsome => by rw [hexits] at hsome; cases hsome) h
  | some exit =>
    obtain ⟨e, status⟩ := exit
    refine ⟨e, status, rfl, Nat.le_of_not_lt fun hlt => h fun e' status' hsome => ?_⟩
    rw [hexits] at hsome
    cases hsome
    exact hlt

/-- A program that exits in time has nothing to be waited for but its exit. -/
theorem capture_of_exits (hclosing : r.ClosesWithExit) {e : Nat} {status : ExitStatus}
    (hexits : r.exits = some (e, status)) (he : e ≤ allowed) :
    r.capture allowed = .finished e (r.output status) := by
  obtain ⟨t, ht, hle⟩ := hclosing e status hexits
  rw [capture_finished ht (Nat.le_trans hle he) hexits, Nat.max_eq_right hle]

theorem capture_of_open (hopen : ¬ r.ClosedBy allowed) : r.capture allowed = .timedOut allowed :=
  (capture_timedOut_iff r allowed allowed).2
    ⟨rfl, fun t ht => Nat.lt_of_not_le fun hle => hopen ⟨t, ht, hle⟩⟩

/-- The time that a lingering program is waited for. -/
theorem capture_of_lingers (h : r.Lingers allowed) :
    r.capture allowed = match r.exits with
      | some (e, status) => .finished e (r.output status)
      | none => .never := by
  obtain ⟨⟨t, ht, hle⟩, hout⟩ := h
  cases hexits : r.exits with
  | none => simp [capture, ht, Nat.not_lt.2 hle, hexits]
  | some exit =>
    obtain ⟨e, status⟩ := exit
    have hlater := hout e status hexits
    rw [capture_finished ht hle hexits, Nat.max_eq_right (by omega)]

theorem after_of_lingers (h : r.Lingers allowed) :
    (r.capture allowed).after? = r.exits.map Prod.fst := by
  rw [capture_of_lingers h]
  cases r.exits <;> rfl

/-- When the time is up, a run is over unless the program lingers. -/
theorem isOver_in_time_iff (hclosing : r.ClosesWithExit) :
    (r.watch allowed (allowed + 1)).isOver = true ↔ ¬ r.Lingers allowed := by
  rw [isOver_iff]
  constructor
  · rintro ⟨moment, hafter, hlt⟩ hlingers
    rw [after_of_lingers hlingers] at hafter
    obtain ⟨⟨e, status⟩, hexits, rfl⟩ := Option.map_eq_some_iff.1 hafter
    have hlater := hlingers.2 e status hexits
    omega
  · intro hkeen
    by_cases hclosed : r.ClosedBy allowed
    · obtain ⟨e, status, hexits, he⟩ := exits_of_not_outlives fun hout => hkeen ⟨hclosed, hout⟩
      exact ⟨e, by rw [capture_of_exits hclosing hexits he]; rfl, Nat.lt_succ_of_le he⟩
    · exact ⟨allowed, by rw [capture_of_open hclosed]; rfl, Nat.lt_succ_self allowed⟩

/-- Until its exit, a lingering program is waited for. -/
theorem watch_of_lingers (h : r.Lingers allowed) (hn : allowed < n)
    (hrunning : ∀ e status, r.exits = some (e, status) → n ≤ e) : r.watch allowed n = .waiting := by
  have hsound := watch_sound r allowed n
  have hopen : (r.watch allowed n).isOver = false := Bool.eq_false_iff.2 fun hover => by
    obtain ⟨moment, hafter, hlt⟩ := isOver_iff.1 hover
    rw [after_of_lingers h] at hafter
    obtain ⟨⟨e, status⟩, hexits, rfl⟩ := Option.map_eq_some_iff.1 hafter
    exact Nat.not_lt.2 (hrunning e status hexits) hlt
  cases hw : r.watch allowed n with
  | waiting => rfl
  | reading =>
    rw [hw] at hsound
    exact absurd hsound.1 (Nat.not_le.2 hn)
  | ended => rw [hw] at hopen; cases hopen
  | killed => rw [hw] at hopen; cases hopen

end ProgramRun

namespace VmSession
variable {s : VmSession} {arguments : List String} {m m' : Machine} {r : ProgramRun}

/-- The time a run of the tool is allowed. -/
def allowed (s : VmSession) : Nat := 1000 * s.tool.timeoutSeconds

theorem run_of_start (hstart : m.start s.tool.command (Text.decimal s.pid :: arguments) = (.ok r, m')) :
    s.run arguments m = match r.capture s.allowed with
      | .finished _ output => (some (.ok output), m')
      | .timedOut _ =>
        (some (.error [s.tool.command.text ++ " timed out after "
          ++ Text.decimal s.tool.timeoutSeconds ++ "s"]), m')
      | .never => (none, m') := by
  unfold run allowed
  cases hcapture : r.capture (1000 * s.tool.timeoutSeconds) <;> simp only [hstart, hcapture]

/-- What becomes of a tool that was started, by when it exits and closes its outputs. -/
structure Timely (s : VmSession) (arguments : List String) (m m' : Machine) (r : ProgramRun) :
    Prop where
  /-- A tool that exits in time is reported then, with all it wrote. -/
  exits : ∀ e status, r.exits = some (e, status) → e ≤ s.allowed →
    ∃ output, s.run arguments m = (some (.ok output), m')
      ∧ r.watch s.allowed (e + 1) = .ended e output
      ∧ output.number = status.number
      ∧ output.stdout = Text.Utf8.toTextLossy r.stdout
      ∧ output.stderr = Text.Utf8.toTextLossy r.stderr
  /-- A tool that does not, and keeps an output open, is killed when the time is up. -/
  outlives : r.Outlives s.allowed → ¬ r.ClosedBy s.allowed →
    s.run arguments m = (some (.error [s.tool.command.text ++ " timed out after "
      ++ Text.decimal s.tool.timeoutSeconds ++ "s"]), m')
    ∧ r.watch s.allowed (s.allowed + 1) = .killed s.allowed
  /-- A tool that does not, but has closed its outputs, is left alone and reported when it exits. -/
  lingers : r.Lingers s.allowed →
    (s.run arguments m).1 = r.exits.map (fun exit => .ok (r.output exit.2))
    ∧ (∀ n, s.allowed < n → (∀ e status, r.exits = some (e, status) → n ≤ e) →
      r.watch s.allowed n = .waiting)
    ∧ ∀ n moment, r.watch s.allowed n ≠ .killed moment
  /-- The run is over when the time is up, unless the tool lingers. -/
  over_iff : (r.watch s.allowed (s.allowed + 1)).isOver = true ↔ ¬ r.Lingers s.allowed

/-- A run of a tool that was started is over within the time allowed, by the exit or by killing it,
unless the tool has closed both outputs by then and stays. -/
theorem run_timely (hstart : m.start s.tool.command (Text.decimal s.pid :: arguments) = (.ok r, m'))
    (hclosing : r.ClosesWithExit) : s.Timely arguments m m' r where
  exits e status hexits he := by
    have hcapture := ProgramRun.capture_of_exits hclosing hexits he
    refine ⟨r.output status, ?_,
      ProgramRun.watch_ended_iff.2 ⟨hcapture, Nat.lt_succ_self e⟩, ?_, rfl, rfl⟩
    · rw [run_of_start hstart, hcapture]
    · cases status <;> rfl
  outlives _ hopen := by
    have hcapture := ProgramRun.capture_of_open hopen
    refine ⟨?_, ProgramRun.watch_killed_iff.2 ⟨hcapture, Nat.lt_succ_self _⟩⟩
    rw [run_of_start hstart, hcapture]
  lingers h := by
    have hcapture := ProgramRun.capture_of_lingers h
    refine ⟨?_, fun n hn hrunning => ProgramRun.watch_of_lingers h hn hrunning,
      fun n moment hkilled => ?_⟩
    · rw [run_of_start hstart, hcapture]
      cases r.exits <;> rfl
    · rw [(ProgramRun.watch_killed_iff.1 hkilled).1] at hcapture
      cases hexits : r.exits <;> rw [hexits] at hcapture <;> cases hcapture
  over_iff := ProgramRun.isOver_in_time_iff hclosing

/-- A machine with one program. -/
def offering (r : ProgramRun) : Machine where
  files := ⟨[(["jcmd"], ⟨.program r, 0, 0o755⟩)], []⟩
  user := .superuser
  signalled _ := .delivered
  searched := []
  clock := 0
  acts := []

/-- Runs that program, which has a second. -/
def impatient : VmSession := ⟨7, ⟨⟨"/jcmd"⟩, 1, Properties.temporaryDir⟩⟩

theorem start_offering (r : ProgramRun) :
    (offering r).start impatient.tool.command (Text.decimal impatient.pid :: ["GC.run"])
      = (.ok r, ⟨(offering r).files, .superuser, fun _ => .delivered, [], 0,
        [.start ⟨"/jcmd"⟩ ["7", "GC.run"]]⟩) := by
  rfl

/-- A tool that writes something, closes its outputs at its exit and is ended by a signal in time. -/
def struck : ProgramRun :=
  ⟨[0x68, 0x69], [], some 400, some 400, some (400, .signal 15)⟩

theorem run_timely_struck : ∃ m' output, struck.ClosesWithExit
    ∧ impatient.run ["GC.run"] (offering struck) = (some (.ok output), m')
    ∧ struck.watch 1000 401 = .ended 400 output ∧ output.number = -1 ∧ output.stdout = "hi" := by
  have hclosing : struck.ClosesWithExit := fun e status h => by
    cases h
    exact ⟨400, rfl, Nat.le_refl 400⟩
  obtain ⟨output, hrun, hwatch, hnumber, hstdout, -⟩ :=
    (run_timely (start_offering struck) hclosing).exits 400 (.signal 15) rfl (by decide)
  exact ⟨_, output, hclosing, hrun, hwatch, hnumber, hstdout.trans (by decide +kernel)⟩

/-- A tool that closes its outputs at once and never exits. -/
def mute : ProgramRun := ⟨[], [], some 0, some 0, none⟩

/-- The tool has a second, and is still waited for after any time; it is never killed, and the run comes
to nothing. -/
theorem mute_tool_is_awaited : mute.ClosesWithExit ∧ mute.Outlives impatient.allowed
    ∧ impatient.allowed = 1000
    ∧ (∃ m', (offering mute).start impatient.tool.command
        (Text.decimal impatient.pid :: ["GC.run"]) = (.ok mute, m'))
    ∧ (impatient.run ["GC.run"] (offering mute)).1 = none
    ∧ ∀ n, (mute.watch impatient.allowed n).isOver = false := by
  have hclosing : mute.ClosesWithExit := fun e status h => by cases h
  have hout : mute.Outlives impatient.allowed := fun e status h => by cases h
  have hnever : mute.capture impatient.allowed = .never := rfl
  refine ⟨hclosing, hout, rfl, ⟨_, start_offering mute⟩, ?_, ProgramRun.isOver_never_iff.1 hnever⟩
  rw [run_of_start (start_offering mute), hnever]

end VmSession
end CommandLink
