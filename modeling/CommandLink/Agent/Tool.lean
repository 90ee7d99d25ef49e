import CommandLink.AgentConfig
import CommandLink.Machine
/-!
# The diagnostic tool

Runs the configured command against a program and collects what it writes. The time allowed covers
the reading of both outputs; a tool whose outputs are still open by then is killed.

Results:
* `capture_timedOut_iff`: the time is up exactly if an output is open beyond it.
* `capture_finished`: the exit is told once the tool has exited, however long that takes.
-/
namespace CommandLink

/-- What a finished tool left behind; no exit code if a signal ended it. -/
structure ToolOutput where
  exitCode : Option Nat
  stdout : String
  stderr : String
  deriving Repr, DecidableEq

/-- Mirrors `ToolOutput.success`. -/
def ToolOutput.succeeded (o : ToolOutput) : Bool := o.exitCode == some 0

/-- How waiting for a tool ends, and after how many milliseconds. -/
inductive Capture where
  | finished (after : Nat) (output : ToolOutput)
  | timedOut (after : Nat)
  | never
  deriving Repr, DecidableEq

namespace ProgramRun

/-- The moment by which both outputs are closed. -/
def outputsEnd (r : ProgramRun) : Option Nat :=
  match r.stdoutEnds, r.stderrEnds with
  | some a, some b => some (max a b)
  | _, _ => none

def output (r : ProgramRun) (status : ExitStatus) : ToolOutput where
  exitCode := match status with
    | .code n => some n
    | .signal _ => none
  stdout := Text.Utf8.toTextLossy r.stdout
  stderr := Text.Utf8.toTextLossy r.stderr

/-- Reads both outputs to their ends, if they end in time, and then waits for the exit. Mirrors the
waiting in `VmSession.run`. -/
def capture (r : ProgramRun) (allowed : Nat) : Capture :=
  match r.outputsEnd with
  | none => .timedOut allowed
  | some t =>
    if allowed < t then .timedOut allowed
    else match r.exits with
      | none => .never
      | some (e, status) => .finished (max t e) (r.output status)

theorem capture_timedOut_iff (r : ProgramRun) (allowed after : Nat) :
    r.capture allowed = .timedOut after ↔
      after = allowed ∧ ∀ t, r.outputsEnd = some t → allowed < t := by
  simp only [capture]
  split
  · next h => simp [h, eq_comm]
  · next t h =>
    split
    · next hlt => simp [h, hlt, eq_comm]
    · next hge => split <;> simp_all

theorem capture_finished {r : ProgramRun} {allowed t e : Nat} {status : ExitStatus}
    (ht : r.outputsEnd = some t) (h : t ≤ allowed) (he : r.exits = some (e, status)) :
    r.capture allowed = .finished (max t e) (r.output status) := by
  simp [capture, ht, he, Nat.not_lt.2 h]

end ProgramRun

/-- Access to one running program by the tool. -/
structure VmSession where
  pid : Nat
  tool : ToolConfig
  deriving Repr, DecidableEq

namespace VmSession

/-- What a run of the tool comes to, if it comes to an end: its output, or why there is none, from
the outermost reason to the innermost. -/
abbrev Outcome := Option (Except (List String) ToolOutput)

/-- Runs the tool: the pid first, then the arguments. Mirrors `VmSession.run`. -/
def run (s : VmSession) (arguments : List String) (m : Machine) : Outcome × Machine :=
  match m.start s.tool.command (Text.decimal s.pid :: arguments) with
  | (.error e, m) => (some (.error ["Failed to spawn " ++ s.tool.command.text, e.text]), m)
  | (.ok r, m) =>
    match r.capture (1000 * s.tool.timeoutSeconds) with
    | .finished _ output => (some (.ok output), m)
    | .timedOut _ =>
      (some (.error [s.tool.command.text ++ " timed out after "
        ++ Text.decimal s.tool.timeoutSeconds ++ "s"]), m)
    | .never => (none, m)

/-- Attaches to a running program. Mirrors `HelperConnector.connect`. -/
def attach (tool : ToolConfig) (pid : Nat) (m : Machine) :
    Except (List String) VmSession × Machine :=
  match m.isAlive pid with
  | (true, m) => (.ok ⟨pid, tool⟩, m)
  | (false, m) => (.error ["no process with pid " ++ Text.decimal pid], m)

end VmSession
end CommandLink
