import CommandLink.Agent.Tool
import CommandLink.Pool
import CommandLink.Receiver
/-!
# Invocations of the tool

A receiver that runs the tool takes a session from the pool, runs the tool through it and gives the
session back, whatever the run came to. Several invocations can be under way at once; one that is
dropped stops where it stands.

Results:
* `dropped_pool`: dropping an invocation changes nothing in the pool.
-/
namespace CommandLink

abbrev VmPool := Pool Nat VmSession

/-- The parameter that names the target. -/
def pidParameter : String := "vm-pid"

/-- The pid a request is aimed at, or the response that refuses it. The lowest pids are never
aimed at: they would reach the first program of all, or a group. Mirrors `target_pid`. -/
def targetPid (r : Request) : Except Response Nat :=
  match r.parameter? pidParameter with
  | none => .error (.error ("missing '" ++ pidParameter ++ "' parameter"))
  | some raw =>
    match Text.readNumeral? Text.max32 (Text.trim raw) with
    | none => .error (.error ("invalid pid '" ++ raw ++ "'"))
    | some pid =>
      if pid < 2 then .error (.error ("refusing to target pid " ++ Text.decimal pid)) else .ok pid

/-- What an invocation is to do: the tool's arguments, and the file that it is to leave, if any. -/
structure ToolOrder where
  pid : Nat
  arguments : List String
  artifact : Option Path
  deriving Repr, DecidableEq

/-- How far an invocation has come. -/
inductive Invocation where
  /-- Waits for the pool to hand out a session. -/
  | waiting (order : ToolOrder)
  /-- Holds a session and runs the tool. -/
  | running (order : ToolOrder) (session : VmSession)
  /-- Waits for the pool to take the session back. -/
  | returning (order : ToolOrder) (outcome : Except (List String) ToolOutput)
  | ended (reply : Reply)

/-- The response to a finished run. Mirrors `tool_response`. -/
def toolResponse (o : ToolOutput) (artifact : Option Path) : Response :=
  if o.succeeded then
    match artifact with
    | some path => .ok path.text
    | none => .ok (Text.trim o.stdout)
  else
    let said := if Text.isBlank o.stderr then Text.trim o.stdout else Text.trim o.stderr
    let code := match o.exitCode with
      | some n => Text.decimal n
      | none => "-1"
    .nok ("exit code " ++ code ++ ": " ++ said)

/-- The pool of an agent together with the machine it runs on. -/
structure AgentState where
  machine : Machine
  pool : VmPool

namespace Invocation

/-- An invocation is over, holds a session or will hold one. -/
def holds (pid : Nat) : Invocation → Bool
  | running order _ | returning order _ => order.pid == pid
  | waiting _ | ended _ => false

/-- The pool's turn: hands out a session, attached anew if nobody holds one. Mirrors `run_tool` as
far as it acquires, with `not_attached`. -/
def acquire (tool : ToolConfig) (order : ToolOrder) (s : AgentState) : Invocation × AgentState :=
  match s.pool.acquire (VmSession.attach tool) Text.decimal order.pid s.machine with
  | (.ok session, pool, machine) => (running order session, ⟨machine, pool⟩)
  | (.error _, pool, machine) =>
    (ended (.response (.nok ("no VM with pid " ++ Text.decimal order.pid))), ⟨machine, pool⟩)

/-- The tool's turn: runs to its end, if it comes to one. Mirrors the run in `run_tool`. -/
def runTool (order : ToolOrder) (session : VmSession) (s : AgentState) : Invocation × AgentState :=
  match session.run order.arguments s.machine with
  | (some outcome, machine) => (returning order outcome, { s with machine := machine })
  | (none, machine) => (running order session, { s with machine := machine })

/-- The session goes back to the pool. Nothing is done to take it down. -/
def giveBack (order : ToolOrder) (s : AgentState) : Except PoolError Unit × VmPool × Machine :=
  s.pool.release (fun _ _ machine => machine) Text.decimal order.pid s.machine

/-- What a run of the tool is answered with. -/
def reply (order : ToolOrder) : Except (List String) ToolOutput → Reply
  | .ok output => .response (toolResponse output order.artifact)
  | .error reasons => .failure reasons

/-- The pool's turn again: takes the session back. If it does not, nobody is told. Mirrors the
release in `run_tool`. -/
def release (order : ToolOrder) (outcome : Except (List String) ToolOutput) (s : AgentState) :
    Invocation × AgentState :=
  let (_, pool, machine) := giveBack order s
  (ended (reply order outcome), ⟨machine, pool⟩)

/-- The next step of an invocation. One that has ended, or whose tool never does, stays. Mirrors
`run_tool` from one wait to the next. -/
def step (tool : ToolConfig) (i : Invocation) (s : AgentState) : Invocation × AgentState :=
  match i with
  | waiting order => acquire tool order s
  | running order session => runTool order session s
  | returning order outcome => release order outcome s
  | ended reply => (ended reply, s)

/-- An invocation that is dropped: the pool learns nothing of it. -/
def dropped (_ : Invocation) (s : AgentState) : AgentState := s

/-- An invocation from its start to its end, undisturbed, if its tool comes to an end. -/
def complete (tool : ToolConfig) (i : Invocation) (s : AgentState) : Reply × AgentState :=
  let (i, s) := step tool i s
  match step tool i s with
  | (running .., s) => (.never, s)
  | (i, s) =>
    match step tool i s with
    | (ended reply, s) => (reply, s)
    | (_, s) => (.never, s)

theorem dropped_pool (i : Invocation) (s : AgentState) : (i.dropped s).pool = s.pool := rfl

end Invocation
end CommandLink
