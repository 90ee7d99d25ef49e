import CommandLink.Agent.Invocation
import CommandLink.Serve
/-!
# Built-in receivers

The receivers that every agent has: a sign of life, terminating a program, collecting its garbage
and dumping its heap. Each acts on a part of whatever state its surroundings have.

Results:
* `builtin_names`: the names that no other receiver can take.
* `kill_refused`: without a pid to aim at, nothing is signalled.
-/
namespace CommandLink

/-- A part of a larger state. -/
structure Part (σ τ : Type) where
  get : σ → τ
  set : τ → σ → σ

namespace Part

/-- What a function does to the part, done to the whole. -/
def lift {σ τ α : Type} (p : Part σ τ) (f : τ → α × τ) (s : σ) : α × σ :=
  let (a, t) := f (p.get s)
  (a, p.set t s)

end Part

namespace Builtin

/-- The version that a sign of life tells. -/
def version : String := "0.1.0"

/-- Mirrors `PingReceiver.receive`. -/
def ping (_ : Request) (s : AgentState) : Reply × AgentState :=
  (.response (.ok version), s)

/-- Terminates the target. Mirrors `KillVmReceiver.receive` and `terminate`. -/
def kill (r : Request) (s : AgentState) : Reply × AgentState :=
  match targetPid r with
  | .error refusal => (.response refusal, s)
  | .ok pid =>
    let shown := Text.decimal pid
    if Machine.maxPid < pid then (.response (.error ("invalid pid '" ++ shown ++ "'")), s)
    else
      let (signalled, machine) := s.machine.signal pid true
      let response := match signalled with
        | .delivered => Response.ok ("sent SIGTERM to " ++ shown)
        | .noSuchPid => .nok ("no process with pid " ++ shown)
        | .notPermitted => ⟨.authFailed, some ("not permitted to signal " ++ shown)⟩
      (.response response, { s with machine := machine })

/-- What there is to do with the tool for a target, given its pid. -/
abbrev Errand := Nat → AgentState → ToolOrder

def garbageErrand : Errand := fun pid _ => ⟨pid, ["GC.run"], none⟩

/-- The file of a heap dump is named for the target and the moment. Mirrors `dump_path`. -/
def dumpFile (tool : ToolConfig) (pid clock : Nat) : Path :=
  tool.dumpDir.join ⟨"heapdump-" ++ Text.decimal pid ++ "-" ++ Text.decimal clock ++ ".hprof"⟩

def dumpErrand (tool : ToolConfig) : Errand := fun pid s =>
  let file := dumpFile tool pid s.machine.clock
  ⟨pid, ["GC.heap_dump", file.text], some file⟩

/-- All that the tool is ever sent for. -/
def errands (tool : ToolConfig) : List Errand := [garbageErrand, dumpErrand tool]

/-- An invocation of the tool on the target of a request, over at once if the request has none. -/
def invocation (errand : Errand) (r : Request) (s : AgentState) : Invocation :=
  match targetPid r with
  | .error refusal => .ended (.response refusal)
  | .ok pid => .waiting (errand pid s)

/-- Runs the tool on the target of a request. -/
def withTool (tool : ToolConfig) (errand : Errand) (r : Request) (s : AgentState) :
    Reply × AgentState :=
  (invocation errand r s).complete tool s

/-- Mirrors `GcReceiver.receive`. -/
def collectGarbage (tool : ToolConfig) : Request → AgentState → Reply × AgentState :=
  withTool tool garbageErrand

/-- Mirrors `HeapDumpReceiver.receive`. -/
def dumpHeap (tool : ToolConfig) : Request → AgentState → Reply × AgentState :=
  withTool tool (dumpErrand tool)

/-- The built-in receivers, in the order in which they are added. -/
def receivers (tool : ToolConfig) : List (Receiver AgentState) := [
  ⟨"PingReceiver", ping⟩,
  ⟨"KillVmReceiver", kill⟩,
  ⟨"GcReceiver", collectGarbage tool⟩,
  ⟨"HeapDumpReceiver", dumpHeap tool⟩]

theorem builtin_names (tool : ToolConfig) :
    (receivers tool).map Receiver.name
      = ["PingReceiver", "KillVmReceiver", "GcReceiver", "HeapDumpReceiver"] := rfl

theorem kill_refused {r : Request} {refusal : Response} (h : targetPid r = .error refusal)
    (s : AgentState) : kill r s = (.response refusal, s) := by
  simp [kill, h]

end Builtin

/-- An agent: a service whose receivers begin with the built-in ones. -/
abbrev Agent (σ : Type) := Service σ

namespace Agent
variable {σ : Type}

/-- An agent with the built-in receivers and some more, in this order. Mirrors
`Agent.with_receivers`. -/
def ofConfig (part : Part σ AgentState) (config : AgentConfig) (extra : List (Receiver σ)) :
    Except LinkError (Agent σ) := do
  let builtin := (Builtin.receivers config.tool).map fun r =>
    (⟨r.name, fun request => part.lift (r.receive request)⟩ : Receiver σ)
  let receivers ← Registry.registerAll .empty (builtin ++ extra)
  .ok ⟨config.endpoint, receivers⟩

end Agent
end CommandLink
