import CommandLink.Properties
/-!
# Configuration of an agent

The endpoint an agent serves, where its properties stand, and how it runs the diagnostic tool. The
environment may override parts of the latter.

Results:
* `overridden_empty`: an empty environment changes nothing.
* `relativeTo_absolute`: an absolute place of the properties is kept.
-/
namespace CommandLink

/-- How the diagnostic tool is run. -/
structure ToolConfig where
  command : Path
  timeoutSeconds : Nat
  /-- Where heap dumps go. -/
  dumpDir : Path
  deriving Repr, DecidableEq

namespace ToolConfig

def standard : ToolConfig := ⟨⟨"jcmd"⟩, 30, Properties.temporaryDir⟩

structure Draft where
  command : Option String := none
  timeoutSeconds : Option Nat := none
  dumpDir : Option String := none

def schema : Json.Schema Draft ToolConfig where
  name := "HelperConfig"
  start := {}
  fields := [
    { name := "jcmd"
      optional := true
      isSet := fun d => d.command.isSome
      read := fun d bs => do
        let (s, rest) ← Json.text "path string" bs
        .ok ({ d with command := some s }, rest) },
    { name := "timeout_seconds"
      optional := true
      isSet := fun d => d.timeoutSeconds.isSome
      read := fun d bs => do
        let (n, rest) ← Json.natural "u64" bs
        .ok ({ d with timeoutSeconds := some n }, rest) },
    { name := "heap_dump_dir"
      optional := true
      isSet := fun d => d.dumpDir.isSome
      read := fun d bs => do
        let (s, rest) ← Json.text "path string" bs
        .ok ({ d with dumpDir := some s }, rest) }]
  finish := fun d => some
    { command := (d.command.map Path.mk).getD standard.command
      timeoutSeconds := d.timeoutSeconds.getD standard.timeoutSeconds
      dumpDir := (d.dumpDir.map Path.mk).getD standard.dumpDir }

end ToolConfig

structure AgentConfig where
  endpoint : EndpointName
  propertiesFile : Path
  tool : ToolConfig
  deriving DecidableEq

/-- A configuration that could not be had, with what was being tried, outermost first. -/
structure ConfigError where
  chain : List String
  deriving Repr, DecidableEq

namespace ConfigError

/-- The error as the cause of a wider one. -/
def within (e : ConfigError) (context : String) : ConfigError :=
  ⟨context :: e.chain⟩

end ConfigError

namespace AgentConfig

structure Draft where
  endpoint : Option EndpointName := none
  propertiesFile : Option String := none
  tool : Option ToolConfig := none

def schema : Json.Schema Draft AgentConfig where
  name := "AgentConfig"
  start := {}
  fields := [
    { name := "endpoint"
      optional := false
      isSet := fun d => d.endpoint.isSome
      read := fun d bs => do
        let (e, rest) ← EndpointName.reader bs
        .ok ({ d with endpoint := some e }, rest) },
    { name := "properties_file"
      optional := false
      isSet := fun d => d.propertiesFile.isSome
      read := fun d bs => do
        let (s, rest) ← Json.text "path string" bs
        .ok ({ d with propertiesFile := some s }, rest) },
    { name := "helper"
      optional := true
      isSet := fun d => d.tool.isSome
      read := fun d bs => do
        let (t, rest) ← ToolConfig.schema.read bs
        .ok ({ d with tool := some t }, rest) }]
  finish := fun d => do
    some ⟨← d.endpoint, ⟨← d.propertiesFile⟩, d.tool.getD ToolConfig.standard⟩

/-- Mirrors `AgentConfig.from_json`. -/
def parse (text : String) : Except ConfigError AgentConfig :=
  match Json.parse schema.read (Text.Utf8.ofText text) with
  | .ok c => .ok c
  | .error e => .error ⟨["Failed to parse JSON", e.message]⟩

/-- The variable that overrides the tool's timeout, by a number of 64 bits. -/
def timeoutVariable : String := "JVM_AGENT_HELPER_TIMEOUT"

/-- The variable that overrides the place of heap dumps, unless it is empty. -/
def dumpDirVariable : String := "JVM_AGENT_HEAP_DUMP_DIR"

/-- A configuration under an environment. What cannot be read there is passed over. Mirrors
`apply_overrides`. -/
def overridden (c : AgentConfig) (environment : Table String) : AgentConfig :=
  let timeout := (environment.get? timeoutVariable).bind (Text.readNumeral? Text.max64)
  let dir := (environment.get? dumpDirVariable).filter fun s => !s.isEmpty
  { c with tool :=
    { c.tool with
      timeoutSeconds := timeout.getD c.tool.timeoutSeconds
      dumpDir := (dir.map Path.mk).getD c.tool.dumpDir } }

/-- A configuration that stands at a place: a relative place of the properties is meant from
there. -/
def relativeTo (c : AgentConfig) (source : Path) : AgentConfig :=
  if c.propertiesFile.isAbsolute then c
  else match source.parent? with
    | some dir => { c with propertiesFile := dir.join c.propertiesFile }
    | none => c

/-- A configuration from what reading its file came to. Mirrors `AgentConfig.load`. -/
def ofFile (contents : Except IoError String) (source : Path) (environment : Table String) :
    Except ConfigError AgentConfig :=
  match contents with
  | .error e => .error ⟨["Failed to read config file " ++ source.text, e.text]⟩
  | .ok text =>
    match parse text with
    | .error e => .error (e.within ("Failed to parse config file " ++ source.text))
    | .ok c => .ok ((c.relativeTo source).overridden environment)

theorem overridden_empty (c : AgentConfig) : c.overridden .empty = c := rfl

theorem relativeTo_absolute {c : AgentConfig} (h : c.propertiesFile.isAbsolute = true)
    (source : Path) : c.relativeTo source = c := by
  simp [relativeTo, h]

end AgentConfig
end CommandLink
