import CommandLink.CommandLine
import CommandLink.Host.Client
/-!
# Commands on a host

What the two commands of the command line do on a host, and what they leave behind.

Results:
* `runCommand_usage`: a command line that cannot be read does nothing.
-/
namespace CommandLink.Host

/-- Properties from a file of the host. -/
def loadProperties (h : Host) (path : Path) : Except LinkError Properties :=
  Properties.ofFile Properties.builtinProviders (h.machine.files.readText path) path

/-- An agent's configuration from a file of the host, under an environment. -/
def loadConfig (h : Host) (environment : Table String) (path : Path) :
    Except ConfigError AgentConfig :=
  AgentConfig.ofFile (h.machine.files.readText path) path environment

/-- Starts the agent that a configuration describes, by properties that were loaded for it. -/
def startAgent (h : Host) (config : AgentConfig) (props : Properties) :
    Except LinkError (Nat × ListenAddress) × Host :=
  match Agent.ofConfig Surroundings.agentPart config [] with
  | .error e => (.error e, h)
  | .ok agent => h.listen props agent

/-- An error of the link as the cause of a wider one. -/
def because (context : String) (e : LinkError) : ConfigError := ⟨[context, e.message]⟩

def loadContext : String := "Failed to load configuration"

def resolveContext : String := "Failed to resolve IPC properties"

def listenContext : String := "Failed to start listener"

/-- Sends one request and tells its outcome. Mirrors `send`. -/
def runSend (h : Host) (o : CommandLine.SendOptions) : CommandLine.CommandEnd × Host :=
  match h.loadProperties o.properties with
  | .error e => (.ofError (because resolveContext e), h)
  | .ok props =>
    let (id, h) := h.addQueue props
    match h.submit id o.request with
    | (some outcome, h) => (.ofOutcome outcome, h.shutdownQueue id)
    | (none, h) =>
      let h := (h.closeChannel id o.endpoint).abandonQueue id
      (.ofError (CommandLine.timedOut o.timeoutSeconds), (h.submitted id).2)

/-- Starts to serve. Gives the listener, or how the command ended. Mirrors `serve`. -/
def runServe (h : Host) (environment : Table String) (path : Path) :
    Except CommandLine.CommandEnd Nat × Host :=
  match h.loadConfig environment path with
  | .error e => (.error (.ofError (e.within loadContext)), h)
  | .ok config =>
    match h.loadProperties config.propertiesFile with
    | .error e => (.error (.ofError (because resolveContext e)), h)
    | .ok props =>
      match h.startAgent config props with
      | (.ok (id, _), h) => (.ok id, h)
      | (.error e, h) => (.error (.ofError (because listenContext e)), h)

/-- The end of serving that was interrupted. -/
def served : CommandLine.CommandEnd := ⟨0, "", ""⟩

/-- Starts a command. Gives the listener of one that goes on serving, or how the command ended. -/
def runCommand (h : Host) (environment : Table String) (args : List String) :
    Except CommandLine.CommandEnd Nat × Host :=
  match CommandLine.parse args with
  | .error e => (.error (.ofUsage e), h)
  | .ok (.serve config) => h.runServe environment config
  | .ok (.send o) =>
    let (e, h) := h.runSend o
    (.error e, h)

theorem runCommand_usage {args : List String} {e : CommandLine.UsageError}
    (he : CommandLine.parse args = .error e) (h : Host) (environment : Table String) :
    h.runCommand environment args = (.error (.ofUsage e), h) := by
  simp [runCommand, he]

end CommandLink.Host
