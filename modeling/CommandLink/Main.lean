import CommandLink.Host.Command
import Std.Async.Signal
import Std.Async.TCP
import Std.Async.Timer
/-!
# The program

The two commands over TCP. The request queue and the accept loop decide what happens; here the
system is asked, and what it answers is handed to them. Sockets in the file system and other
programs are out of reach here: a link over the former is refused, and an agent finds no tool and
may signal nobody.
-/
namespace CommandLink.Program
open Std.Async

abbrev Stream := TCP.Socket.Client

/-! ## What the system answers -/

/-- The number of a system error; some calls give it with the other sign. -/
def errorNumber (e : IO.Error) : Nat :=
  let n := match e with
    | .alreadyExists _ n _ | .interrupted _ n _ | .noFileOrDirectory _ n _ => n
    | .invalidArgument _ n _ | .permissionDenied _ n _ | .resourceExhausted _ n _ => n
    | .inappropriateType _ n _ | .noSuchThing _ n _ => n
    | .otherError n _ | .resourceBusy n _ | .resourceVanished n _ | .hardwareFault n _ => n
    | .unsupportedOperation n _ | .unsatisfiedConstraints n _ | .illegalOperation n _ => n
    | .protocolError n _ | .timeExpired n _ => n
    | .unexpectedEof | .userError _ => 0
  if n < 0x80000000 then n.toNat else (-n).toNat

def systemError (e : IO.Error) : IoError :=
  match Errno.ofNumber? (errorNumber e) with
  | some errno => errno.error
  | none => ⟨.uncategorized, toString e⟩

/-- What an action comes to. -/
def attempt {α : Type} (action : Async α) : Async (Except IoError α) := do
  try
    return .ok (← action)
  catch e =>
    return .error (systemError e)

def readText (path : Path) : Async (Except IoError String) := do
  let contents ← attempt do return (← IO.FS.readBinFile path.text).toList
  return contents >>= FileSystem.textOf

/-- The variables that a configuration heeds. -/
def environment : IO (Table String) := do
  let mut t := Table.empty
  for name in [AgentConfig.timeoutVariable, AgentConfig.dumpDirVariable] do
    if let some value ← IO.getEnv name then
      t := t.insert name value
  return t

/-- Leaves behind what a command leaves behind. -/
def leave (e : CommandLine.CommandEnd) : IO UInt32 := do
  IO.print e.stdout
  IO.eprint e.stderr
  return UInt32.ofNat e.exitCode

/-! ## Streams -/

def octets : List Nat → Std.Net.IPv4Addr
  | [a, b, c, d] => .ofParts (.ofNat a) (.ofNat b) (.ofNat c) (.ofNat d)
  | _ => .ofParts 127 0 0 1

/-- A port of a host that is named by number, or of this one. -/
def addressOf (host : String) (tcpPort : Nat) : Except IoError Std.Net.SocketAddress :=
  let named := if host = "localhost" then some [127, 0, 0, 1] else SocketAddress.v4? host.toList
  match named with
  | some bytes => .ok (.v4 ⟨octets bytes, .ofNat tcpPort⟩)
  | none => .error Errno.addressNotAvailable.error

def textOf (a : Std.Net.SocketAddress) : String :=
  match a with
  | .v4 a => SocketAddress.text ⟨.v4 (a.addr.octets.toList.map UInt8.toNat), a.port.toNat⟩
  | .v6 a => SocketAddress.text ⟨.v6 (a.addr.segments.toList.map UInt16.toNat) 0, a.port.toNat⟩

def ofRead : Except IoError (Option ByteArray) → Except IoError Frame.ReadStatus
  | .ok (some bytes) => .ok (.data bytes.toList)
  | .ok none => .ok .eof
  | .error e => .error e

/-- Waits for bytes, at most so many. -/
def receive (s : Stream) (size : Nat) : Async (Except IoError Frame.ReadStatus) := do
  return ofRead (← attempt (s.recv? (.ofNat size)))

/-- Waits for bytes until a moment comes. -/
def receiveUntil (moment : Selector Unit) (s : Stream) (size : Nat) :
    Async (Option (Except IoError Frame.ReadStatus)) := do
  let first := Selectable.one #[
    .case (s.recvSelector (.ofNat size)) fun r => return some r,
    .case moment fun _ => return none]
  match ← attempt first with
  | .ok none => return none
  | .ok (some r) => return some (ofRead (.ok r))
  | .error e => return some (.error e)

/-- Writes all that is offered. -/
def write (s : Stream) (offered : Bytes) : Async Frame.Acceptance := do
  match ← attempt (s.send ⟨offered.toArray⟩) with
  | .ok () => return .took offered.length
  | .error e => return .failed e

/-- Gives back something of a stream; the stream itself goes when nobody holds it any more. -/
def release (s : Stream) : Release → Async Unit
  | .shutDown => discard (attempt s.shutdown)
  | .key _ | .stream => return

/-! ## Sending -/

def connect (props : Properties) (e : EndpointName) :
    Async (Except LinkError (Channel Stream)) := do
  match props with
  | .tcp p =>
    match p.port? e with
    | none => return .error (Host.portMissing e)
    | some tcpPort =>
      let dialled ← match addressOf p.host tcpPort with
        | .error cause => pure (.error cause)
        | .ok address => attempt do
          let s ← TCP.Socket.Client.mk
          s.connect address
          return s
      return Host.tcpChannel e (p.place tcpPort) dialled
  | _ => return .error (.unsupported props.kind)

/-- What a queue waits for, once it is there; nothing if the moment comes before, or if the queue
waits for nothing. -/
def awaited (props : Properties) (moment : Selector Unit) (q : RequestQueue Stream) :
    Async (Option (QueueEvent Stream)) := do
  if q.hasTurn then return some .turn
  match q.phase, q.inUse >>= Channel.stream with
  | .connecting r _, _ => return some (.connected (← connect props r.destination))
  | .probing .., some _ => return some (.probed (.ok .empty))
  | .sending _ _ _ o, some s => o.offered?.mapM fun bytes => return .wrote (← write s bytes)
  | .awaiting _ _ _ i, some s => return (← receiveUntil moment s i.wanted).map .read
  | _, _ => return none

/-- Works off the one request of a queue, unless the moment comes before it has ended. -/
partial def work (props : Properties) (moment : Selector Unit) (q : RequestQueue Stream) :
    Async (Option Ending) := do
  let some event ← awaited props moment q | return none
  let (q, acts) := q.step event
  for act in acts do
    match act with
    | .release s r => release s r
    | .ended e => return some e
  work props moment q

/-- Mirrors `send`. -/
def runSend (o : CommandLine.SendOptions) : Async CommandLine.CommandEnd := do
  match Properties.ofFile Properties.builtinProviders (← readText o.properties) o.properties with
  | .error e => return .ofError (Host.because Host.resolveContext e)
  | .ok props =>
    let moment ← Selector.sleep (.ofNat (1000 * o.timeoutSeconds))
    match ← work props moment (RequestQueue.start.put o.request).1 with
    | some ending => return .ofOutcome ending.response
    | none => return .ofError (CommandLine.timedOut o.timeoutSeconds)

/-! ## Serving -/

/-- A machine without files or programs. -/
def bareMachine : Machine where
  files := ⟨[], []⟩
  user := .superuser
  signalled := fun _ => .notPermitted
  searched := []
  clock := 0
  acts := []

/-- A listening loop with what surrounds its receivers. -/
structure Served where
  loop : AcceptLoop Stream
  agent : AgentState

/-- An event of the loop, with all that it does to the outside. -/
def happen (agent : Agent AgentState) (served : IO.Ref Served) (e : LoopEvent Stream) :
    Async Unit := do
  let acts ← served.modifyGet fun s =>
    let (loop, acts, state) := s.loop.step agent e s.agent
    (acts, ⟨loop, state⟩)
  for act in acts do
    match act with
    | .peer s r => release s r
    | .refused s => release s .stream
    | .handle | .socketPath => pure ()

/-- Serves a peer as long as the loop has it. -/
partial def servePeer (agent : Agent AgentState) (served : IO.Ref Served) (number : Nat) :
    Async Unit := do
  let some peer := (← served.get).loop.peer? number | return
  let some s := peer.channel.stream | return
  let event ← match peer.serving with
    | .reading i => some <$> Serving.Event.read <$> receive s i.wanted
    | .answering o => o.offered?.mapM fun bytes => Serving.Event.wrote <$> write s bytes
    | .stuck | .ended => pure none
  match event with
  | some e =>
    happen agent served (.peer number e)
    servePeer agent served number
  | none => return

partial def acceptAll (agent : Agent AgentState) (served : IO.Ref Served)
    (listener : TCP.Socket.Server) : Async Unit := do
  let s ← listener.accept
  -- at a TCP port it does not matter whose a peer is
  happen agent served (.accept s (textOf (← s.getPeerName)) (.ok bareMachine.user.uid))
  background (servePeer agent served (← served.get).loop.accepted)
  acceptAll agent served listener

def listen (props : Properties) (e : EndpointName) :
    Async (Except LinkError TCP.Socket.Server) := do
  match props with
  | .tcp p =>
    match p.port? e with
    | none => return .error (Host.portMissing e)
    | some tcpPort =>
      match addressOf p.host tcpPort with
      | .error cause => return .error (.io cause)
      | .ok address =>
        let bound ← attempt do
          let listener ← TCP.Socket.Server.mk
          listener.bind address
          listener.listen 1024
          return listener
        return bound.mapError .io
  | _ => return .error (.unsupported props.kind)

/-- Serves until the program is interrupted. -/
def serveOn (agent : Agent AgentState) (listener : TCP.Socket.Server) : Async Unit := do
  let served ← IO.mkRef ⟨.overTcp agent.endpoint, ⟨bareMachine, .empty⟩⟩
  background (acceptAll agent served listener)
  let interrupt ← Signal.Waiter.mk .sigint false
  discard <| await (← interrupt.wait)
  happen agent served .shutdown
  for peer in (← served.get).loop.peers do
    happen agent served (.peer peer.number .shutdown)
  happen agent served .finish

/-- Mirrors `serve`. -/
def runServe (path : Path) : Async CommandLine.CommandEnd := do
  match AgentConfig.ofFile (← readText path) path (← environment) with
  | .error e => return .ofError (e.within Host.loadContext)
  | .ok config =>
    let file := config.propertiesFile
    match Properties.ofFile Properties.builtinProviders (← readText file) file with
    | .error e => return .ofError (Host.because Host.resolveContext e)
    | .ok props =>
      match Agent.ofConfig ⟨id, fun a _ => a⟩ config [] with
      | .error e => return .ofError (Host.because Host.listenContext e)
      | .ok agent =>
        match ← listen props agent.endpoint with
        | .error e => return .ofError (Host.because Host.listenContext e)
        | .ok listener =>
          serveOn agent listener
          return Host.served

end CommandLink.Program

open CommandLink in
/-- Runs the command that the arguments name. -/
def main (args : List String) : IO UInt32 := do
  match CommandLine.parse args with
  | .error e => Program.leave (.ofUsage e)
  | .ok (.serve config) => Program.leave (← (Program.runServe config).block)
  | .ok (.send o) => Program.leave (← (Program.runSend o).block)
