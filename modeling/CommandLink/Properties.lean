import CommandLink.Text.WhiteSpace
import CommandLink.User
/-!
# Properties of the link

Which transport an agent is reached by, and where. They are written as a JSON object of texts; the
member `type` chooses the transport, and the provider of that transport reads the others.

Results:
* `resolve_single`: one provider that claims a kind decides alone.
* `resolve_builtin`: what the built-in providers make of each kind.
* `socketPath_components`: a socket's path leads through the base directory and the user's
  directory to the endpoint.
-/
namespace CommandLink

abbrev RawProperties := Table String

/-- Reached at a TCP port of a host, one for each endpoint. -/
structure TcpProperties where
  host : String
  ports : Table Nat
  deriving DecidableEq

/-- Reached at a socket in the user's directory below a base directory. -/
structure UnixSocketProperties where
  dir : Path
  deriving DecidableEq

/-- Reached at a named pipe. -/
structure PipeProperties where
  /-- What the names of the pipes begin with. -/
  base : String
  plain : isPlainName base = true

instance : DecidableEq PipeProperties := fun a b =>
  decidable_of_iff (a.base = b.base) ⟨fun h => by cases a; cases b; cases h; rfl, congrArg _⟩

inductive Properties where
  | tcp (p : TcpProperties)
  | unixSocket (p : UnixSocketProperties)
  | pipe (p : PipeProperties)
  deriving DecidableEq

/-- Mirrors `TcpProperties.port`. -/
def TcpProperties.port? (p : TcpProperties) (e : EndpointName) : Option Nat :=
  p.ports.get? e.text

/-- A port of the host, as messages name it. -/
def TcpProperties.place (p : TcpProperties) (tcpPort : Nat) : String :=
  p.host ++ ":" ++ Text.decimal tcpPort

namespace UnixSocketProperties

/-- Mirrors `user_dir`. -/
def userDir (p : UnixSocketProperties) (u : User) : Path :=
  p.dir.join ⟨u.name⟩

/-- Mirrors `socket_path`. -/
def socketPath (p : UnixSocketProperties) (u : User) (e : EndpointName) : Path :=
  (p.userDir u).join ⟨e.text⟩

end UnixSocketProperties

/-- Mirrors `pipe_path`. -/
def PipeProperties.pipePath (p : PipeProperties) (u : User) (e : EndpointName) : String :=
  "\\\\.\\pipe\\" ++ p.base ++ "-" ++ u.name ++ "-" ++ e.text

namespace Properties

/-- Mirrors `IpcProperties.ipc_type`. -/
def kind : Properties → TransportKind
  | tcp _ => .socket
  | unixSocket _ => .unixSocket
  | pipe _ => .winPipe

/-- The host of a TCP link unless another one is named. -/
def defaultHost : String := "127.0.0.1"

/-- What the default directory and the default pipe are called. -/
def defaultName : String := "jvm-agent-ipc"

/-- Where what has no other place goes. -/
def temporaryDir : Path := ⟨"/tmp"⟩

/-- What the keys of TCP ports begin with; the endpoint follows. -/
def portKey : String := "tcp.port."

/-- The endpoint that a key gives the port of. -/
def portKeyRest? (key : String) : Option String :=
  if portKey.toList.isPrefixOf key.toList then
    some (String.ofList (key.toList.drop portKey.toList.length))
  else none

/-- Enters the port that one member gives, if it gives one. -/
def enterPort (source : Path) (ports : Table Nat) (key value : String) :
    Except LinkError (Table Nat) :=
  match portKeyRest? key with
  | none => .ok ports
  | some name =>
    match EndpointName.ofText name with
    | .error e => .error (.malformedProperties source e.message)
    | .ok e =>
      match Text.readNumeral? Text.max16 (Text.trim value) with
      | none => .error (.malformedProperties source ("invalid port '" ++ value ++ "' for " ++ key))
      | some n => .ok (ports.insert e.text n)

/-- Mirrors `TcpPropertiesProvider.create`. -/
def readTcp (raw : RawProperties) (source : Path) : Except LinkError Properties := do
  let ports ← raw.entries.foldlM (fun ports m => enterPort source ports m.1 m.2) .empty
  .ok (.tcp ⟨(raw.get? "tcp.host").getD defaultHost, ports⟩)

/-- A relative directory is meant from where the properties stand. Mirrors
`UnixSocketPropertiesProvider.create`. -/
def readUnixSocket (raw : RawProperties) (source : Path) : Except LinkError Properties :=
  match raw.get? "unixsocket.dir" with
  | none => .ok (.unixSocket ⟨temporaryDir.join ⟨defaultName⟩⟩)
  | some dir =>
    if Text.isBlank dir then .error (.malformedProperties source "unixsocket.dir is empty")
    else
      let dir : Path := ⟨Text.trim dir⟩
      if dir.isAbsolute then .ok (.unixSocket ⟨dir⟩)
      else .ok (.unixSocket ⟨(source.parent?.getD ⟨"."⟩).join dir⟩)

/-- Mirrors `PipePropertiesProvider.create`. -/
def readPipe (raw : RawProperties) (source : Path) : Except LinkError Properties :=
  let base := Text.trim ((raw.get? "winpipe.prefix").getD defaultName)
  if h : isPlainName base = true then .ok (.pipe ⟨base, h⟩)
  else .error (.malformedProperties source (LinkError.invalidEndpointName base).message)

/-- A provider reads the properties of the kind that it claims. -/
structure Provider where
  claims : TransportKind
  read : RawProperties → Path → Except LinkError Properties

/-- The provider that reads a kind under its own name. -/
def reading : TransportKind → RawProperties → Path → Except LinkError Properties
  | .socket => readTcp
  | .unixSocket => readUnixSocket
  | .winPipe => readPipe

def builtinProviders : List Provider :=
  TransportKind.all.map fun k => ⟨k, reading k⟩

/-- Reads properties through the one provider that claims their kind. Mirrors
`ProviderRegistry.resolve`. -/
def resolve (providers : List Provider) (kind : TransportKind) (raw : RawProperties)
    (source : Path) : Except LinkError Properties :=
  match providers.filter (·.claims == kind) with
  | [] => .error (.noProvider kind)
  | [p] => p.read raw source
  | ps => .error (.ambiguousProvider kind ps.length)

/-- The members of a written properties object. Mirrors `parse_properties`. -/
def parseRaw (text : String) (source : Path) : Except LinkError RawProperties :=
  match Json.parse Json.table (Text.Utf8.ofText text) with
  | .ok raw => .ok raw
  | .error e => .error (.malformedProperties source e.message)

/-- A kind as a person wrote it. Mirrors `IpcType.from_str`. -/
def readKind (text : String) : Except LinkError TransportKind :=
  match TransportKind.ofName? (Text.trim text) with
  | some k => .ok k
  | none => .error (.unknownTransport (Text.trim text))

/-- Reads written properties, of which the source is known. -/
def parse (providers : List Provider) (text : String) (source : Path) :
    Except LinkError Properties := do
  let raw ← parseRaw text source
  match raw.get? "type" with
  | none => .error (.malformedProperties source "missing 'type' key")
  | some kind => resolve providers (← readKind kind) raw source

/-- Properties from what reading their file came to. Mirrors `ProviderRegistry.load`. -/
def ofFile (providers : List Provider) (contents : Except IoError String) (source : Path) :
    Except LinkError Properties :=
  match contents with
  | .ok text => parse providers text source
  | .error e => .error (.malformedProperties source ("cannot read file: " ++ e.text))

theorem resolve_single {providers : List Provider} {kind : TransportKind} {p : Provider}
    (h : providers.filter (·.claims == kind) = [p]) (raw : RawProperties) (source : Path) :
    resolve providers kind raw source = p.read raw source := by
  simp [resolve, h]

/-- Each kind is claimed by one built-in provider. -/
theorem resolve_builtin (kind : TransportKind) (raw : RawProperties) (source : Path) :
    resolve builtinProviders kind raw source = reading kind raw source := by
  have hone : builtinProviders.filter (·.claims == kind) = [⟨kind, reading kind⟩] := by
    cases kind <;> rfl
  exact resolve_single hone raw source

end Properties

theorem socketPath_components (p : UnixSocketProperties) (u : User) (e : EndpointName)
    (hu : isPlainName u.name = true) :
    (p.socketPath u e).components
      = p.dir.components ++ (Path.mk u.name).components ++ (Path.mk e.text).components := by
  rw [UnixSocketProperties.socketPath, Path.components_join _ _ (isAbsolute_of_isPlainName e.plain),
    UnixSocketProperties.userDir, Path.components_join _ _ (isAbsolute_of_isPlainName hu)]

end CommandLink
