import CommandLink.Host.Basic
/-!
# Listening and connecting

How a listener comes to its place on a host, and how a client finds it there.

Results:
* `listen_pipe`, `connect_pipe`: named pipes are refused.
* `connect_tcp_missing`: an endpoint without a port is missing, whoever listens.
-/
namespace CommandLink.Host

/-- The error of an endpoint that the properties give no port for. -/
def portMissing (e : EndpointName) : LinkError :=
  .endpointMissing e.text ("tcp properties (no " ++ Properties.portKey ++ e.text ++ " entry)")

/-- The address of a named host. -/
def hostAddress (host : String) : Except IoError IpAddress :=
  match IpAddress.ofHost? host with
  | some a => .ok a
  | none => .error Network.unknownHost

/-- The port that a listener gets who asks for one at an address: any free one where that is 0. -/
def takePort (h : Host) (address : IpAddress) (wanted : Nat) : Except IoError (Nat × Host) :=
  match h.network.bindFault? address with
  | some e => .error e.error
  | none =>
    if wanted = 0 then
      let (n, h) := h.fresh
      .ok (firstFreePort + n, h)
    else if h.isTaken ⟨address, wanted⟩ then .error Errno.addressInUse.error
    else .ok (wanted, h)

/-- Adds a listener. -/
def addListener (h : Host) (id : Nat) (address : ListenAddress) (service : Service Surroundings)
    (loop : AcceptLoop Nat) : Host :=
  { h with listeners := h.listeners ++ [⟨id, address, service, .empty, loop, []⟩] }

/-- Starts to listen for a service at a TCP port. Mirrors `bind` of a TCP port. -/
def listenTcp (h : Host) (props : TcpProperties) (service : Service Surroundings) :
    Except LinkError (Nat × ListenAddress × Host) := do
  match props.port? service.endpoint with
  | none => .error (portMissing service.endpoint)
  | some wanted =>
    let address ← Rendezvous.liftIo (hostAddress props.host)
    let (tcpPort, h) ← Rendezvous.liftIo (h.takePort address wanted)
    let (id, h) := h.fresh
    let address := ListenAddress.tcp ⟨address, tcpPort⟩
    .ok (id, address, h.addListener id address service (.overTcp service.endpoint))

/-- Starts to listen for a service as the properties say. What was done to the files stays also
where that fails. Mirrors `listen`. -/
def listen (h : Host) (props : Properties) (service : Service Surroundings) :
    Except LinkError (Nat × ListenAddress) × Host :=
  match props with
  | .tcp p =>
    match h.listenTcp p service with
    | .ok (id, address, h) => (.ok (id, address), h)
    | .error e => (.error e, h)
  | .unixSocket p =>
    let (id, h) := h.fresh
    let (r, files) := Rendezvous.bind h.machine.files h.machine.user p service.endpoint id
    let h := { h with machine := { h.machine with files := files } }
    match r with
    | .error e => (.error e, h)
    | .ok () =>
      let address := ListenAddress.unix (p.socketPath h.machine.user service.endpoint)
      let loop := .overSocket service.endpoint h.machine.user.uid
      (.ok (id, address), h.addListener id address service loop)
  | .pipe _ => (.error (.unsupported .winPipe), h)

/-- Lets a scripted peer listen at a path, or at a TCP port if there is no path. -/
def script (h : Host) (name : String) (scripts : List (List Reaction)) (path : Option Path) :
    Except IoError Nat × Host :=
  let (id, h) := h.fresh
  let peer : ScriptedPeer := ⟨id, name, none, scripts, 0, [], []⟩
  match path with
  | none => (.ok id, { h with scripted := h.scripted ++ [{ peer with tcpPort := some (firstFreePort + id) }] })
  | some path =>
    let (r, files) := match path.parent? with
      | some dir => h.machine.files.makeDirectories h.machine.user.uid Rendezvous.baseMode dir
      | none => (.ok (), h.machine.files)
    let bound := do
      r
      Rendezvous.bindSocket (Rendezvous.unbind files path) h.machine.user.uid id path
    match bound with
    | .error e => (.error e, { h with machine := { h.machine with files := files } })
    | .ok files =>
      (.ok id, { h with
        machine := { h.machine with files := files }
        scripted := h.scripted ++ [peer] })

/-- Connects to a TCP port at an address. -/
def dial (h : Host) (address : IpAddress) (tcpPort : Nat) : Except IoError (Nat × Host) :=
  match h.network.connectFault? address with
  | some e => .error e.error
  | none =>
    match h.acceptor? ⟨address, tcpPort⟩ with
    | some id =>
      let (own, h) := h.fresh
      .ok (h.join id (SocketAddress.text ⟨.loopback, firstFreePort + own⟩))
    | none => .error Errno.connectionRefused.error

/-- Connects to the socket at a path, whoever it belongs to. -/
def dialPath (h : Host) (path : Path) : Except IoError (Nat × Host) := do
  let id ← Rendezvous.listenerAt h.machine.files h.listens path
  .ok (h.join id "")

/-- The channel to an endpoint at a place of a TCP network, from what dialling came to. -/
def tcpChannel {χ : Type} (e : EndpointName) (place : String) :
    Except IoError χ → Except LinkError (Channel χ)
  | .ok stream => .ok (.opened (e.text ++ "@" ++ place) stream)
  | .error cause =>
    .error (if cause.kind = .connectionRefused then .endpointMissing e.text place else .io cause)

/-- Connects to an endpoint as the properties say, as a client does. Mirrors
`ClientTransport.connect`. -/
def connect (h : Host) (props : Properties) (e : EndpointName) :
    Except LinkError (Channel Nat × Host) :=
  match props with
  | .tcp p =>
    match p.port? e with
    | none => .error (portMissing e)
    | some tcpPort =>
      match (hostAddress p.host).bind fun a => h.dial a tcpPort with
      | .ok (n, h) => (tcpChannel e (p.place tcpPort) (.ok n)).map fun c => (c, h)
      | .error cause => (tcpChannel e (p.place tcpPort) (.error cause)).map fun c => (c, h)
  | .unixSocket p => do
    let id ← Rendezvous.locate h.machine.files h.machine.user h.listens p e
    let (n, h) := h.join id ""
    .ok (.opened e.text n, h)
  | .pipe _ => .error (.unsupported .winPipe)

/-- Adds a queue that connects by some properties. -/
def addQueue (h : Host) (props : Properties) : Nat × Host :=
  let (id, h) := h.fresh
  (id, { h with queues := h.queues ++ [⟨id, props, .start⟩] })

theorem listen_pipe (h : Host) (p : PipeProperties) (service : Service Surroundings) :
    h.listen (.pipe p) service = (.error (.unsupported .winPipe), h) := rfl

theorem connect_pipe (h : Host) (p : PipeProperties) (e : EndpointName) :
    h.connect (.pipe p) e = .error (.unsupported .winPipe) := rfl

theorem connect_tcp_missing (h : Host) {p : TcpProperties} {e : EndpointName}
    (hp : p.port? e = none) : h.connect (.tcp p) e = .error (portMissing e) := by
  simp [connect, hp]

end CommandLink.Host
