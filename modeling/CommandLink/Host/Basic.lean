import CommandLink.AcceptLoop
import CommandLink.Agent.Builtin
import CommandLink.Link
import CommandLink.Network
import CommandLink.Rendezvous
import CommandLink.RequestQueue
/-!
# A host

A machine with everything on it that takes part in the link: listeners with their peers, peers that
follow a script, queues, and the connections between them. What was seen on it is noted in order.

Results:
* `link_setLink`: a change to one connection leaves the others alone.
-/
namespace CommandLink

/-- Something seen on a host. -/
inductive Seen where
  /-- A receiver was called. -/
  | call (r : Request)
  /-- A scripted peer got a frame on one of its connections, counted from 0. -/
  | frame (peer : String) (connection : Nat) (payload : Bytes)
  deriving DecidableEq

/-- What surrounds the receivers of a service. -/
structure Surroundings where
  agent : AgentState
  seen : List Seen

namespace Surroundings

/-- The part that the receivers of an agent act on. -/
def agentPart : Part Surroundings AgentState := ⟨Surroundings.agent, fun a s => { s with agent := a }⟩

/-- Notes that a receiver is called. -/
def note (r : Request) (s : Surroundings) : Surroundings :=
  { s with seen := s.seen ++ [.call r] }

end Surroundings

/-- A listener and the service behind it. -/
structure Listening where
  id : Nat
  address : ListenAddress
  service : Service Surroundings
  pool : VmPool
  loop : AcceptLoop Nat
  /-- Connections that wait to be taken in, with the addresses of the peers. -/
  backlog : List (Nat × String)

/-- What a scripted peer does about one frame. -/
structure Reaction where
  write : Bytes
  hangUp : Bool
  deriving Repr, DecidableEq

structure ScriptedConnection where
  link : Nat
  index : Nat
  reactions : List Reaction
  intake : Frame.Intake

/-- A peer that reacts to frames by a script for each connection, and listens no more once the last
script is given out. -/
structure ScriptedPeer where
  id : Nat
  name : String
  tcpPort : Option Nat
  scripts : List (List Reaction)
  accepted : Nat
  backlog : List Nat
  connections : List ScriptedConnection

namespace ScriptedPeer

def listens (p : ScriptedPeer) : Bool := !p.scripts.isEmpty

def setConnection (p : ScriptedPeer) (c : ScriptedConnection) : ScriptedPeer :=
  { p with connections := p.connections.map fun d => if d.index = c.index then c else d }

def dropConnection (p : ScriptedPeer) (c : ScriptedConnection) : ScriptedPeer :=
  { p with connections := p.connections.filter fun d => d.index ≠ c.index }

end ScriptedPeer

/-- A queue with the properties by which it connects. -/
structure Queueing where
  id : Nat
  properties : Properties
  queue : RequestQueue Nat

structure Host where
  machine : Machine
  network : Network
  links : List (Nat × Link)
  listeners : List Listening
  scripted : List ScriptedPeer
  queues : List Queueing
  /-- The next number for anything that needs one. -/
  next : Nat
  seen : List Seen
  notices : List Notice

namespace Host

def onMachine (m : Machine) : Host := ⟨m, .down, [], [], [], [], 1, [], []⟩

def fresh (h : Host) : Nat × Host := (h.next, { h with next := h.next + 1 })

/-- The first port that is given to whoever wants any; the others follow. -/
def firstFreePort : Nat := 49152

/-! ## Connections -/

def link (h : Host) (n : Nat) : Link := (h.links.lookup n).getD .fresh

def setLink (h : Host) (n : Nat) (l : Link) : Host :=
  { h with links := (n, l) :: h.links.filter fun x => x.1 ≠ n }

def closeEnd (h : Host) (n : Nat) (e : LinkEnd) : Host := h.setLink n ((h.link n).close e)

def finishEnd (h : Host) (n : Nat) (e : LinkEnd) : Host := h.setLink n ((h.link n).finish e)

/-- Reads at an end of a connection; none if there is nothing to read yet. -/
def readEnd (h : Host) (n : Nat) (e : LinkEnd) (size : Nat) :
    Option (Except IoError Frame.ReadStatus × Host) :=
  match (h.link n).read e size with
  | (.done s, l) => some (.ok s, h.setLink n l)
  | (.failed cause, l) => some (.error cause, h.setLink n l)
  | (.waits, _) => none

def writeEnd (h : Host) (n : Nat) (e : LinkEnd) (bytes : Bytes) : Frame.Acceptance × Host :=
  match (h.link n).write e bytes with
  | (.ok k, l) => (.took k, h.setLink n l)
  | (.error cause, l) => (.failed cause, h.setLink n l)

/-- Writes at an end as much as the other end takes, whose reader wants so many bytes; none if it
takes nothing yet. -/
def offerEnd (h : Host) (n : Nat) (e : LinkEnd) (wanted : Nat) (bytes : Bytes) :
    Option (Frame.Acceptance × Host) :=
  match (h.link n).offer e wanted bytes with
  | (.done k, l) => some (.took k, h.setLink n l)
  | (.failed cause, l) => some (.failed cause, h.setLink n l)
  | (.waits, _) => none

/-- Gives back something of a channel at an end. -/
def release (h : Host) (n : Nat) (e : LinkEnd) : Release → Host
  | .key _ => h
  | .shutDown => h.finishEnd n e
  | .stream => h.closeEnd n e

/-! ## Those who listen -/

def setListener (h : Host) (l : Listening) : Host :=
  { h with listeners := h.listeners.map fun x => if x.id = l.id then l else x }

def setScripted (h : Host) (p : ScriptedPeer) : Host :=
  { h with scripted := h.scripted.map fun x => if x.id = p.id then p else x }

def setQueue (h : Host) (q : Queueing) : Host :=
  { h with queues := h.queues.map fun x => if x.id = q.id then q else x }

def queue? (h : Host) (id : Nat) : Option Queueing := h.queues.find? fun q => q.id = id

def listener? (h : Host) (id : Nat) : Option Listening := h.listeners.find? fun l => l.id = id

/-- Whether somebody listens behind the socket that was bound under a number. -/
def listens (h : Host) (id : Nat) : Bool :=
  (h.listeners.any fun l => l.id = id) || h.scripted.any fun p => p.id = id && p.listens

/-- Where somebody listens for TCP connections, and under which number. Scripted peers do so on the
machine itself. -/
def tcpAddresses (h : Host) : List (SocketAddress × Nat) :=
  h.listeners.filterMap (fun l => match l.address with
    | .tcp a => some (a, l.id)
    | _ => none)
  ++ h.scripted.filterMap fun p =>
    if p.listens then p.tcpPort.map fun n => (⟨.loopback, n⟩, p.id) else none

/-- Whether a listener is in the way of another one. -/
def isTaken (h : Host) (a : SocketAddress) : Bool :=
  h.tcpAddresses.any fun l => l.1.tcpPort == a.tcpPort && l.1.host.clashes a.host

/-- Whoever takes in connections to an address. One to any address is one to the machine itself. -/
def acceptor? (h : Host) (a : SocketAddress) : Option Nat :=
  let host := if a.host.isAny then .loopback else a.host.unmapped
  (h.tcpAddresses.find? fun l =>
    l.1.tcpPort == a.tcpPort && (l.1.host.isAny || l.1.host.unmapped == host)).map Prod.snd

/-- How many bytes whoever has the server's end of a connection waits to read; none while it is at
something else. -/
def wantedAt (h : Host) (n : Nat) : Nat :=
  let byPeer := h.listeners.findSome? fun l => l.loop.peers.findSome? fun p =>
    match p.serving with
    | .reading i => if p.channel.stream = some n then some i.wanted else none
    | _ => none
  let byScript := h.scripted.findSome? fun p => p.connections.findSome? fun c =>
    if c.link = n then some c.intake.wanted else none
  (byPeer.or byScript).getD 0

/-- A new connection that waits to be taken in by whoever listens under a number. -/
def join (h : Host) (id : Nat) (address : String) : Nat × Host :=
  let (n, h) := h.fresh
  let h := h.setLink n .fresh
  (n, { h with
    listeners := h.listeners.map fun l =>
      if l.id = id then { l with backlog := l.backlog ++ [(n, address)] } else l
    scripted := h.scripted.map fun p =>
      if p.id = id then { p with backlog := p.backlog ++ [n] } else p })

theorem link_setLink (h : Host) (n m : Nat) (l : Link) :
    (h.setLink n l).link m = if m = n then l else h.link m := by
  simp only [link, setLink, List.lookup_cons]
  by_cases e : m = n
  · simp [e]
  · have hb : (m == n) = false := by simpa using e
    rw [hb, if_neg e]
    show ((h.links.filter fun x => x.1 ≠ n).lookup m).getD Link.fresh = _
    rw [lookup_filter_key fun k => decide (k ≠ n), if_pos (by simpa using e)]

end Host
end CommandLink
