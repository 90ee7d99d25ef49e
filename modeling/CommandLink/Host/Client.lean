import CommandLink.Host.Settle
/-!
# Clients of a host

What can be done on a host from outside: bytes and frames over a connection, requests through a
queue, and telling listeners and queues to stop. What is done through a queue lets everything happen
that follows from it.

Results:
* `submitted_abandoned`: a request that its queue lost is answered in its place.
-/
namespace CommandLink.Host

/-! ## Connections -/

/-- Writes bytes at the client's end of a connection. -/
def sendBytes (h : Host) (n : Nat) (bytes : Bytes) : Except IoError Unit × Host :=
  match h.writeEnd n .client bytes with
  | (.took _, h) => (.ok (), h)
  | (.failed e, h) => (.error e, h)

/-- Receives a frame at the client's end of a connection; none if it is not there yet. -/
def receiveAt (h : Host) (channel : String) (n : Nat) :
    Option (Except LinkError (Option Bytes)) × Host :=
  match (h.link n).receive channel .client with
  | (.done r, l) => (some r, h.setLink n l)
  | (.failed e, l) => (some (.error (.io e)), h.setLink n l)
  | (.waits, l) => (none, h.setLink n l)

/-- Writes bytes, writes no more, and receives frames until the other end closes. -/
def finishWith (h : Host) (n : Nat) (bytes : Bytes) : List Bytes × Host :=
  let h := ((h.sendBytes n bytes).2.finishEnd n .client).settle
  let l := h.link n
  let (payloads, l) := l.receiveAll "" .client ((l.incoming .client).length + 1)
  (payloads, h.setLink n l)

/-! ## Channels -/

/-- Sends a payload as a frame. -/
def sendOn (h : Host) (c : Channel Nat) (payload : Bytes) : Except LinkError Unit × Host :=
  match Frame.Outgoing.start payload with
  | .error e => (.error e, h)
  | .ok o =>
    match c.stream? with
    | .error e => (.error (.io e), h)
    | .ok n =>
      let (r, h) := h.sendBytes n o.left
      (Rendezvous.liftIo r, h)

def receiveOn (h : Host) (c : Channel Nat) : Option (Except LinkError (Option Bytes)) × Host :=
  match c.stream? with
  | .error e => (some (.error (.io e)), h)
  | .ok n => h.receiveAt c.name n

/-- Reads what is there, without waiting. -/
def tryReadOn (h : Host) (c : Channel Nat) (size : Nat) : Except IoError Frame.ReadStatus × Host :=
  match c.stream? with
  | .error e => (.error e, h)
  | .ok n => (h.readEnd n .client size).getD (.ok .empty, h)

def closeOn (h : Host) (c : Channel Nat) : Channel Nat × Host :=
  let (closed, releases) := c.close
  match c.stream with
  | some n => (closed, releases.foldl (fun h r => h.release n .client r) h)
  | none => (closed, h)

/-! ## Queues -/

/-- Changes a queue, with what that does to the outside. -/
def withQueue (h : Host) (id : Nat)
    (f : RequestQueue Nat → RequestQueue Nat × List (QueueAct Nat)) : Host :=
  match h.queue? id with
  | some q => h.applyQueue q (f q.queue)
  | none => h

def put (h : Host) (id : Nat) (r : Request) : Host :=
  (h.withQueue id fun q => q.put r).settle

/-- Closes a queue's channel to an endpoint. -/
def closeChannel (h : Host) (id : Nat) (e : EndpointName) : Host :=
  (h.withQueue id fun q =>
    let (n, q) := q.takeNumber
    (q.deliver ⟨e, n⟩, [])).settle

/-- Lets a queue do what is left and stop. -/
def shutdownQueue (h : Host) (id : Nat) : Host :=
  (h.withQueue id fun q => (q.shutdown, [])).settle

def abandonQueue (h : Host) (id : Nat) : Host :=
  (h.withQueue id fun q => q.abandon).settle

/-- The listener that whoever submits a request adds. -/
def submitter : Listener := ⟨"submitter", false⟩

/-- The response to a request that its queue lost. -/
def abandonedResponse : Response := .exception "request abandoned by the queue worker"

/-- What a submitted request came to, which only its submitter is told. None as long as the queue
may still end it. -/
def submitted (h : Host) (id : Nat) : Option (Option Response) × Host :=
  match h.notices.find? fun n => n.listener == submitter with
  | some n => (some n.response, { h with notices := h.notices.filter fun n => n.listener != submitter })
  | none =>
    match h.queue? id with
    | some q => (if q.queue.isStopped then some (some abandonedResponse) else none, h)
    | none => (some (some abandonedResponse), h)

/-- Submits a request and waits for what it comes to. Mirrors `RequestQueue.submit`. -/
def submit (h : Host) (id : Nat) (r : Request) : Option (Option Response) × Host :=
  (h.put id (r.addListener submitter)).submitted id

/-- Submits a request to a queue that is destroyed before it does anything about it. -/
def submitAndAbandon (h : Host) (id : Nat) (r : Request) : Option (Option Response) × Host :=
  ((h.withQueue id fun q => q.put (r.addListener submitter)).abandonQueue id).submitted id

/-! ## Listeners -/

/-- Tells a listener to stop, and lets it. -/
def stopListener (h : Host) (id : Nat) : Host :=
  match h.listener? id with
  | some l => (h.loopStep l .shutdown).settle
  | none => h

theorem submitted_abandoned {h : Host} {id : Nat} {q : Queueing}
    (hn : h.notices.find? (fun n => n.listener == submitter) = none) (hq : h.queue? id = some q)
    (hs : q.queue.isStopped = true) :
    (h.submitted id).1 = some (some abandonedResponse) := by
  simp [submitted, hn, hq, hs]

end CommandLink.Host
