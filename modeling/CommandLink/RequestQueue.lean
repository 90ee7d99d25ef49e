import CommandLink.Channel
import CommandLink.Lookup
import CommandLink.Request
import CommandLink.Response
/-!
# The request queue

Requests are worked off one at a time, in the order in which they were put. A channel that has
served its request stays cached for the next request to the same endpoint; before it is used again,
it must have nothing to read. Whatever goes wrong closes the channel and ends the request with a
response that says so.

A call to close an endpoint's channel takes a number and is then delivered; these are two steps, and
anything may happen between them. A request notes the last number taken when it goes in flight: only
calls with a greater number end it.

Results:
* `run_tell`: a listener that breaks down takes nothing from those behind it.
* `map_listener_notices`: every listener is told of the end once, in the order of adding.
* `put_stopped`: a queue that has stopped ends a request at once.
* `step_stopped`: nothing happens in a queue that has stopped.
* `lookup_closeCached`: closing what is cached for an endpoint leaves the other endpoints alone.
-/
namespace CommandLink

/-- How a request ended: its last progress, and the response to it, if there is one. -/
structure Ending where
  request : Request
  response : Option Response
  deriving DecidableEq

/-- One listener is told how a request ended. -/
structure Notice where
  listener : Listener
  request : Request
  response : Option Response
  deriving DecidableEq

/-- A listener broke down over what it was told. -/
structure Breakdown where
  listener : Listener
  deriving DecidableEq

/-- What telling listeners comes to: one of them may break down, and what was told stays told. -/
abbrev Telling := ExceptT Breakdown (StateM (List Notice))

theorem Telling.run_bind_ok {α β : Type} {x : Telling α} {f : α → Telling β} {a : α}
    {told told' : List Notice} (h : x.run.run told = (.ok a, told')) :
    (x >>= f).run.run told = (f a).run.run told' := by
  rw [ExceptT.run_bind, StateT.run_bind, h]
  rfl

namespace Ending

/-- A request that was delivered or answered. Mirrors `Request.complete`. -/
def completed (r : Request) (response : Option Response) : Ending :=
  ⟨{ r with progress := .completed }, response⟩

/-- A request that something went wrong with. Mirrors `Request.fail`. -/
def failed (r : Request) (response : Response) : Ending :=
  ⟨{ r with progress := .failed }, some response⟩

/-- One listener is told, and may break down over it. Mirrors `fire_complete`. -/
def fire (e : Ending) (l : Listener) : Telling Unit := do
  modify fun told => told ++ [⟨l, e.request, e.response⟩]
  if l.breaksDown then throw ⟨l⟩

/-- One listener is told, and a breakdown goes no further. Mirrors one round of `finish`. -/
def fireCaught (e : Ending) (l : Listener) : Telling (List Breakdown) :=
  tryCatch (do e.fire l; pure []) fun b => pure [b]

/-- Listeners are told one after another. Gives the breakdowns over it. Mirrors `Request.finish`. -/
def tell (e : Ending) : List Listener → Telling (List Breakdown)
  | [] => pure []
  | l :: ls => do
    let caught ← e.fireCaught l
    return caught ++ (← e.tell ls)

/-- What the listeners are told. -/
def notices (e : Ending) : List Notice := ((e.tell e.request.listeners).run.run []).2

theorem run_fireCaught (e : Ending) (l : Listener) (told : List Notice) :
    (e.fireCaught l).run.run told
      = (.ok (if l.breaksDown then [⟨l⟩] else []), told ++ [⟨l, e.request, e.response⟩]) := by
  obtain ⟨id, breaksDown⟩ := l
  cases breaksDown <;> rfl

/-- No breakdown gets out, and whoever breaks down, everybody is told. -/
theorem run_tell (e : Ending) (ls : List Listener) (told : List Notice) :
    (e.tell ls).run.run told = (.ok ((ls.filter Listener.breaksDown).map Breakdown.mk),
      told ++ ls.map fun l => ⟨l, e.request, e.response⟩) := by
  induction ls generalizing told with
  | nil => exact congrArg _ (List.append_nil told).symm
  | cons l ls ih =>
    rw [tell, Telling.run_bind_ok (e.run_fireCaught l told), Telling.run_bind_ok (ih _),
      List.filter_cons, List.map_cons]
    split <;> exact congrArg (Prod.mk _) (List.append_assoc ..)

theorem notices_eq (e : Ending) :
    e.notices = e.request.listeners.map fun l => ⟨l, e.request, e.response⟩ := by
  rw [notices, run_tell, List.nil_append]

theorem mem_notices {e : Ending} {n : Notice} : n ∈ e.notices ↔
    n.listener ∈ e.request.listeners ∧ n.request = e.request ∧ n.response = e.response := by
  rw [notices_eq, List.mem_map]
  constructor
  · rintro ⟨l, hl, rfl⟩
    exact ⟨hl, rfl, rfl⟩
  · rintro ⟨hl, hrequest, hresponse⟩
    exact ⟨_, hl, by rw [← hrequest, ← hresponse]⟩

theorem map_listener_notices (e : Ending) : e.notices.map Notice.listener = e.request.listeners := by
  simp [notices_eq, Function.comp_def]

end Ending

/-- A call to close the channel to an endpoint, with its place among all such calls, from 1. -/
structure CloseCall where
  endpoint : EndpointName
  number : Nat
  deriving DecidableEq

/-- What the queue is doing. Once a request is in flight, it carries the number of the last close
call before. -/
inductive QueuePhase (χ : Type) where
  | idle
  /-- Works off the close calls from before the request. -/
  | draining (r : Request) (since : Nat)
  /-- Looks whether a cached channel can be used again. -/
  | probing (r : Request) (since : Nat) (c : Channel χ)
  | connecting (r : Request) (since : Nat)
  | sending (r : Request) (since : Nat) (c : Channel χ) (o : Frame.Outgoing)
  | awaiting (r : Request) (since : Nat) (c : Channel χ) (i : Frame.Intake)
  | stopped

/-- A queue over channels with streams of type `χ`. -/
structure RequestQueue (χ : Type) where
  phase : QueuePhase χ
  /-- Requests that wait for their turn. -/
  requests : List Request
  /-- Close calls that were delivered. -/
  calls : List CloseCall
  /-- Whether nothing more will be put. -/
  sealed : Bool
  /-- The last number that a close call took. -/
  taken : Nat
  cache : List (EndpointName × Channel χ)

/-- What a queue does to the outside. -/
inductive QueueAct (χ : Type) where
  /-- Something of a channel is given back. -/
  | release (stream : χ) (r : Release)
  | ended (e : Ending)

/-- What can happen to a queue: its own turn, or what it waited for came to something. -/
inductive QueueEvent (χ : Type) where
  | turn
  | probed (s : Except IoError Frame.ReadStatus)
  | connected (c : Except LinkError (Channel χ))
  | wrote (a : Frame.Acceptance)
  | read (s : Except IoError Frame.ReadStatus)

namespace RequestQueue
variable {χ : Type}

def start : RequestQueue χ := ⟨.idle, [], [], false, 0, []⟩

/-- A queue that nobody works off any more. -/
def stopped : RequestQueue χ := ⟨.stopped, [], [], false, 0, []⟩

def isStopped (q : RequestQueue χ) : Bool :=
  match q.phase with
  | .stopped => true
  | _ => false

/-! ## What callers do -/

def stoppedResponse : Response := .exception "request queue is stopped"

/-- Puts a request behind the others. Mirrors `put_request`. -/
def put (q : RequestQueue χ) (r : Request) : RequestQueue χ × List (QueueAct χ) :=
  if q.isStopped then (q, [.ended (.failed r stoppedResponse)])
  else ({ q with requests := q.requests ++ [{ r with progress := .enqueued }] }, [])

/-- The first half of a close call: it takes its number. Mirrors the counting in `close_channel`. -/
def takeNumber (q : RequestQueue χ) : Nat × RequestQueue χ :=
  (q.taken + 1, { q with taken := q.taken + 1 })

/-- The second half of a close call: it is delivered. Mirrors the sending in `close_channel`. -/
def deliver (q : RequestQueue χ) (c : CloseCall) : RequestQueue χ :=
  if q.isStopped then q else { q with calls := q.calls ++ [c] }

/-- Nothing more will be put: the queue stops once everything is done. Mirrors
`RequestQueue.shutdown`. -/
def shutdown (q : RequestQueue χ) : RequestQueue χ := { q with sealed := true }

/-! ## What the queue does -/

/-- A channel is closed. -/
def closing (c : Channel χ) : List (QueueAct χ) :=
  match c.stream with
  | some s => c.close.2.map (.release s)
  | none => []

/-- A channel is let go of. -/
def lettingGo (c : Channel χ) : List (QueueAct χ) :=
  match c.stream with
  | some s => c.letGo.map (.release s)
  | none => []

/-- Closes the channels that are cached for an endpoint. Mirrors `close_cached`. -/
def closeCached (q : RequestQueue χ) (e : EndpointName) : RequestQueue χ × List (QueueAct χ) :=
  let (there, others) := q.cache.partition fun c => c.1 = e
  ({ q with cache := others }, there.flatMap fun c => closing c.2)

/-- Ends the request in flight, with what else that does. -/
def endWith (q : RequestQueue χ) (acts : List (QueueAct χ)) (e : Ending) :
    RequestQueue χ × List (QueueAct χ) :=
  ({ q with phase := .idle }, acts ++ [.ended e])

/-- Closes the channel of the request in flight, which fails. -/
def failOver (q : RequestQueue χ) (c : Channel χ) (r : Request) (response : Response) :
    RequestQueue χ × List (QueueAct χ) :=
  q.endWith (closing c) (.failed r response)

/-- Keeps the channel of the request in flight, which is completed. -/
def completeOver (q : RequestQueue χ) (c : Channel χ) (r : Request) (response : Option Response) :
    RequestQueue χ × List (QueueAct χ) :=
  { q with cache := (r.destination, c) :: q.cache }.endWith [] (.completed r response)

/-- Begins to send a request over a channel. -/
def sendOver (q : RequestQueue χ) (r : Request) (since : Nat) (c : Channel χ) :
    RequestQueue χ × List (QueueAct χ) :=
  match Frame.Outgoing.start r.encode with
  | .ok o => ({ q with phase := .sending r since c o }, [])
  | .error e => q.failOver c r (.exception e.message)

/-- The whole frame of a request was written. -/
def sent (q : RequestQueue χ) (r : Request) (since : Nat) (c : Channel χ) :
    RequestQueue χ × List (QueueAct χ) :=
  match r.mode with
  | .noResponse => q.completeOver c r none
  | .response => ({ q with phase := .awaiting r since c .start }, [])

def closedInFlight : Response := .exception "channel closed while the request was in flight"

def closedByPeer : Response := .exception "peer closed the channel before responding"

/-- What came back ends the request. A channel is kept only behind a response that can be read.
Mirrors the end of `process`. -/
def received (q : RequestQueue χ) (r : Request) (c : Channel χ) :
    Except LinkError (Option Bytes) → RequestQueue χ × List (QueueAct χ)
  | .ok (some payload) =>
    match Response.decode payload with
    | .ok response => q.completeOver c r (some response)
    | .error e => q.failOver c r (.error ("malformed response: " ++ e.message))
  | .ok none => q.failOver c r closedByPeer
  | .error e => q.failOver c r (.exception e.message)

/-- Everything is done: the cached channels are closed. Mirrors the end of `run`. -/
def stop (q : RequestQueue χ) : RequestQueue χ × List (QueueAct χ) :=
  ({ q with phase := .stopped, calls := [], cache := [] },
    q.cache.flatMap fun c => closing c.2)

/-- Whether the queue can go on by itself. -/
def hasTurn (q : RequestQueue χ) : Bool :=
  match q.phase with
  | .idle => !q.requests.isEmpty || q.sealed || !q.calls.isEmpty
  | .draining .. => true
  | .awaiting .. => !q.calls.isEmpty
  | _ => false

/-- The queue's own turn. Requests come before close calls, and while a request is awaiting its
response a close call for another endpoint, or one from before, does not disturb it. Mirrors `run`,
`process` up to `checkout`, and `wait_for_close`. -/
def turn (q : RequestQueue χ) : RequestQueue χ × List (QueueAct χ) :=
  match q.phase with
  | .idle =>
    match q.requests with
    | r :: rs =>
      ({ q with requests := rs, phase := .draining { r with progress := .inFlight } q.taken }, [])
    | [] =>
      if q.sealed then q.stop
      else match q.calls with
        | c :: cs => { q with calls := cs }.closeCached c.endpoint
        | [] => (q, [])
  | .draining r since =>
    match q.calls with
    | c :: cs => { q with calls := cs }.closeCached c.endpoint
    | [] =>
      match q.cache.lookup r.destination with
      | some c =>
        ({ q with
            phase := .probing r since c
            cache := q.cache.filter fun d => d.1 ≠ r.destination }, [])
      | none => ({ q with phase := .connecting r since }, [])
  | .awaiting r since c _ =>
    match q.calls with
    | d :: ds =>
      let q := { q with calls := ds }
      if d.endpoint = r.destination then
        if since < d.number then q.failOver c r closedInFlight else (q, [])
      else q.closeCached d.endpoint
    | [] => (q, [])
  | _ => (q, [])

/-- What an event makes of a queue. An event that the queue does not wait for changes nothing.
Mirrors `process` from `checkout` on, one wait after another. -/
def step (q : RequestQueue χ) (e : QueueEvent χ) : RequestQueue χ × List (QueueAct χ) :=
  match q.phase, e with
  | _, .turn => q.turn
  | .probing r since c, .probed (.ok .empty) => q.sendOver r since c
  | .probing r since c, .probed _ => ({ q with phase := .connecting r since }, closing c)
  | .connecting r since, .connected (.ok c) => q.sendOver r since c
  | .connecting r _, .connected (.error e) => q.endWith [] (.failed r (.exception e.message))
  | .sending r since c o, .wrote a =>
    match o.wrote c.name a with
    | .error e => q.failOver c r (.exception e.text)
    | .ok o =>
      if o.offered?.isSome then ({ q with phase := .sending r since c o }, []) else q.sent r since c
  | .awaiting r since c i, .read s =>
    match (i.read c.name s).1 with
    | .inl i => ({ q with phase := .awaiting r since c i }, [])
    | .inr outcome => q.received r c outcome
  | _, _ => (q, [])

/-- The channel of the request in flight. -/
def inUse (q : RequestQueue χ) : Option (Channel χ) :=
  match q.phase with
  | .probing _ _ c | .sending _ _ c _ | .awaiting _ _ c _ => some c
  | _ => none

/-- The queue is destroyed where it stands. Its channels are let go of, its requests are lost, and
nobody is told. -/
def abandon (q : RequestQueue χ) : RequestQueue χ × List (QueueAct χ) :=
  ({ q with phase := .stopped, requests := [], calls := [], cache := [] },
    q.inUse.toList.flatMap lettingGo ++ q.cache.flatMap fun c => lettingGo c.2)

theorem put_stopped {q : RequestQueue χ} (h : q.phase = .stopped) (r : Request) :
    q.put r = (q, [.ended (.failed r stoppedResponse)]) := by
  simp [put, isStopped, h]

theorem step_stopped {q : RequestQueue χ} (h : q.phase = .stopped) (e : QueueEvent χ) :
    q.step e = (q, []) := by
  cases e <;> simp [step, turn, h]

theorem lookup_closeCached (q : RequestQueue χ) {e e' : EndpointName} (h : e' ≠ e) :
    (q.closeCached e).1.cache.lookup e' = q.cache.lookup e' := by
  have := lookup_filter_key (fun x : EndpointName => !decide (x = e)) q.cache e'
  rw [if_pos (by simpa using h)] at this
  simpa [closeCached, List.partition_eq_filter_filter, Function.comp_def] using this

end RequestQueue
end CommandLink
