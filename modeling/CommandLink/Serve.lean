import CommandLink.Receiver
import CommandLink.Frame.Intake
/-!
# Serving one peer

A peer sends frames; each is a request, whose receiver answers before the next frame is looked at. A
frame that is no request is answered with an error, and serving goes on, since the frames behind it
are still told apart. Serving ends when the peer is done, when reading or writing fails, when
something is too large to be a frame, or when it is told to stop.

Results:
* `answer_malformed`, `answer_silent`: what is answered with an error and what with nothing.
* `step_shutdown`: whatever is under way, being told to stop ends it.
* `step_ended`: what has ended stays so and changes nothing.
-/
namespace CommandLink

/-- Receivers that are served under an endpoint. -/
structure Service (σ : Type) where
  endpoint : EndpointName
  receivers : Registry σ

namespace Service
variable {σ : Type}

/-- What a frame is answered with. -/
inductive Answer where
  | response (r : Response)
  /-- The sender expects none. -/
  | silence
  /-- The receiver never answers. -/
  | never
  deriving Repr, DecidableEq

/-- The answer to a frame that is no request. -/
def refusal (cause : LinkError) : Response :=
  .error ("malformed request: " ++ cause.message)

/-- Answers the payload of a frame. The receiver is called also where no response is expected.
Mirrors `handle_frame`. -/
def answer (v : Service σ) (payload : Bytes) (s : σ) : Answer × σ :=
  match Request.decode payload v.endpoint with
  | .error cause => (.response (refusal cause), s)
  | .ok request =>
    match v.receivers.dispatch request s with
    | (none, s) => (.never, s)
    | (some response, s) =>
      match request.mode with
      | .response => (.response response, s)
      | .noResponse => (.silence, s)

end Service

/-- How far serving a peer has come. -/
inductive Serving where
  | reading (i : Frame.Intake)
  | answering (o : Frame.Outgoing)
  /-- A receiver was called that never answers. -/
  | stuck
  | ended

namespace Serving
variable {σ : Type}

/-- What can happen while a peer is served. -/
inductive Event where
  | read (r : Except IoError Frame.ReadStatus)
  | wrote (a : Frame.Acceptance)
  | shutdown

def start : Serving := .reading .start

/-- Begins to write a response; one that is too large for a frame ends the serving. -/
def respond (r : Response) : Serving :=
  match Frame.Outgoing.start r.encode with
  | .ok o => .answering o
  | .error _ => .ended

def afterAnswer : Service.Answer → Serving
  | .response r => respond r
  | .silence => start
  | .never => .stuck

/-- What an event makes of serving a peer over a channel of some name. An event that nothing waits
for changes nothing. Mirrors `serve_channel` and `serve_one`. -/
def step (v : Service σ) (channel : String) (c : Serving) (e : Event) (s : σ) : Serving × σ :=
  match c, e with
  | ended, _ => (ended, s)
  | _, .shutdown => (ended, s)
  | reading i, .read r =>
    match (i.read channel r).1 with
    | .inl i => (reading i, s)
    | .inr (.ok (some payload)) =>
      let (a, s) := v.answer payload s
      (afterAnswer a, s)
    | .inr _ => (ended, s)
  | answering o, .wrote a =>
    match o.wrote channel a with
    | .ok o => (if o.offered?.isSome then answering o else start, s)
    | .error _ => (ended, s)
  | c, _ => (c, s)

def isEnded : Serving → Bool
  | ended => true
  | _ => false

theorem step_ended (v : Service σ) (channel : String) (e : Event) (s : σ) :
    step v channel ended e s = (ended, s) := by
  cases e <;> rfl

theorem step_shutdown (v : Service σ) (channel : String) (c : Serving) (s : σ) :
    step v channel c .shutdown s = (ended, s) := by
  cases c <;> rfl

end Serving

namespace Service
variable {σ : Type}

theorem answer_malformed {v : Service σ} {payload : Bytes} {cause : LinkError}
    (h : Request.decode payload v.endpoint = .error cause) (s : σ) :
    v.answer payload s = (.response (refusal cause), s) := by
  simp [answer, h]

theorem answer_silent {v : Service σ} {payload : Bytes} {request : Request}
    (h : Request.decode payload v.endpoint = .ok request) (hm : request.mode = .noResponse)
    (s : σ) : ∀ r, (v.answer payload s).1 ≠ .response r := by
  intro r
  simp only [answer, h, hm]
  split <;> simp

end Service
end CommandLink
