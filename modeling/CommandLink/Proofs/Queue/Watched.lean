import CommandLink.RequestQueue
/-!
# A queue under observation

A queue runs among callers, who put requests and close channels at any moment, and streams, of which
nothing is known but that a read gives no more than was asked for and a write takes no more than was
offered. What happens is noted: the log tells for which request and over which stream every byte
went, what was given back, and how each request ended.

Results:
* `Watched.Reachable`: the queues that come about, whatever is called and whatever the streams do.
-/
namespace CommandLink

/-- What is noted of a queue. What is done for a request bears the number of requests that ended
before it. -/
inductive Mark (χ : Type) where
  | put (r : Request)
  | probed (k : Nat) (x : χ) (s : Except IoError Frame.ReadStatus)
  /-- The stream is a new one, to an endpoint. -/
  | connected (k : Nat) (e : EndpointName) (x : χ)
  | wrote (k : Nat) (x : χ) (offered : Bytes) (a : Frame.Acceptance)
  | read (k : Nat) (x : χ) (s : Except IoError Frame.ReadStatus)
  | released (x : χ) (r : Release)
  /-- A request ended, over a stream if there was one. -/
  | ended (k : Nat) (via : Option χ) (e : Ending)

namespace Log
variable {χ : Type}

/-- The requests that were put. -/
def puts (log : List (Mark χ)) : List Request :=
  log.filterMap fun
    | .put r => some r
    | _ => none

/-- How requests ended, in that order. -/
def endings (log : List (Mark χ)) : List Ending :=
  log.filterMap fun
    | .ended _ _ e => some e
    | _ => none

/-- How many requests have ended: the number of the one that is next. -/
def number (log : List (Mark χ)) : Nat := (endings log).length

/-- What the listeners were told. -/
def notices (log : List (Mark χ)) : List Notice :=
  (endings log).flatMap Ending.notices

theorem puts_append (a b : List (Mark χ)) : puts (a ++ b) = puts a ++ puts b :=
  List.filterMap_append

theorem endings_append (a b : List (Mark χ)) : endings (a ++ b) = endings a ++ endings b :=
  List.filterMap_append

theorem mem_endings {log : List (Mark χ)} {e : Ending} (h : e ∈ endings log) :
    ∃ k x, .ended k x e ∈ log := by
  obtain ⟨m, hm, he⟩ := List.mem_filterMap.1 h
  cases m with
  | ended k x e' =>
    cases he
    exact ⟨k, x, hm⟩
  | _ => cases he

end Log

/-- A queue and what was noted of it. -/
structure Watched (χ : Type) where
  queue : RequestQueue χ
  log : List (Mark χ)

namespace Watched
variable {χ : Type}

/-- What an event that the queue waits for shows. -/
def shown (k : Nat) (q : RequestQueue χ) (e : QueueEvent χ) : List (Mark χ) :=
  match q.phase, e with
  | .probing _ _ c, .probed s => c.stream.toList.map (.probed k · s)
  | .connecting r _, .connected (.ok c) => c.stream.toList.map (.connected k r.destination ·)
  | .sending _ _ c o, .wrote a =>
    c.stream.toList.flatMap fun x => o.offered?.toList.map (.wrote k x · a)
  | .awaiting _ _ c _, .read s => c.stream.toList.map (.read k · s)
  | _, _ => []

/-- The stream that the request in flight has. -/
def via? (q : RequestQueue χ) (e : QueueEvent χ) : Option χ :=
  match q.phase, e with
  | .connecting _ _, .connected (.ok c) => c.stream
  | _, _ => q.inUse.bind Channel.stream

/-- What a queue does, as it is noted. -/
def marked (k : Nat) (via : Option χ) : QueueAct χ → Mark χ
  | .release x r => .released x r
  | .ended e => .ended k via e

/-- A caller puts a request. -/
def put (w : Watched χ) (r : Request) : Watched χ :=
  ⟨(w.queue.put r).1, w.log ++ .put r :: (w.queue.put r).2.map (marked (Log.number w.log) none)⟩

/-- Something happens that the queue waits for, or it takes its turn. -/
def event (w : Watched χ) (e : QueueEvent χ) : Watched χ :=
  ⟨(w.queue.step e).1, w.log ++ shown (Log.number w.log) w.queue e
    ++ (w.queue.step e).2.map (marked (Log.number w.log) (via? w.queue e))⟩

/-- What can happen: the queue's turn, and what it waits for. A connection is a stream that was not
there before; a write takes no more than what was offered and a read gives no more than what was
wanted. -/
def Fits (w : Watched χ) (e : QueueEvent χ) : Prop :=
  match w.queue.phase, e with
  | _, .turn => True
  | .probing _ _ _, .probed _ => True
  | .connecting _ _, .connected (.ok c) =>
    ∃ x, c.stream = some x ∧ ∀ k e, .connected k e x ∉ w.log
  | .connecting _ _, .connected (.error _) => True
  | .sending _ _ _ o, .wrote (.took n) => ∀ bs, o.offered? = some bs → n ≤ bs.length
  | .sending _ _ _ _, .wrote (.failed _) => True
  | .awaiting _ _ _ i, .read (.ok (.data bs)) => bs.length ≤ i.wanted
  | .awaiting _ _ _ _, .read _ => True
  | _, _ => False

/-- A queue after any calls and any behaviour of its streams. A close call has taken its number when
it is delivered. -/
inductive Reachable : Watched χ → Prop
  | start : Reachable ⟨.start, []⟩
  | put {w : Watched χ} (before : Reachable w) (r : Request) : Reachable (w.put r)
  | takeNumber {w : Watched χ} (before : Reachable w) :
      Reachable { w with queue := w.queue.takeNumber.2 }
  | deliver {w : Watched χ} (before : Reachable w) (c : CloseCall)
      (taken : c.number ≤ w.queue.taken) : Reachable { w with queue := w.queue.deliver c }
  | shutdown {w : Watched χ} (before : Reachable w) :
      Reachable { w with queue := w.queue.shutdown }
  | event {w : Watched χ} (before : Reachable w) (e : QueueEvent χ) (fits : w.Fits e) :
      Reachable (w.event e)

end Watched
end CommandLink
