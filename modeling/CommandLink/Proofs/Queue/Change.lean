import CommandLink.Proofs.Queue.Watched
import CommandLink.Proofs.Frame.Stream
/-!
# All that a queue can do

Everything that can happen to a queue under observation, case by case: what it does to the phase, to
the requests that wait and to the cached channels, and what is noted of it. Whoever shows that
something holds throughout looks at these cases and not at the queue's own steps.

Results:
* `poised_change`: what a queue waits for, it waits for over an open channel.
* `change_put`, `change_event`: whatever happens is one of the cases.
* `reachable_induction`: what every case keeps holds throughout.
-/
namespace CommandLink

namespace QueuePhase
variable {χ : Type}

/-- The request in flight. -/
def request? : QueuePhase χ → Option Request
  | draining r _ | probing r _ _ | connecting r _ | sending r _ _ _ | awaiting r _ _ _ => some r
  | idle | stopped => none

/-- A phase in which something is wanted of an open channel. -/
def Poised : QueuePhase χ → Prop
  | probing _ _ c => c.isOpen
  | sending _ _ c o => c.isOpen ∧ o.offered?.isSome
  | awaiting _ _ c i => c.isOpen ∧ i.Sound
  | idle | draining _ _ | connecting _ _ | stopped => True

end QueuePhase

namespace Log
variable {χ : Type}

/-- What is noted when a channel is closed. -/
def closing (c : Channel χ) : List (Mark χ) :=
  match c.stream with
  | some x => c.close.2.map (.released x)
  | none => []

theorem map_marked_closing (k : Nat) (via : Option χ) (c : Channel χ) :
    (RequestQueue.closing c).map (Watched.marked k via) = closing c := by
  simp only [RequestQueue.closing, closing]
  cases c.stream with
  | none => rfl
  | some x =>
    rw [List.map_map]
    rfl

theorem map_marked_flatMap_closing (k : Nat) (via : Option χ)
    (cs : List (EndpointName × Channel χ)) :
    (cs.flatMap fun c => RequestQueue.closing c.2).map (Watched.marked k via)
      = cs.flatMap fun c => closing c.2 := by
  rw [List.map_flatMap]
  simp only [map_marked_closing]

end Log

/-- What of a queue has to do with its requests and channels: all but the close calls. -/
structure Sight (χ : Type) where
  phase : QueuePhase χ
  requests : List Request
  cache : List (EndpointName × Channel χ)
  log : List (Mark χ)

/-- A queue under observation without its close calls. -/
def Watched.sight {χ : Type} (w : Watched χ) : Sight χ :=
  ⟨w.queue.phase, w.queue.requests, w.queue.cache, w.log⟩

namespace Sight
variable {χ : Type}

/-- The number of the request that is in flight or next. -/
def number (s : Sight χ) : Nat := Log.number s.log

structure Poised (s : Sight χ) : Prop where
  phase : s.phase.Poised
  cache : ∀ p ∈ s.cache, p.2.isOpen

/-- A channel is there for a request: the cached one, which is found to be quiet, or a new one. -/
inductive Reached (s : Sight χ) (r : Request) (since : Nat) (c : Channel χ) (x : χ) :
    Mark χ → Prop
  | again (hp : s.phase = .probing r since c) (hx : c.stream = some x) :
      Reached s r since c x (.probed s.number x (.ok .empty))
  | anew (hp : s.phase = .connecting r since) (hx : c.stream = some x)
      (fresh : ∀ k e, .connected k e x ∉ s.log) :
      Reached s r since c x (.connected s.number r.destination x)

/-- What goes wrong with a request that has a channel, as it is noted, and the response that says
so. -/
inductive Mishap (s : Sight χ) (r : Request) (c : Channel χ) (x : χ) :
    List (Mark χ) → Response → Prop
  | tooLarge {since : Nat} {m : Mark χ} {e : LinkError} (hr : Reached s r since c x m)
      (he : Frame.Outgoing.start r.encode = .error e) : Mishap s r c x [m] (.exception e.message)
  | unsent {since : Nat} {o : Frame.Outgoing} {bs : Bytes} {a : Frame.Acceptance} {e : IoError}
      (hp : s.phase = .sending r since c o) (hx : c.stream = some x)
      (hb : o.offered? = some bs) (hw : o.wrote c.name a = .error e)
      (ha : a.bytesTaken bs = []) : Mishap s r c x [.wrote s.number x bs a] (.exception e.text)
  | unanswered {since : Nat} {i : Frame.Intake} {p : Except IoError Frame.ReadStatus}
      {text : String} (hp : s.phase = .awaiting r since c i) (hx : c.stream = some x)
      (hi : ∀ q, q.length ≤ Frame.maxSize → i.taken ++ Frame.bytesRead p ≠ Frame.ofPayload q) :
      Mishap s r c x [.read s.number x p] (.exception text)
  | malformed {since : Nat} {i : Frame.Intake} {p : Except IoError Frame.ReadStatus}
      {payload : Bytes} {e : LinkError} (hp : s.phase = .awaiting r since c i)
      (hx : c.stream = some x) (hl : payload.length ≤ Frame.maxSize)
      (hi : i.taken ++ Frame.bytesRead p = Frame.ofPayload payload)
      (hd : Response.decode payload = .error e) :
      Mishap s r c x [.read s.number x p] (.error ("malformed response: " ++ e.message))
  | cancelled {since : Nat} {i : Frame.Intake} (hp : s.phase = .awaiting r since c i)
      (hx : c.stream = some x) : Mishap s r c x [] RequestQueue.closedInFlight

/-- All that can happen to a queue. -/
inductive Change (s : Sight χ) : Sight χ → Prop
  | same : Change s s
  | put (r : Request) (hp : s.phase ≠ .stopped) :
      Change s { s with
        requests := s.requests ++ [{ r with progress := .enqueued }]
        log := s.log ++ [.put r] }
  | refused (r : Request) (hp : s.phase = .stopped) :
      Change s { s with
        log := s.log ++ [.put r, .ended s.number none (.failed r RequestQueue.stoppedResponse)] }
  | began {r : Request} {rs : List Request} (since : Nat) (hp : s.phase = .idle)
      (hr : s.requests = r :: rs) :
      Change s { s with
        phase := .draining { r with progress := .inFlight } since
        requests := rs }
  | dropped (e : EndpointName) :
      Change s { s with
        cache := s.cache.filter fun c => ! decide (c.1 = e)
        log := s.log ++ (s.cache.filter fun c => c.1 = e).flatMap fun c => Log.closing c.2 }
  | stopped (hp : s.phase = .idle) (hr : s.requests = []) :
      Change s { s with
        phase := .stopped
        cache := []
        log := s.log ++ s.cache.flatMap fun c => Log.closing c.2 }
  | checkedOut {r : Request} {since : Nat} {c : Channel χ} (hp : s.phase = .draining r since)
      (hc : s.cache.lookup r.destination = some c) :
      Change s { s with
        phase := .probing r since c
        cache := s.cache.filter fun d => d.1 ≠ r.destination }
  | missing {r : Request} {since : Nat} (hp : s.phase = .draining r since)
      (hc : s.cache.lookup r.destination = none) :
      Change s { s with phase := .connecting r since }
  | stale {r : Request} {since : Nat} {c : Channel χ} {x : χ}
      {p : Except IoError Frame.ReadStatus} (hp : s.phase = .probing r since c)
      (hx : c.stream = some x) (hs : p ≠ .ok .empty) :
      Change s { s with
        phase := .connecting r since
        log := s.log ++ .probed s.number x p :: Log.closing c }
  | unreachable {r : Request} {since : Nat} (e : LinkError) (hp : s.phase = .connecting r since) :
      Change s { s with
        phase := .idle
        log := s.log ++ [.ended s.number none (.failed r (.exception e.message))] }
  | reached {r : Request} {since : Nat} {c : Channel χ} {x : χ} {m : Mark χ} {o : Frame.Outgoing}
      (hr : Reached s r since c x m) (ho : Frame.Outgoing.start r.encode = .ok o) :
      Change s { s with
        phase := .sending r since c o
        log := s.log ++ [m] }
  | advanced {r : Request} {since : Nat} {c : Channel χ} {x : χ} {o o' : Frame.Outgoing}
      {bs : Bytes} {a : Frame.Acceptance} (hp : s.phase = .sending r since c o)
      (hx : c.stream = some x) (hl : o.left = a.bytesTaken bs ++ o'.left) (ha : a.goesOn)
      (ho : o'.offered?.isSome) :
      Change s { s with
        phase := .sending r since c o'
        log := s.log ++ [.wrote s.number x bs a] }
  | delivered {r : Request} {since : Nat} {c : Channel χ} {x : χ} {o : Frame.Outgoing}
      {bs : Bytes} {a : Frame.Acceptance} (hp : s.phase = .sending r since c o)
      (hx : c.stream = some x) (hl : o.left = a.bytesTaken bs) (ha : a.goesOn)
      (hm : r.mode = .noResponse) :
      Change s { s with
        phase := .idle
        cache := (r.destination, c) :: s.cache
        log := s.log ++ [.wrote s.number x bs a, .ended s.number (some x) (.completed r none)] }
  | asked {r : Request} {since : Nat} {c : Channel χ} {x : χ} {o : Frame.Outgoing} {bs : Bytes}
      {a : Frame.Acceptance} (hp : s.phase = .sending r since c o) (hx : c.stream = some x)
      (hl : o.left = a.bytesTaken bs) (ha : a.goesOn) (hm : r.mode = .response) :
      Change s { s with
        phase := .awaiting r since c .start
        log := s.log ++ [.wrote s.number x bs a] }
  | heard {r : Request} {since : Nat} {c : Channel χ} {x : χ} {i i' : Frame.Intake}
      {p : Except IoError Frame.ReadStatus} (hp : s.phase = .awaiting r since c i)
      (hx : c.stream = some x) (hi : i'.Sound) (ht : i'.taken = i.taken ++ Frame.bytesRead p)
      (hs : Frame.goesOn p) :
      Change s { s with
        phase := .awaiting r since c i'
        log := s.log ++ [.read s.number x p] }
  | answered {r : Request} {since : Nat} {c : Channel χ} {x : χ} {i : Frame.Intake}
      {p : Except IoError Frame.ReadStatus} {payload : Bytes} {response : Response}
      (hp : s.phase = .awaiting r since c i) (hx : c.stream = some x)
      (hl : payload.length ≤ Frame.maxSize)
      (hi : i.taken ++ Frame.bytesRead p = Frame.ofPayload payload) (hs : Frame.goesOn p)
      (hd : Response.decode payload = .ok response) :
      Change s { s with
        phase := .idle
        cache := (r.destination, c) :: s.cache
        log := s.log ++ [.read s.number x p,
          .ended s.number (some x) (.completed r (some response))] }
  | failed {r : Request} {c : Channel χ} {x : χ} {marks : List (Mark χ)} {response : Response}
      (hm : Mishap s r c x marks response) :
      Change s { s with
        phase := .idle
        log := s.log ++ (marks ++ (Log.closing c
          ++ [.ended s.number (some x) (.failed r response)])) }

/-! ## Whatever happens is a change -/

theorem mem_of_lookup {cache : List (EndpointName × Channel χ)} {e : EndpointName} {c : Channel χ}
    (h : cache.lookup e = some c) : (e, c) ∈ cache := by
  obtain ⟨front, back, rfl, -⟩ := List.lookup_eq_some_iff.1 h
  simp

theorem Reached.isOpen {s : Sight χ} {r : Request} {since : Nat} {c : Channel χ} {x : χ}
    {m : Mark χ} (h : Reached s r since c x m) : c.isOpen := by
  cases h with
  | again _ hx => simp [Channel.isOpen, hx]
  | anew _ hx => simp [Channel.isOpen, hx]

theorem poised_change {s s' : Sight χ} (hs : s.Poised) (h : Change s s') : s'.Poised := by
  obtain ⟨hphase, hcache⟩ := hs
  cases h with
  | same => exact ⟨hphase, hcache⟩
  | put => exact ⟨hphase, hcache⟩
  | refused => exact ⟨hphase, hcache⟩
  | began => exact ⟨trivial, hcache⟩
  | dropped => exact ⟨hphase, fun p hp => hcache p (List.mem_filter.1 hp).1⟩
  | stopped => exact ⟨trivial, fun p hp => absurd hp (by simp)⟩
  | checkedOut _ hc =>
    exact ⟨hcache _ (mem_of_lookup hc), fun p hp => hcache p (List.mem_filter.1 hp).1⟩
  | missing => exact ⟨trivial, hcache⟩
  | stale => exact ⟨trivial, hcache⟩
  | unreachable => exact ⟨trivial, hcache⟩
  | reached hr ho => exact ⟨⟨hr.isOpen, Frame.Outgoing.offered?_isSome_start ho⟩, hcache⟩
  | advanced hp _ _ _ ho =>
    rw [hp] at hphase
    exact ⟨⟨hphase.1, ho⟩, hcache⟩
  | delivered hp =>
    rw [hp] at hphase
    refine ⟨trivial, fun p h => ?_⟩
    rcases List.mem_cons.1 h with rfl | h
    · exact hphase.1
    · exact hcache p h
  | asked hp =>
    rw [hp] at hphase
    exact ⟨⟨hphase.1, Frame.Intake.sound_start⟩, hcache⟩
  | heard hp _ hi =>
    rw [hp] at hphase
    exact ⟨⟨hphase.1, hi⟩, hcache⟩
  | answered hp =>
    rw [hp] at hphase
    refine ⟨trivial, fun p h => ?_⟩
    rcases List.mem_cons.1 h with rfl | h
    · exact hphase.1
    · exact hcache p h
  | failed => exact ⟨trivial, hcache⟩

end Sight

namespace Watched
variable {χ : Type} {w : Watched χ}

open Sight

theorem change_put (w : Watched χ) (r : Request) : Change w.sight (w.put r).sight := by
  by_cases hp : w.queue.phase = .stopped
  · have he : w.queue.put r = (w.queue, [.ended (.failed r RequestQueue.stoppedResponse)]) :=
      RequestQueue.put_stopped hp r
    simp only [put, he]
    exact .refused r hp
  · have hn : w.queue.isStopped = false := by
      unfold RequestQueue.isStopped
      split
      · next h => exact absurd h hp
      · rfl
    simp only [put, RequestQueue.put, hn, Bool.false_eq_true, if_false]
    exact .put r hp

theorem change_deliver (w : Watched χ) (c : CloseCall) :
    Change w.sight ({ w with queue := w.queue.deliver c } : Watched χ).sight := by
  unfold RequestQueue.deliver
  split
  · exact .same
  · exact .same

/-- A request fails over a channel whatever goes wrong. -/
theorem change_failOver {r : Request} {c : Channel χ} {x : χ} {marks : List (Mark χ)}
    {response : Response} (hm : Mishap w.sight r c x marks response) {q : RequestQueue χ}
    (hr : q.requests = w.queue.requests) (hc : q.cache = w.queue.cache) :
    Change w.sight ⟨(q.failOver c r response).1.phase, (q.failOver c r response).1.requests,
      (q.failOver c r response).1.cache, w.log ++ marks
        ++ (q.failOver c r response).2.map (marked w.sight.number (some x))⟩ := by
  have h := Change.failed hm
  simp only [RequestQueue.failOver, RequestQueue.endWith, List.map_append, Log.map_marked_closing,
    hr, hc, List.append_assoc]
  exact h

theorem change_sendOver {r : Request} {since : Nat} {c : Channel χ} {x : χ} {m : Mark χ}
    (hr : Reached w.sight r since c x m) :
    Change w.sight (⟨(w.queue.sendOver r since c).1, w.log ++ [m]
      ++ (w.queue.sendOver r since c).2.map (marked w.sight.number (some x))⟩ : Watched χ).sight := by
  unfold RequestQueue.sendOver
  cases ho : Frame.Outgoing.start r.encode with
  | ok o =>
    simp only [List.map_nil, List.append_nil]
    exact .reached hr ho
  | error e => exact change_failOver (.tooLarge hr ho) rfl rfl

theorem change_sent {r : Request} {since : Nat} {c : Channel χ} {x : χ} {o : Frame.Outgoing}
    {bs : Bytes} {a : Frame.Acceptance} (hp : w.queue.phase = .sending r since c o)
    (hx : c.stream = some x) (hl : o.left = a.bytesTaken bs) (ha : a.goesOn) :
    Change w.sight (⟨(w.queue.sent r since c).1, w.log ++ [.wrote w.sight.number x bs a]
      ++ (w.queue.sent r since c).2.map (marked w.sight.number (some x))⟩ : Watched χ).sight := by
  unfold RequestQueue.sent
  cases hm : r.mode with
  | noResponse =>
    simp only [RequestQueue.completeOver, RequestQueue.endWith, List.nil_append, List.map_cons,
      List.map_nil, List.append_assoc]
    exact .delivered hp hx hl ha hm
  | response =>
    simp only [List.map_nil, List.append_nil]
    exact .asked hp hx hl ha hm

theorem change_received {r : Request} {since : Nat} {c : Channel χ} {x : χ} {i : Frame.Intake}
    {p : Except IoError Frame.ReadStatus} {outcome : Except LinkError (Option Bytes)}
    (hp : w.queue.phase = .awaiting r since c i) (hx : c.stream = some x)
    (ho : (∃ q, outcome = .ok (some q) ∧ q.length ≤ Frame.maxSize
        ∧ i.taken ++ Frame.bytesRead p = Frame.ofPayload q ∧ Frame.goesOn p) ∨
      ((outcome = .ok none ∨ ∃ e, outcome = .error e)
        ∧ ∀ q, q.length ≤ Frame.maxSize → i.taken ++ Frame.bytesRead p ≠ Frame.ofPayload q)) :
    Change w.sight (⟨(w.queue.received r c outcome).1, w.log ++ [.read w.sight.number x p]
      ++ (w.queue.received r c outcome).2.map (marked w.sight.number (some x))⟩
        : Watched χ).sight := by
  rcases ho with ⟨q, rfl, hl, hi, hs⟩ | ⟨rfl | ⟨e, rfl⟩, hi⟩
  · simp only [RequestQueue.received]
    cases hd : Response.decode q with
    | ok response =>
      simp only [RequestQueue.completeOver, RequestQueue.endWith, List.nil_append, List.map_cons,
        List.map_nil, List.append_assoc]
      exact .answered hp hx hl hi hs hd
    | error e => exact change_failOver (.malformed hp hx hl hi hd) rfl rfl
  · exact change_failOver (.unanswered hp hx hi) rfl rfl
  · exact change_failOver (.unanswered hp hx hi) rfl rfl

theorem change_closeCached {q : RequestQueue χ} (e : EndpointName) (via : Option χ)
    (hq : q.phase = w.queue.phase ∧ q.requests = w.queue.requests ∧ q.cache = w.queue.cache) :
    Change w.sight (⟨(q.closeCached e).1, w.log
      ++ (q.closeCached e).2.map (marked w.sight.number via)⟩ : Watched χ).sight := by
  obtain ⟨hp, hr, hc⟩ := hq
  have h := Change.dropped (s := w.sight) e
  simp only [RequestQueue.closeCached, List.partition_eq_filter_filter,
    Log.map_marked_flatMap_closing, sight, hp, hr, hc]
  exact h

/-- A turn shows nothing. -/
theorem shown_turn (k : Nat) (q : RequestQueue χ) : shown k q .turn = [] := by
  unfold shown
  split <;> first | rfl | (next h => cases h)

theorem change_turn (hw : w.sight.Poised) : Change w.sight (w.event .turn).sight := by
  have hstep : w.queue.step .turn = w.queue.turn := by
    unfold RequestQueue.step
    split <;> first | rfl | (next h => cases h)
  simp only [event, shown_turn, hstep, List.append_nil]
  unfold RequestQueue.turn
  split
  · next hp =>
    split
    · next r rs hr =>
      simp only [List.map_nil, List.append_nil]
      exact Change.began (s := w.sight) _ hp hr
    · next hr =>
      split
      · simp only [RequestQueue.stop, Log.map_marked_flatMap_closing]
        exact Change.stopped (s := w.sight) hp hr
      · split
        · exact change_closeCached _ _ ⟨rfl, rfl, rfl⟩
        · simp only [List.map_nil, List.append_nil]
          exact .same
  · next r since hp =>
    split
    · exact change_closeCached _ _ ⟨rfl, rfl, rfl⟩
    · split
      · next c hc =>
        simp only [List.map_nil, List.append_nil]
        exact Change.checkedOut (s := w.sight) hp hc
      · next hc =>
        simp only [List.map_nil, List.append_nil]
        exact Change.missing (s := w.sight) hp hc
  · next r since c i hp =>
    split
    · next d ds hcalls =>
      split
      · split
        · have hpoised := hw.phase
          rw [show w.sight.phase = _ from hp] at hpoised
          obtain ⟨x, hx⟩ := Option.isSome_iff_exists.1 hpoised.1
          have hvia : via? w.queue .turn = some x := by
            simp only [via?, hp, RequestQueue.inUse, Option.bind_some, hx]
          have hm : Mishap w.sight r c x [] RequestQueue.closedInFlight := .cancelled hp hx
          have h := change_failOver hm (q := { w.queue with calls := ds }) rfl rfl
          rw [List.append_nil] at h
          rw [hvia]
          exact h
        · simp only [List.map_nil, List.append_nil]
          exact .same
      · exact change_closeCached _ _ ⟨rfl, rfl, rfl⟩
    · simp only [List.map_nil, List.append_nil]
      exact .same
  · simp only [List.map_nil, List.append_nil]
    exact .same

theorem change_probed (hw : w.sight.Poised) {r : Request} {since : Nat} {c : Channel χ}
    (hp : w.queue.phase = .probing r since c) (s : Except IoError Frame.ReadStatus) :
    Change w.sight (w.event (.probed s)).sight := by
  have hpoised := hw.phase
  rw [show w.sight.phase = _ from hp] at hpoised
  obtain ⟨x, hx⟩ := Option.isSome_iff_exists.1 hpoised
  have hshown : shown (Log.number w.log) w.queue (.probed s) = [.probed w.sight.number x s] := by
    simp only [shown, hp, hx]
    rfl
  have hvia : via? w.queue (.probed s) = some x := by
    simp only [via?, hp, RequestQueue.inUse, Option.bind_some, hx]
  by_cases hs : s = .ok .empty
  · subst hs
    have hstep : w.queue.step (.probed (.ok .empty)) = w.queue.sendOver r since c := by
      simp only [RequestQueue.step, hp]
    simp only [event, hshown, hvia, hstep]
    exact change_sendOver (.again hp hx)
  · have hstep : w.queue.step (.probed s)
        = ({ w.queue with phase := .connecting r since }, RequestQueue.closing c) := by
      simp only [RequestQueue.step, hp]
    simp only [event, hshown, hstep, Log.map_marked_closing, List.append_assoc,
      List.singleton_append]
    exact Change.stale (s := w.sight) hp hx hs

theorem change_connected {r : Request} {since : Nat} (hp : w.queue.phase = .connecting r since)
    (c : Except LinkError (Channel χ)) (hc : w.Fits (.connected c)) :
    Change w.sight (w.event (.connected c)).sight := by
  cases c with
  | ok c =>
    simp only [Fits, hp] at hc
    obtain ⟨x, hx, hfresh⟩ := hc
    have hshown : shown (Log.number w.log) w.queue (.connected (.ok c))
        = [.connected w.sight.number r.destination x] := by
      simp only [shown, hp, hx]
      rfl
    have hvia : via? w.queue (.connected (.ok c)) = some x := by simp only [via?, hp, hx]
    have hstep : w.queue.step (.connected (.ok c)) = w.queue.sendOver r since c := by
      simp only [RequestQueue.step, hp]
    simp only [event, hshown, hvia, hstep]
    exact change_sendOver (.anew hp hx hfresh)
  | error e =>
    have hstep : w.queue.step (.connected (.error e))
        = w.queue.endWith [] (.failed r (.exception e.message)) := by
      simp only [RequestQueue.step, hp]
    have hvia : via? w.queue (.connected (.error e)) = none := by
      simp only [via?, hp, RequestQueue.inUse, Option.bind_none]
    have hshown : shown (Log.number w.log) w.queue (.connected (.error e)) = [] := by
      simp only [shown, hp]
    simp only [event, hshown, hvia, hstep, RequestQueue.endWith, List.append_nil]
    exact Change.unreachable (s := w.sight) e hp

theorem change_wrote (hw : w.sight.Poised) {r : Request} {since : Nat} {c : Channel χ}
    {o : Frame.Outgoing} (hp : w.queue.phase = .sending r since c o) (a : Frame.Acceptance)
    (ha : w.Fits (.wrote a)) : Change w.sight (w.event (.wrote a)).sight := by
  have hpoised := hw.phase
  rw [show w.sight.phase = _ from hp] at hpoised
  obtain ⟨x, hx⟩ := Option.isSome_iff_exists.1 hpoised.1
  obtain ⟨bs, hb⟩ := Option.isSome_iff_exists.1 hpoised.2
  have hshown : shown (Log.number w.log) w.queue (.wrote a) = [.wrote w.sight.number x bs a] := by
    simp only [shown, hp, hx, hb]
    rfl
  have hvia : via? w.queue (.wrote a) = some x := by
    simp only [via?, hp, RequestQueue.inUse, Option.bind_some, hx]
  have hn : ∀ n, a = .took n → n ≤ bs.length := fun n he => by
    subst he
    simp only [Fits, hp] at ha
    exact ha bs hb
  simp only [event, hshown, hvia, RequestQueue.step, hp]
  rcases Frame.Outgoing.wrote_offered c.name hb hn with ⟨o', ho, hl, hgo⟩ | ⟨e, he, ht⟩
  · simp only [ho]
    split
    · next hs =>
      simp only [List.map_nil, List.append_nil]
      exact Change.advanced (s := w.sight) hp hx hl hgo hs
    · next hs =>
      have hnil : o'.left = [] := Frame.Outgoing.left_eq_nil.2 (by simpa using hs)
      rw [hnil, List.append_nil] at hl
      exact change_sent hp hx hl hgo
  · simp only [he]
    exact change_failOver (.unsent hp hx hb he ht) rfl rfl

theorem change_read (hw : w.sight.Poised) {r : Request} {since : Nat} {c : Channel χ}
    {i : Frame.Intake} (hp : w.queue.phase = .awaiting r since c i)
    (s : Except IoError Frame.ReadStatus) (hs : w.Fits (.read s)) :
    Change w.sight (w.event (.read s)).sight := by
  have hpoised := hw.phase
  rw [show w.sight.phase = _ from hp] at hpoised
  obtain ⟨x, hx⟩ := Option.isSome_iff_exists.1 hpoised.1
  have hshown : shown (Log.number w.log) w.queue (.read s) = [.read w.sight.number x s] := by
    simp only [shown, hp, hx]
    rfl
  have hvia : via? w.queue (.read s) = some x := by
    simp only [via?, hp, RequestQueue.inUse, Option.bind_some, hx]
  have hb : (Frame.bytesRead s).length ≤ i.wanted := by
    match s, hs with
    | .error e, _ => simp [Frame.bytesRead]
    | .ok .empty, _ => simp [Frame.bytesRead]
    | .ok .eof, _ => simp [Frame.bytesRead]
    | .ok (.data bs), hs =>
      simp only [Fits, hp] at hs
      exact hs
  simp only [event, hshown, hvia, RequestQueue.step, hp]
  rcases Frame.Intake.read_wanted c.name hpoised.2 hb with ⟨i', he, hi, ht, hgo⟩
      | ⟨p, he, hl, ht, hgo⟩ | ⟨he, hn⟩
  · simp only [he, List.map_nil, List.append_nil]
    exact Change.heard (s := w.sight) hp hx hi ht hgo
  · simp only [he]
    exact change_received hp hx (.inl ⟨p, rfl, hl, ht, hgo⟩)
  · rcases he with he | ⟨e, he⟩
    · simp only [he]
      exact change_received hp hx (.inr ⟨.inl rfl, hn⟩)
    · simp only [he]
      exact change_received hp hx (.inr ⟨.inr ⟨e, rfl⟩, hn⟩)

theorem change_event (hw : w.sight.Poised) (e : QueueEvent χ) (he : w.Fits e) :
    Change w.sight (w.event e).sight := by
  cases e with
  | turn => exact change_turn hw
  | probed s =>
    cases hp : w.queue.phase with
    | probing r since c => exact change_probed hw hp s
    | _ => simp [Fits, hp] at he
  | connected c =>
    cases hp : w.queue.phase with
    | connecting r since => exact change_connected hp c he
    | _ => simp [Fits, hp] at he
  | wrote a =>
    cases hp : w.queue.phase with
    | sending r since c o => exact change_wrote hw hp a he
    | _ => simp [Fits, hp] at he
  | read s =>
    cases hp : w.queue.phase with
    | awaiting r since c i => exact change_read hw hp s he
    | _ => simp [Fits, hp] at he

theorem poised_reachable (h : Reachable w) : w.sight.Poised := by
  induction h with
  | start => exact ⟨trivial, fun p hp => absurd hp (by simp [sight, RequestQueue.start])⟩
  | put _ r ih => exact poised_change ih (change_put _ r)
  | takeNumber _ ih => exact ih
  | deliver _ c _ ih => exact poised_change ih (change_deliver _ c)
  | shutdown _ ih => exact ih
  | event _ e fits ih => exact poised_change ih (change_event ih e fits)

/-- What holds at first and is kept by every change of a queue holds of every queue. -/
theorem reachable_induction {P : Sight χ → Prop} (start : P ⟨.idle, [], [], []⟩)
    (step : ∀ (w : Watched χ) s', w.Reachable → P w.sight → Change w.sight s' → P s')
    (h : Reachable w) : P w.sight := by
  induction h with
  | start => exact start
  | put before r ih => exact step _ _ before ih (change_put _ r)
  | takeNumber _ ih => exact ih
  | deliver before c _ ih => exact step _ _ before ih (change_deliver _ c)
  | shutdown _ ih => exact ih
  | event before e fits ih =>
    exact step _ _ before ih (change_event (poised_reachable before) e fits)

end Watched
end CommandLink
