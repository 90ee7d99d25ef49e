import CommandLink.Proofs.Closing.Dated
import CommandLink.Proofs.Queue.Books
import CommandLink.Proofs.Queue.Completion
/-!
# Close calls meet what they are meant for

A request fails over a close call only if the call is for the endpoint of the request and took its
number after the request went in flight; and a call of which this is true ends the request at once
when it is consumed while the response is awaited. Every other call that is consumed meanwhile leaves
the request alone.

Results:
* `says_of_ended`: an error from outside fails a request in the words of a close call only if these
  words are its own.
* `event_struck`, `event_overlooked`, `event_spared`: what becomes of a call that is consumed while a
  response is awaited.
* `closes_are_aimed`: all that can be relied on about close calls and the request in flight.
-/
namespace CommandLink

namespace QueueEvent
variable {χ : Type}

/-- The words of an error that comes from outside. -/
def words? : QueueEvent χ → Option String
  | .connected (.error e) => some e.message
  | .wrote (.failed e) => some e.text
  | .read (.error e) => some e.text
  | _ => none

/-- The event is an error that is worded like a request's end by a close call. -/
def SaysClosed (e : QueueEvent χ) : Prop :=
  e.words?.map Response.exception = some RequestQueue.closedInFlight

end QueueEvent

namespace RequestQueue
variable {χ : Type} {q : RequestQueue χ}

/-! ## Words -/

/-- A text that ends otherwise is not that of a close call. -/
theorem exception_ne_closedInFlight (front : String) {back : String} {c : Char}
    (hc : back.toList.getLast? = some c) (hne : c ≠ 't') :
    Response.exception (front ++ back) ≠ closedInFlight := by
  intro h
  have htext : front ++ back = "channel closed while the request was in flight" :=
    Option.some.inj (congrArg Response.message h)
  have hlast := congrArg (fun s : String => s.toList.getLast?) htext
  rw [String.toList_append, List.getLast?_append, hc] at hlast
  exact hne (Option.some.inj hlast)

theorem ended_failOver {c : Channel χ} {r : Request} {response : Response} {e : Ending}
    (h : .ended e ∈ (q.failOver c r response).2) : e = .failed r response := by
  rcases List.mem_append.1 h with h | h
  · exact absurd h (not_ended_closing c e)
  · cases List.mem_singleton.1 h
    rfl

/-- A frame that is too large is not worded like a close call. -/
theorem frameTooLarge_ne (n : Nat) :
    Response.exception (LinkError.frameTooLarge n).message ≠ closedInFlight := by
  show Response.exception ("frame of " ++ Text.decimal n ++ " bytes exceeds the maximum frame size")
    ≠ _
  exact exception_ne_closedInFlight _ (c := 'e') (by decide) (by decide)

theorem says_of_sendOver {r : Request} {since : Nat} {c : Channel χ} {e : Ending}
    (h : .ended e ∈ (q.sendOver r since c).2) : e.response ≠ some closedInFlight := by
  unfold sendOver at h
  cases hs : Frame.Outgoing.start r.encode with
  | ok o => simp [hs] at h
  | error cause =>
    rw [hs] at h
    rw [ended_failOver h]
    intro he
    have hcause : cause = .frameTooLarge r.encode.length := by
      simp only [Frame.Outgoing.start] at hs
      split at hs
      · cases hs
      · exact (Except.error.inj hs).symm
    rw [hcause] at he
    exact frameTooLarge_ne _ (Option.some.inj he)

/-- A write that fails says so in its own words. -/
theorem says_of_wrote {channel : String} {o : Frame.Outgoing} {a : Frame.Acceptance} {cause : IoError}
    (hw : o.wrote channel a = .error cause) (h : Response.exception cause.text = closedInFlight) :
    (QueueEvent.wrote (χ := χ) a).SaysClosed := by
  cases a with
  | failed e =>
    cases hw
    exact congrArg some h
  | took n =>
    cases n with
    | zero =>
      cases hw
      exact absurd h (exception_ne_closedInFlight _ (c := 'a') (by decide) (by decide))
    | succ n => cases hw

/-- A read that fails says so in its own words. -/
theorem says_of_read {channel : String} {i : Frame.Intake} {s : Except IoError Frame.ReadStatus}
    {cause : LinkError} (hr : (i.read channel s).1 = .inr (.error cause))
    (h : Response.exception cause.message = closedInFlight) :
    (QueueEvent.read (χ := χ) s).SaysClosed := by
  match s, hr with
  | .error e, hr =>
    cases hr
    exact congrArg some h
  | .ok .empty, hr => cases hr
  | .ok .eof, hr =>
    have hended : i.ended channel = .error cause := Sum.inr.inj hr
    unfold Frame.Intake.ended at hended
    split at hended
    · cases hended
    · cases hended
      exact absurd h (exception_ne_closedInFlight _ (c := 'e') (by decide) (by decide))
  | .ok (.data bs), hr =>
    have hfed : (i.feed bs).1 = .refused cause := by
      simp only [Frame.Intake.read] at hr
      split at hr
      · cases hr
      · cases hr
      · next he =>
        cases hr
        rw [he]
    obtain ⟨n, rfl⟩ := Frame.Intake.refused_feed hfed
    exact absurd h (frameTooLarge_ne n)

theorem says_of_received {r : Request} {c : Channel χ} {outcome : Except LinkError (Option Bytes)}
    {e : Ending} (h : .ended e ∈ (q.received r c outcome).2) (hp : e.request.progress = .failed)
    (hr : e.response = some closedInFlight) :
    ∃ cause, outcome = .error cause ∧ Response.exception cause.message = closedInFlight := by
  unfold received at h
  split at h
  · split at h
    · cases List.mem_singleton.1 h
      cases hp
    · rw [ended_failOver h] at hr
      cases hr
  · rw [ended_failOver h] at hr
    have hne : closedByPeer ≠ closedInFlight := by decide
    exact absurd (Option.some.inj hr) hne
  · next cause =>
    rw [ended_failOver h] at hr
    exact ⟨cause, rfl, Option.some.inj hr⟩

/-- But for the queue's own turns, a request fails in the words of a close call only over an error
from outside that has these words. -/
theorem says_of_ended {e : QueueEvent χ} (he : e ≠ .turn) {ending : Ending}
    (h : .ended ending ∈ (q.step e).2) (hp : ending.request.progress = .failed)
    (hr : ending.response = some closedInFlight) : e.SaysClosed := by
  unfold step at h
  split at h
  · exact absurd rfl he
  · exact absurd hr (says_of_sendOver h)
  · exact absurd h (not_ended_closing _ ending)
  · exact absurd hr (says_of_sendOver h)
  · cases List.mem_singleton.1 h
    exact hr
  · split at h
    · next hw =>
      rw [ended_failOver h] at hr
      exact says_of_wrote hw (Option.some.inj hr)
    · split at h
      · cases h
      · unfold sent completeOver endWith at h
        split at h
        · cases List.mem_singleton.1 h
          cases hp
        · cases h
  · split at h
    · cases h
    · next hread =>
      obtain ⟨cause, rfl, hcause⟩ := says_of_received h hp hr
      exact says_of_read hread hcause
  · cases h

end RequestQueue

/-! ## Calls consumed while a response is awaited -/

namespace Watched
variable {χ : Type} {w : Watched χ} {r : Request} {since : Nat} {d : Channel χ} {i : Frame.Intake}
  {c : CloseCall} {cs : List CloseCall}

/-- The call is for the request's endpoint and took its number afterwards: the channel is closed and
the request fails. -/
theorem event_struck (hp : w.queue.phase = .awaiting r since d i) (hc : w.queue.calls = c :: cs)
    (he : c.endpoint = r.destination) (hn : since < c.number) :
    w.event .turn = ⟨{ w.queue with phase := .idle, calls := cs }, w.log ++ (Log.closing d
      ++ [.ended (Log.number w.log) d.stream (.failed r RequestQueue.closedInFlight)])⟩ := by
  have hturn : w.queue.turn
      = { w.queue with calls := cs }.failOver d r RequestQueue.closedInFlight := by
    simp only [RequestQueue.turn, hp, hc, he, hn, if_true]
  have hvia : via? w.queue .turn = d.stream := by
    simp only [via?, hp, RequestQueue.inUse, Option.bind_some]
  simp only [event, shown_turn, RequestQueue.step_turn, hturn, hvia, RequestQueue.failOver,
    RequestQueue.endWith, List.map_append, Log.map_marked_closing, List.append_nil]
  rfl

/-- The call is for the request's endpoint and took its number before: nothing happens. -/
theorem event_overlooked (hp : w.queue.phase = .awaiting r since d i)
    (hc : w.queue.calls = c :: cs) (he : c.endpoint = r.destination) (hn : c.number ≤ since) :
    w.event .turn = ⟨{ w.queue with calls := cs }, w.log⟩ := by
  have hturn : w.queue.turn = ({ w.queue with calls := cs }, []) := by
    simp only [RequestQueue.turn, hp, hc, he, Nat.not_lt.2 hn, if_true, if_false]
  simp only [event, shown_turn, RequestQueue.step_turn, hturn, List.map_nil, List.append_nil]

/-- The call is for another endpoint, whose cached channel is closed. -/
theorem event_spared (hp : w.queue.phase = .awaiting r since d i) (hc : w.queue.calls = c :: cs)
    (he : c.endpoint ≠ r.destination) :
    w.event .turn = ⟨{ w.queue with
        calls := cs
        cache := w.queue.cache.filter fun p => ! decide (p.1 = c.endpoint) },
      w.log ++ (w.queue.cache.filter fun p => p.1 = c.endpoint).flatMap
        fun p => Log.closing p.2⟩ := by
  have hturn : w.queue.turn = { w.queue with calls := cs }.closeCached c.endpoint := by
    simp only [RequestQueue.turn, hp, hc, he, if_false]
  simp only [event, shown_turn, RequestQueue.step_turn, hturn, RequestQueue.closeCached,
    List.partition_eq_filter_filter, Log.map_marked_flatMap_closing, List.append_nil]
  rfl

/-- What is shown tells of no ending. -/
theorem not_ended_shown (q : RequestQueue χ) (e : QueueEvent χ) (k j : Nat) (via : Option χ)
    (ending : Ending) : .ended j via ending ∉ shown k q e := by
  intro h
  unfold shown at h
  split at h <;> simp at h

end Watched

namespace Chronicled
variable {χ : Type} {w : Chronicled χ}

/-! ## Requests that fail over a close call -/

/-- The last thing that happened, but for what was given back, is that a close call for the endpoint
of a request was consumed that took its number after the request went in flight. -/
def Struck (front : List (Entry χ)) (k : Nat) (r : Request) : Prop :=
  ∃ before c since, ∃ released : List (Mark χ), front = before ++ .consumed c :: released.map .mark
    ∧ Log.Releases released ∧ c.endpoint = r.destination ∧ TakenSince k r since c before

/-- The last thing that happened, but for what was noted of it, is an error from outside that has the
words of a close call. -/
def Reported (front : List (Entry χ)) : Prop :=
  ∃ before e, ∃ noted : List (Mark χ), front = before ++ .came e :: noted.map .mark ∧ e.SaysClosed

/-- Every request that fails over a close call does so for a reason. -/
def Aimed (front : List (Entry χ)) (a : Entry χ) (_ : List (Entry χ)) : Prop :=
  ∀ k via e, a = .mark (.ended k via e) → e.request.progress = .failed →
    e.response = some RequestQueue.closedInFlight →
    (∃ r, e = .failed r RequestQueue.closedInFlight ∧ Struck front k r) ∨ Reported front

theorem mem_ended {k j : Nat} {via x : Option χ} {e : Ending} {acts : List (QueueAct χ)}
    (h : .ended j x e ∈ acts.map (Watched.marked k via)) : .ended e ∈ acts := by
  obtain ⟨a, ha, he⟩ := List.mem_map.1 h
  cases a with
  | release y r => cases he
  | ended e' =>
    cases he
    exact ha

theorem aimed_put (w : Chronicled χ) (r : Request) (front : List (Entry χ)) (a : Entry χ)
    (back : List (Entry χ)) (h : (.put r :: (w.watched.queue.put r).2.map
      (Watched.marked (Log.number w.watched.log) none)).map Entry.mark = front ++ a :: back) :
    Aimed (w.chronicle ++ front) a back := by
  intro k via e ha _ hr
  have hmem : a ∈ front ++ a :: back := by simp
  rw [← h, ha, Entry.mem_map_mark] at hmem
  have hended := mem_ended ((List.mem_cons.1 hmem).resolve_left (by simp))
  unfold RequestQueue.put at hended
  split at hended
  · cases List.mem_singleton.1 hended
    have hne : RequestQueue.stoppedResponse ≠ RequestQueue.closedInFlight := by decide
    exact absurd (Option.some.inj hr) hne
  · cases hended

/-- What comes from outside ends a request in the words of a close call only if it has them. -/
theorem aimed_came {e : QueueEvent χ} (he : e ≠ .turn) {new : List (Mark χ)}
    (hended : ∀ k via ending, .ended k via ending ∈ new →
      .ended ending ∈ (w.watched.queue.step e).2) (front : List (Entry χ)) (a : Entry χ)
    (back : List (Entry χ)) (h : told w.watched e ++ new.map .mark = front ++ a :: back) :
    Aimed (w.chronicle ++ front) a back := by
  have htold : told w.watched e = [.came e] := by
    cases e with
    | turn => exact absurd rfl he
    | _ => rfl
  rw [htold, List.singleton_append] at h
  intro k via ending ha hp hr
  subst ha
  cases front with
  | nil => cases (List.cons.inj h).1
  | cons b front =>
    obtain ⟨rfl, hmarks⟩ := List.cons.inj h
    obtain ⟨noted, later, hnew, rfl, hlater⟩ := List.map_eq_append_iff.1 hmarks
    have hmem : .ended k via ending ∈ later := by
      rw [← Entry.mem_map_mark, hlater]
      exact List.mem_cons_self
    have hsays := RequestQueue.says_of_ended he
      (hended k via ending (hnew ▸ List.mem_append_right _ hmem)) hp hr
    exact .inr ⟨w.chronicle, e, noted, rfl, hsays⟩

/-- A turn in which a request fails is one in which a close call was consumed that is meant for it. -/
theorem aimed_turn (hd : w.Dated) {new : List (Mark χ)}
    (hlog : (w.event .turn).watched.log = w.watched.log ++ new)
    (hended : ∀ k via ending, .ended k via ending ∈ new →
      .ended ending ∈ (w.watched.queue.step .turn).2) (front : List (Entry χ)) (a : Entry χ)
    (back : List (Entry χ)) (h : told w.watched .turn ++ new.map .mark = front ++ a :: back) :
    Aimed (w.chronicle ++ front) a back := by
  intro k via e ha _ _
  subst ha
  have hmem : .mark (.ended k via e) ∈ front ++ .mark (.ended k via e) :: back := by simp
  rw [← h] at hmem
  have hacts := hended k via e
    (Entry.mem_map_mark.1 ((List.mem_append.1 hmem).resolve_left (not_mark_told _ _ _)))
  rw [RequestQueue.step_turn] at hacts
  obtain ⟨r, since, d, i, c, cs, hp, hc, hdest, hn⟩ := w.watched.queue.turned.ended hacts
  have hstruck := congrArg Watched.log (Watched.event_struck hp hc hdest hn)
  rw [show (w.watched.event .turn).log = _ from hlog] at hstruck
  rw [told_of_consumes? (RequestQueue.consumes?_of_awaiting hp hc), List.append_cancel_left hstruck,
    List.map_append, List.map_singleton, ← List.append_assoc] at h
  obtain ⟨rfl, hending, -⟩ := eq_of_snoc h fun hm => by
    obtain ⟨x, _, hx⟩ := Log.releases_closing d _
      (Entry.mem_map_mark.1 ((List.mem_append.1 hm).resolve_left (by simp)))
    cases hx
  cases hending
  have hf : w.watched.queue.phase.flight? = some (r, since) := congrArg QueuePhase.flight? hp
  have htook := hd.known c (.inr (by rw [hc]; exact List.mem_cons_self))
  exact .inl ⟨r, rfl, w.chronicle, c, since, Log.closing d, rfl, Log.releases_closing d, hdest,
    (hd.takenSince_iff hf htook).2 hn⟩

theorem aimed_reachable (h : w.Reachable) : Throughout Aimed w.chronicle := by
  refine throughout_reachable (fun front a back new ha => ha) (fun front c k via e he => by cases he)
    (fun w r front a back _ => aimed_put w r front a back) ?_ h
  intro w e new front a back before _ hadds
  have hended : ∀ k via ending, .ended k via ending ∈ new →
      .ended ending ∈ (w.watched.queue.step e).2 := fun k via ending hm => by
    rw [List.append_cancel_left (hadds.log.symm.trans (adds_event w e).log)] at hm
    exact mem_ended ((List.mem_append.1 hm).resolve_left (Watched.not_ended_shown _ _ _ _ _ _))
  by_cases he : e = .turn
  · subst he
    exact aimed_turn (reachable_dated before).2 hadds.log hended front a back
  · exact aimed_came he hended front a back

/-- A request fails in the words of a close call only over a call that was for its endpoint, took its
number after the request went in flight and has just been consumed, or over an error from outside
that itself has these words. A call that is consumed while a response is awaited, is for the endpoint
of the request and took its number afterwards, ends the request then: it fails as an exception, and
its channel is closed. A call of an earlier number changes nothing, and one for another endpoint only
closes the channel that is cached for that endpoint. -/
theorem closes_are_aimed (h : w.Reachable) :
    (∀ front k via e back, w.chronicle = front ++ .mark (.ended k via e) :: back →
      e.request.progress = .failed → e.response = some RequestQueue.closedInFlight →
      (∃ r, e = .failed r RequestQueue.closedInFlight ∧ Struck front k r) ∨ Reported front)
    ∧ ∀ r since d i c cs, w.watched.queue.phase = .awaiting r since d i →
      w.watched.queue.calls = c :: cs →
      (w.event .turn).chronicle = w.chronicle ++ .consumed c ::
        ((w.event .turn).watched.log.drop w.watched.log.length).map .mark
      ∧ (c.endpoint = r.destination → TakenSince w.number r since c w.chronicle →
        ∃ x, d.stream = some x ∧ (w.event .turn).watched = ⟨
            { w.watched.queue with phase := .idle, calls := cs },
            w.watched.log ++ (Log.closing d ++ [.ended w.number (some x)
              (.failed r (.exception "channel closed while the request was in flight"))])⟩
          ∧ .released x .shutDown ∈ Log.closing d ∧ .released x .stream ∈ Log.closing d)
      ∧ (c.endpoint = r.destination → ¬ TakenSince w.number r since c w.chronicle →
        (w.event .turn).watched = ⟨{ w.watched.queue with calls := cs }, w.watched.log⟩)
      ∧ (c.endpoint ≠ r.destination → (w.event .turn).watched = ⟨
          { w.watched.queue with
            calls := cs
            cache := w.watched.queue.cache.filter fun p => ! decide (p.1 = c.endpoint) },
          w.watched.log ++ (w.watched.queue.cache.filter fun p => p.1 = c.endpoint).flatMap
            fun p => Log.closing p.2⟩) := by
  obtain ⟨hw, hd⟩ := reachable_dated h
  refine ⟨fun front k via e back he => aimed_reachable h front _ back he k via e rfl,
    fun r since d i c cs hp hc => ?_⟩
  have hf : w.watched.queue.phase.flight? = some (r, since) := congrArg QueuePhase.flight? hp
  have hiff := hd.takenSince_iff hf (hd.known c (.inr (by rw [hc]; exact List.mem_cons_self)))
  refine ⟨?_, fun he hsince => ?_, fun he hnot => ?_, Watched.event_spared hp hc⟩
  · show w.chronicle ++ (told w.watched .turn ++ _) = _
    rw [told_of_consumes? (RequestQueue.consumes?_of_awaiting hp hc)]
    rfl
  · have hpoised := (Watched.poised_reachable hw).phase
    rw [show w.watched.sight.phase = _ from hp] at hpoised
    obtain ⟨x, hx⟩ := Option.isSome_iff_exists.1 hpoised.1
    have hevent := Watched.event_struck hp hc he (hiff.1 hsince)
    rw [hx] at hevent
    exact ⟨x, hx, hevent, Log.mem_closing_self hx⟩
  · exact Watched.event_overlooked hp hc he (Nat.le_of_not_lt fun hn => hnot (hiff.2 hn))

/-- A request that waits for a response, in flight. -/
def pinged : Request := { Watched.ping with progress := .inFlight }

/-- A call that took its number while the request was in flight ends it. -/
theorem closes_are_aimed_struck :
    ∃ w : Chronicled Nat, w.Reachable ∧ TakenSince 0 pinged 0 ⟨.agent, 1⟩ w.chronicle
      ∧ .ended 0 (some 0) (.failed pinged RequestQueue.closedInFlight)
        ∈ (w.event .turn).watched.log := by
  have hasked : Reachable (χ := Nat)
      ⟨⟨⟨.connecting pinged 0, [], [], false, 0, []⟩, [.put Watched.ping]⟩, [],
        [.mark (.put Watched.ping), .began 0 pinged 0]⟩ :=
    ((Reachable.start.put Watched.ping).event .turn trivial).event .turn trivial
  have htaken : Reachable (χ := Nat)
      ⟨⟨⟨.sending pinged 0 (.opened "c" 0) Watched.pingFrame, [], [], false, 1, []⟩,
          [.put Watched.ping, .connected 0 .agent 0]⟩, [⟨.agent, 1⟩],
        [.mark (.put Watched.ping), .began 0 pinged 0, .came (.connected (.ok (.opened "c" 0))),
          .mark (.connected 0 .agent 0), .took ⟨.agent, 1⟩]⟩ :=
    (hasked.event (.connected (.ok (.opened "c" 0))) ⟨0, rfl, by simp⟩).take .agent
  have hhalf := (htaken.deliver List.mem_cons_self).event (.wrote (.took 4))
    (fun bs h => by cases h; decide)
  have hawaiting := hhalf.event (.wrote (.took Watched.ping.encode.length))
    (fun bs h => by cases h; exact Nat.le_refl _)
  obtain ⟨w, hw, hphase, hcalls, hnumber, hsince⟩ : ∃ w : Chronicled Nat, w.Reachable
      ∧ w.watched.queue.phase = .awaiting pinged 0 (.opened "c" 0) .start
      ∧ w.watched.queue.calls = [⟨.agent, 1⟩] ∧ w.number = 0
      ∧ TakenSince 0 pinged 0 ⟨.agent, 1⟩ w.chronicle :=
    ⟨_, hawaiting, rfl, rfl, rfl, [.mark (.put Watched.ping)],
      [.came (.connected (.ok (.opened "c" 0))), .mark (.connected 0 .agent 0)], _, rfl⟩
  obtain ⟨-, hstruck, -⟩ := (closes_are_aimed hw).2 _ _ _ _ _ _ hphase hcalls
  rw [hnumber] at hstruck
  obtain ⟨x, hx, hended, -⟩ := hstruck rfl hsince
  cases hx
  refine ⟨w, hw, hsince, ?_⟩
  rw [hended]
  exact List.mem_append_right _ (List.mem_append_right _ (List.mem_singleton_self _))

end Chronicled
end CommandLink
