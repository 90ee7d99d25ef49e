import CommandLink.Proofs.Closing.Aimed
import CommandLink.Proofs.Codec
import CommandLink.Proofs.Delivery.Net
/-!
# What becomes of the channels that a close call is meant for

When a close call is consumed, every channel that was connected to its endpoint so far is given back
and not used any more. There is one exception: the call took its number before a request to the
endpoint went in flight and is consumed while the response to that request is awaited. It is too old
for the request then, and the channel which it was meant for may be the one that the request goes
over; this channel is cached again once the response is there.

Results:
* `leads_unique`: no stream leads to two endpoints.
* `heeded_reachable`: what is given back when a call is consumed.
* `consumed_closes`: so no later request goes over a channel from before, but for the exception.
* `overlooked_close_is_lost`: with the exception, a later request does.
-/
namespace CommandLink

open Entry (marks)

namespace Watched
variable {χ : Type} {w : Watched χ}

open Log

/-- A stream is shown to be connected when a connection comes about, to the endpoint of the request. -/
theorem leads_shown {k : Nat} {q : RequestQueue χ} {e : QueueEvent χ} {x : χ} {n : EndpointName}
    (h : Leads (shown k q e) x n) : ∃ r since c, q.phase = .connecting r since
      ∧ e = .connected (.ok c) ∧ c.stream = some x ∧ n = r.destination := by
  obtain ⟨j, hm⟩ := h
  unfold shown at hm
  split at hm
  · simp at hm
  · next r since c hp =>
    obtain ⟨y, hy, he⟩ := List.mem_map.1 hm
    cases he
    exact ⟨r, since, c, hp, rfl, by simpa using hy, rfl⟩
  · simp at hm
  · simp at hm
  · cases hm

/-- No stream leads to two endpoints. -/
theorem leads_unique (h : w.Reachable) : ∀ x e e', Leads w.log x e → Leads w.log x e' → e = e' := by
  induction h with
  | start =>
    rintro x e e' ⟨j, hm⟩
    cases hm
  | @put w _ r ih =>
    have hnone : ∀ x e, ¬ Leads [Mark.put (χ := χ) r] x e := fun x e ⟨j, hm⟩ => by simp at hm
    intro x e e' he he'
    have hold := (grew_put w r).leads.1 he
    have hold' := (grew_put w r).leads.1 he'
    exact ih x e e' (hold.resolve_right (hnone x e)) (hold'.resolve_right (hnone x e'))
  | takeNumber _ ih => exact ih
  | deliver _ _ _ ih => exact ih
  | shutdown _ ih => exact ih
  | @event w _ event fits ih =>
    -- a stream that is connected now was not there before
    have hfresh : ∀ x e e', Leads (shown (number w.log) w.queue event) x e → ¬ Leads w.log x e' := by
      rintro x e e' hshown ⟨j, hm⟩
      obtain ⟨r, since, c, hp, rfl, hx, -⟩ := leads_shown hshown
      simp only [Fits, hp] at fits
      obtain ⟨y, hy, hnew⟩ := fits
      rw [hx] at hy
      cases hy
      exact hnew _ _ hm
    intro x e e' he he'
    rcases (grew_event w event).leads.1 he with hold | hnew <;>
      rcases (grew_event w event).leads.1 he' with hold' | hnew'
    · exact ih x e e' hold hold'
    · exact absurd hold (hfresh x e' e hnew')
    · exact absurd hold' (hfresh x e e' hnew)
    · obtain ⟨r, _, _, hp, -, -, rfl⟩ := leads_shown hnew
      obtain ⟨r', _, _, hp', -, -, rfl⟩ := leads_shown hnew'
      rw [hp] at hp'
      cases hp'
      rfl

end Watched

/-- A stream was shut down and given back. -/
def Log.Returned {χ : Type} (log : List (Mark χ)) (x : χ) : Prop :=
  .released x .shutDown ∈ log ∧ .released x .stream ∈ log

theorem Log.Returned.add {χ : Type} {log new : List (Mark χ)} {x : χ}
    (h : Log.Returned log x) : Log.Returned (log ++ new) x :=
  ⟨List.mem_append_left _ h.1, List.mem_append_left _ h.2⟩

/-- Where bytes were written for a request, there is a mark of that. -/
theorem Log.exists_wrote {χ : Type} {log : List (Mark χ)} {k : Nat} (h : Log.writtenBy k log ≠ []) :
    ∃ x bs acc, .wrote k x bs acc ∈ log := by
  obtain ⟨b, hb⟩ := List.exists_mem_of_ne_nil _ h
  obtain ⟨m, hm, hb⟩ := List.mem_flatMap.1 hb
  cases m with
  | wrote j x bs acc =>
    by_cases hj : j = k
    · exact ⟨x, bs, acc, hj ▸ hm⟩
    · simp [Mark.writtenBy, hj] at hb
  | _ => cases hb

namespace RequestQueue
variable {χ : Type} {q : RequestQueue χ} {c : CloseCall}

/-- While a call is consumed, no channel is in use but that over which a response is awaited. -/
theorem inUse_of_consumes? (h : q.consumes? = some c) : q.phase.channel? = none
    ∨ ∃ r since d i, q.phase = .awaiting r since d i := by
  unfold consumes? at h
  split at h
  · next hp =>
    rw [hp]
    exact .inl rfl
  · next hp =>
    rw [hp]
    exact .inl rfl
  · next hp => exact .inr ⟨_, _, _, _, hp⟩
  · cases h

end RequestQueue

namespace Chronicled
variable {χ : Type} {w : Chronicled χ}

/-- A close call took its number before a request to its endpoint went in flight, and the request has
been written and not yet ended. -/
def Overlooked (front : List (Entry χ)) (c : CloseCall) : Prop :=
  ∃ a b d k r since, front = a ++ .took c :: (b ++ .began k r since :: d)
    ∧ r.destination = c.endpoint ∧ (∃ x bs acc, .mark (.wrote k x bs acc) ∈ d)
    ∧ ∀ via e, .mark (.ended k via e) ∉ front

/-- When a close call is consumed, what leads to its endpoint is given back, or it is overlooked. -/
def Heeded (front : List (Entry χ)) (a : Entry χ) (back : List (Entry χ)) : Prop :=
  ∀ c, a = .consumed c → Overlooked front c ∨ ∃ released : List (Mark χ), ∃ rest,
    back = released.map .mark ++ rest ∧ Log.Releases released
      ∧ ∀ x, Log.Leads (marks front) x c.endpoint → Log.Returned (marks front ++ released) x

theorem Heeded.add {front back : List (Entry χ)} {a : Entry χ} (h : Heeded front a back)
    (new : List (Entry χ)) : Heeded front a (back ++ new) := by
  intro c hc
  rcases h c hc with hover | ⟨released, rest, rfl, hreleased, hall⟩
  · exact .inl hover
  · exact .inr ⟨released, rest ++ new, by simp, hreleased, hall⟩

/-- A call that is consumed while a request to its endpoint awaits its response, and took its number
before, is overlooked. -/
theorem overlooked_of_awaiting (h : w.Reachable) {r : Request} {since : Nat} {d : Channel χ}
    {i : Frame.Intake} {c : CloseCall} (hp : w.watched.queue.phase = .awaiting r since d i)
    (hc : c ∈ w.watched.queue.calls) (he : c.endpoint = r.destination) (hn : c.number ≤ since) :
    Overlooked w.chronicle c := by
  obtain ⟨hw, hd⟩ := reachable_dated h
  have hf : w.watched.queue.phase.flight? = some (r, since) := congrArg QueuePhase.flight? hp
  obtain ⟨a, b, back, hsplit, hwritten⟩ := hd.taken_before hf (hd.known c (.inr hc)) hn
  refine ⟨a, b, back, w.number, r, since, hsplit, he.symm, ?_, fun via e hm => ?_⟩
  · -- the whole request was written, and all of it behind its start
    have hflight := Sight.inFlight_reachable hw
    rw [Sight.InFlight, show w.watched.sight.phase = _ from hp] at hflight
    have hall : Log.writtenBy w.number (marks back) = Frame.ofPayload r.encode :=
      hwritten.trans hflight.2.2.1
    have hne : Log.writtenBy w.number (marks back) ≠ [] := by
      rw [hall]
      exact Frame.ofPayload_ne_nil _
    obtain ⟨x, bs, acc, hm⟩ := Log.exists_wrote hne
    exact ⟨x, bs, acc, Entry.mem_marks.1 hm⟩
  · have hmark := Entry.mem_marks.2 hm
    rw [hd.marks] at hmark
    exact Nat.lt_irrefl _ ((Sight.numbered_reachable hw).ended_lt hmark)

variable [DecidableEq χ]

/-- What leads to an endpoint is given back already, cached for the endpoint, or in use. -/
theorem leads_held (h : w.Reachable) {x : χ} {e : EndpointName}
    (hx : Log.Leads w.watched.log x e) : Log.Returned w.watched.log x
      ∨ (∃ p ∈ w.watched.queue.cache, p.1 = e ∧ p.2.stream = some x)
      ∨ ∃ d, w.watched.queue.phase.channel? = some d ∧ d.stream = some x := by
  obtain ⟨hw, hd⟩ := reachable_dated h
  obtain ⟨j, hm⟩ := hx
  rcases (Sight.books_reachable hw).known j e x hm with (⟨p, hp, hpx⟩ | ⟨d, hd, hdx⟩) | hgone
  · have hleads := (Sight.routed_reachable hw).cached p hp x hpx
    exact .inr (.inl ⟨p, hp, Watched.leads_unique hw x p.1 e hleads ⟨j, hm⟩, hpx⟩)
  · exact .inr (.inr ⟨d, hd, hdx⟩)
  · exact .inl ⟨hgone.shutDown, hgone.released⟩

/-- What is done when a close call is consumed. -/
theorem heeds_turn (h : w.Reachable) {c : CloseCall} (hc : w.watched.queue.consumes? = some c)
    (k : Nat) (via : Option χ) : Overlooked w.chronicle c ∨ ∃ released last,
      w.watched.queue.turn.2.map (Watched.marked k via) = released ++ last
        ∧ Log.Releases released ∧ ∀ x, Log.Leads w.watched.log x c.endpoint →
          Log.Returned (w.watched.log ++ released) x := by
  have hbooks := Sight.books_reachable (reachable_dated h).1
  have hinUse := RequestQueue.inUse_of_consumes? hc
  have hturned := w.watched.queue.turned
  rw [hc] at hturned
  generalize w.watched.queue.begins? = begun, w.watched.queue.turn = next at hturned ⊢
  cases hturned with
  | @spared _ cs hcalls hne =>
    refine .inr ⟨(w.watched.queue.cache.filter fun p => p.1 = c.endpoint).flatMap
      fun p => Log.closing p.2, [], ?_, Log.releases_flatMap _, fun x hx => ?_⟩
    · simp only [RequestQueue.closeCached, List.partition_eq_filter_filter,
        Log.map_marked_flatMap_closing, List.append_nil]
    · rcases leads_held h hx with hgone | ⟨p, hp, hkey, hpx⟩ | ⟨d, hd, hdx⟩
      · exact hgone.add
      · obtain ⟨hshut, hstream⟩ := Log.mem_closing_self hpx
        have hmem : p ∈ w.watched.queue.cache.filter fun p => p.1 = c.endpoint :=
          List.mem_filter.2 ⟨hp, by simpa using hkey⟩
        exact ⟨List.mem_append_right _ (List.mem_flatMap.2 ⟨p, hmem, hshut⟩),
          List.mem_append_right _ (List.mem_flatMap.2 ⟨p, hmem, hstream⟩)⟩
      · -- the channel in use leads to another endpoint
        exfalso
        rcases hinUse with hnone | ⟨r, since, d', i, hp⟩
        · cases hd.symm.trans hnone
        · have hplaced : w.watched.sight.phase.placed? = some r := congrArg QueuePhase.placed? hp
          have hleads := (Sight.routed_reachable (reachable_dated h).1).inUse r d x hplaced hd hdx
          exact hne r since d' i hp (Watched.leads_unique (reachable_dated h).1 x _ _ hx hleads)
  | @struck r since d i _ cs hp hcalls he hn =>
    refine .inr ⟨Log.closing d, [.ended k via (.failed r RequestQueue.closedInFlight)], ?_,
      Log.releases_closing d, fun x hx => ?_⟩
    · simp only [RequestQueue.failOver, RequestQueue.endWith, List.map_append,
        Log.map_marked_closing]
      rfl
    · have hplaced : w.watched.sight.phase.placed? = some r := congrArg QueuePhase.placed? hp
      rcases leads_held h hx with hgone | ⟨p, hmem, hkey, -⟩ | ⟨d', hd, hdx⟩
      · exact hgone.add
      · exact absurd (hkey.trans he) (hbooks.absent r hplaced p hmem)
      · have hd' : d = d' := Option.some.inj ((congrArg QueuePhase.channel? hp).symm.trans hd)
        subst hd'
        obtain ⟨hshut, hstream⟩ := Log.mem_closing_self hdx
        exact ⟨List.mem_append_right _ hshut, List.mem_append_right _ hstream⟩
  | overlooked hp hcalls he hn =>
    exact .inl (overlooked_of_awaiting h hp (by rw [hcalls]; exact List.mem_cons_self) he hn)

/-- A call is consumed at the head of what a turn adds. -/
theorem heeded_event (h : w.Reachable) {e : QueueEvent χ} {new : List (Mark χ)}
    (ha : Adds w (w.event e) (told w.watched e) new) (front : List (Entry χ)) (a : Entry χ)
    (back : List (Entry χ)) (hsplit : told w.watched e ++ new.map .mark = front ++ a :: back) :
    Heeded (w.chronicle ++ front) a back := by
  intro c hc
  subst hc
  have hmem : .consumed c ∈ front ++ .consumed c :: back := by simp
  rw [← hsplit] at hmem
  rcases mem_told ((List.mem_append.1 hmem).resolve_right (by simp)) with
    ⟨r, -, he⟩ | ⟨rfl, c', hc, he⟩ | he
  · cases he
  · cases he
    rw [told_of_consumes? hc, List.singleton_append] at hsplit
    cases front with
    | nil =>
      cases hsplit
      have hnew := List.append_cancel_left (ha.log.symm.trans (adds_event w .turn).log)
      rw [Watched.shown_turn, List.nil_append, RequestQueue.step_turn] at hnew
      rw [List.append_nil, (reachable_dated h).2.marks]
      rcases heeds_turn h hc (Log.number w.watched.log) (Watched.via? w.watched.queue .turn) with
        hover | ⟨released, last, hacts, hreleased, hall⟩
      · exact .inl hover
      · exact .inr ⟨released, last.map .mark, by rw [hnew, hacts, List.map_append], hreleased, hall⟩
    | cons b front =>
      obtain ⟨-, hrest⟩ := List.cons.inj hsplit
      have hmark : .consumed c ∈ new.map Entry.mark := by rw [hrest]; simp
      simp at hmark
  · cases he

theorem heeded_reachable (h : w.Reachable) : Throughout Heeded w.chronicle := by
  refine throughout_reachable (fun front a back new ha => ha.add new)
    (fun front c c' he => by cases he) (fun w r front a back _ hsplit c hc => ?_)
    (fun w e new front a back before _ ha => heeded_event before ha front a back) h
  have hmem : a ∈ front ++ a :: back := by simp
  rw [← hsplit, hc] at hmem
  simp at hmem

/-- When a close call has been consumed, every channel that was connected to its endpoint before is
closed, and nothing is looked for, written or read on it any more; unless the call was consumed while
the response to a request to that endpoint was awaited that went in flight after the call took its
number. -/
theorem consumed_closes (h : w.Reachable) {front back : List (Entry χ)} {c : CloseCall}
    (hc : w.chronicle = front ++ .consumed c :: back) : Overlooked front c
      ∨ ∀ j x, .mark (.connected j c.endpoint x) ∈ front →
        .released x .shutDown ∈ w.watched.log ∧ .released x .stream ∈ w.watched.log
          ∧ ∀ m, .mark m ∈ back → m.used? ≠ some x := by
  obtain ⟨hw, hd⟩ := reachable_dated h
  rcases heeded_reachable h front _ back hc c rfl with hover | ⟨released, rest, rfl, hreleased, hall⟩
  · exact .inl hover
  right
  intro j x hx
  obtain ⟨hshut, hstream⟩ := hall x ⟨j, Entry.mem_marks.2 hx⟩
  have hlog : w.watched.log = (marks front ++ released) ++ marks rest := by
    have hnone : marks [Entry.consumed (χ := χ) c] = [] := rfl
    rw [← hd.marks, hc, ← List.singleton_append]
    simp only [Entry.marks_append, Entry.marks_map, hnone, List.nil_append, List.append_assoc]
  refine ⟨?_, ?_, fun m hm hused => ?_⟩
  · rw [hlog]
    exact List.mem_append_left _ hshut
  · rw [hlog]
    exact List.mem_append_left _ hstream
  · rcases List.mem_append.1 hm with hm | hm
    · obtain ⟨y, r, rfl⟩ := hreleased m (Entry.mem_map_mark.1 hm)
      cases hused
    · obtain ⟨before, after, hsplit⟩ := List.append_of_mem (Entry.mem_marks.2 hm)
      rw [hsplit, ← List.append_assoc] at hlog
      exact Sight.silent_reachable hw _ m after hlog x hused _ (List.mem_append_left _ hshut)

/-! ## A call that is lost -/

/-- A queue with nothing waiting, and its chronicle. -/
def scene (phase : QueuePhase Nat) (calls : List CloseCall) (taken : Nat)
    (cache : List (EndpointName × Channel Nat)) (underWay : List CloseCall)
    (chronicle : List (Entry Nat)) : Chronicled Nat :=
  ⟨⟨⟨phase, [], calls, false, taken, cache⟩, marks chronicle⟩, underWay, chronicle⟩

/-- The request that waits for no response, in flight. -/
def nudged : Request := { Watched.nudge with progress := .inFlight }

/-- What is told when a frame of two parts is written over the stream. -/
def written (k : Nat) (r : Request) : List (Entry Nat) :=
  [.came (.wrote (.took 4)), .mark (.wrote k 0 (Bytes.big32 r.encode.length) (.took 4)),
    .came (.wrote (.took r.encode.length)),
    .mark (.wrote k 0 r.encode (.took r.encode.length))]

/-- A stream is connected for a request, which is sent over it. -/
def opening : List (Entry Nat) :=
  [.mark (.put Watched.nudge), .began 0 nudged 0, .came (.connected (.ok (.opened "c" 0))),
    .mark (.connected 0 .agent 0)] ++ written 0 Watched.nudge
    ++ [.mark (.ended 0 (some 0) (.completed nudged none))]

/-- The stream is cached behind the first request. -/
theorem reachable_opening :
    (scene .idle [] 0 [(.agent, .opened "c" 0)] [] opening).Reachable := by
  have hasked : (scene (.connecting nudged 0) [] 0 [] []
      [.mark (.put Watched.nudge), .began 0 nudged 0]).Reachable :=
    ((Reachable.start.put Watched.nudge).event .turn trivial).event .turn trivial
  have hsending : (scene (.sending nudged 0 (.opened "c" 0) Watched.nudgeFrame) [] 0 [] []
      [.mark (.put Watched.nudge), .began 0 nudged 0, .came (.connected (.ok (.opened "c" 0))),
        .mark (.connected 0 .agent 0)]).Reachable :=
    hasked.event (.connected (.ok (.opened "c" 0))) ⟨0, rfl, by simp [scene, marks, Entry.mark?]⟩
  have hhalf := hsending.event (.wrote (.took 4)) (fun bs h => by cases h; decide)
  exact hhalf.event (.wrote (.took Watched.nudge.encode.length))
    (fun bs h => by cases h; exact Nat.le_refl _)

def call : CloseCall := ⟨.agent, 1⟩

/-- A call that is consumed while nothing is in flight closes the channel that is cached. -/
theorem consumed_closes_idle :
    ∃ w : Chronicled Nat, w.Reachable ∧ w.chronicle = (opening ++ [.took call]) ++ .consumed call ::
        [.mark (.released 0 .shutDown), .mark (.released 0 .stream)]
      ∧ .released 0 .stream ∈ w.watched.log := by
  have htaken : (scene .idle [] 1 [(.agent, .opened "c" 0)] [call]
      (opening ++ [.took call])).Reachable := reachable_opening.take .agent
  obtain ⟨w, hw, hchronicle⟩ : ∃ w : Chronicled Nat, w.Reachable
      ∧ w.chronicle = (opening ++ [.took call]) ++ .consumed call ::
        [.mark (.released 0 .shutDown), .mark (.released 0 .stream)] :=
    ⟨_, (htaken.deliver List.mem_cons_self).event .turn trivial, rfl⟩
  refine ⟨w, hw, hchronicle, ?_⟩
  rcases consumed_closes hw hchronicle with hover | hclosed
  · -- no request went in flight behind the number
    obtain ⟨a, b, d, k, r, since, hsplit, -⟩ := hover
    have hnone : .took call ∉ opening := by simp [opening, written]
    obtain ⟨-, -, hnil⟩ := eq_of_snoc hsplit hnone
    simp at hnil
  · exact (hclosed 0 0 (by simp [opening, call])).2.1

/-- Another request is sent over the stream. -/
def again : List (Entry Nat) :=
  [.mark (.put Watched.ping), .began 1 pinged 1, .came (.probed (.ok .empty)),
    .mark (.probed 1 0 (.ok .empty))] ++ written 1 Watched.ping

/-- The call takes its number before that request goes in flight, and is consumed while its response
is awaited. -/
theorem reachable_again :
    (scene (.awaiting pinged 1 (.opened "c" 0) .start) [] 1 [] []
      (opening ++ .took call :: (again ++ [.consumed call]))).Reachable := by
  have htaken : (scene (.probing pinged 1 (.opened "c" 0)) [] 1 [] [call]
      (opening ++ .took call :: [.mark (.put Watched.ping), .began 1 pinged 1])).Reachable :=
    (((reachable_opening.take .agent).put Watched.ping).event .turn trivial).event .turn trivial
  have hsending := htaken.event (.probed (.ok .empty)) trivial
  have hhalf := hsending.event (.wrote (.took 4)) (fun bs h => by cases h; decide)
  have hawaiting := hhalf.event (.wrote (.took Watched.ping.encode.length))
    (fun bs h => by cases h; exact Nat.le_refl _)
  have hdelivered : (scene (.awaiting pinged 1 (.opened "c" 0) .start) [call] 1 [] []
      (opening ++ .took call :: again)).Reachable := hawaiting.deliver List.mem_cons_self
  exact hdelivered.event .turn trivial

/-- The response that comes in. -/
def answer : Response := .bare .ok

/-- Its frame is read, which completes the request. -/
def answered : List (Entry Nat) :=
  [.came (.read (.ok (.data (Bytes.big32 answer.encode.length)))),
    .mark (.read 1 0 (.ok (.data (Bytes.big32 answer.encode.length)))),
    .came (.read (.ok (.data answer.encode))), .mark (.read 1 0 (.ok (.data answer.encode))),
    .mark (.ended 1 (some 0) (.completed pinged (some answer)))]

theorem reachable_answered :
    (scene .idle [] 1 [(.agent, .opened "c" 0)] []
      (opening ++ .took call :: (again ++ .consumed call :: answered))).Reachable := by
  have hfits : (Bytes.big32 answer.encode.length).length ≤ 4 := by decide
  have hheader : (scene (.awaiting pinged 1 (.opened "c" 0) (.body answer.encode.length [])) [] 1 [] []
      (opening ++ .took call :: (again ++ .consumed call :: answered.take 2))).Reachable :=
    reachable_again.event (.read (.ok (.data (Bytes.big32 answer.encode.length)))) hfits
  have hqueue : (⟨.awaiting pinged 1 (.opened "c" 0) (.body answer.encode.length []), [], [], false,
        1, []⟩ : RequestQueue Nat).step (.read (.ok (.data answer.encode)))
      = (⟨.idle, [], [], false, 1, [(.agent, .opened "c" 0)]⟩,
        [.ended (.completed pinged (some answer))]) := by
    show RequestQueue.received _ pinged (.opened "c" 0) (.ok (some answer.encode)) = _
    rw [RequestQueue.received, Response.decode_encode]
    rfl
  have hbody := hheader.event (.read (.ok (.data answer.encode))) (Nat.le_refl answer.encode.length)
  simp only [event, telling, Watched.event, scene, hqueue] at hbody
  exact hbody

/-- A request that goes in flight behind all this is written over the stream from before. -/
theorem overlooked_close_is_lost :
    ¬ ∀ w : Chronicled Nat, w.Reachable → ∀ a c b d,
      w.chronicle = a ++ .took c :: (b ++ .consumed c :: d) →
      ∀ j x, .mark (.connected j c.endpoint x) ∈ a → ∀ between k r since rest,
        d = between ++ .began k r since :: rest → ∀ bs acc, .mark (.wrote k x bs acc) ∉ rest := by
  intro h
  have hprobing : (scene (.probing nudged 1 (.opened "c" 0)) [] 1 [] [] (opening ++ .took call ::
      (again ++ .consumed call :: (answered ++ [.mark (.put Watched.nudge), .began 2 nudged 1])))).Reachable :=
    ((reachable_answered.put Watched.nudge).event .turn trivial).event .turn trivial
  have hsending := hprobing.event (.probed (.ok .empty)) trivial
  have hwrote := hsending.event (.wrote (.took 4)) (fun bs h => by cases h; decide)
  refine h _ hwrote opening call again _ rfl 0 0 ?_ (answered ++ [.mark (.put Watched.nudge)]) 2
    nudged 1 _ rfl (Bytes.big32 Watched.nudge.encode.length) (.took 4) ?_
  · simp [opening, call]
  · exact List.mem_cons_of_mem _ (List.mem_cons_of_mem _ (List.mem_cons_of_mem _ List.mem_cons_self))

end Chronicled
end CommandLink
