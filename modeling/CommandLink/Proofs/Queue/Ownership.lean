import CommandLink.Proofs.Closing.Heeded
import CommandLink.Proofs.Queue.Paced
/-!
# Whose a channel is

Every channel that a queue connected is cached under its endpoint, in use by the request in flight, or
given up, and it is only one of these, also in the middle of closing one, and also where the closing
of one is broken off.

Results:
* `shift_turn`, `shift_step`: all that can happen to the cache.
* `exists_at`, `at_unique`: every channel is in one place.
* `lone_reachable`: no endpoint has two channels that are not released.
* `channels_accounted_for`: whose every channel is at any moment, and what moves it.
-/
namespace CommandLink

namespace RequestQueue
variable {χ : Type} {q : RequestQueue χ}

/-- All that can happen to the cache, and the close call with whose consumption it does. -/
inductive Shift (q : RequestQueue χ) : Option CloseCall → List (EndpointName × Channel χ) → Prop
  | same (c : Option CloseCall) : Shift q c q.cache
  | closed (c : CloseCall) : Shift q (some c) (q.closeCached c.endpoint).1.cache
  | checkedOut {r : Request} (hr : q.phase.request? = some r) :
    Shift q none (q.cache.filter fun d => d.1 ≠ r.destination)
  | stored {r : Request} (hr : q.phase.placed? = some r) (c : Channel χ) :
    Shift q none ((r.destination, c) :: q.cache)
  | emptied (hp : q.phase = .idle) : Shift q none []

theorem shift_turn (q : RequestQueue χ) : q.Shift q.consumes? q.turn.1.cache := by
  obtain ⟨phase, requests, calls, sealed, taken, cache⟩ := q
  cases phase with
  | idle =>
    cases requests with
    | cons r rs => exact .same _
    | nil =>
      cases sealed with
      | true => exact .emptied rfl
      | false =>
        cases calls with
        | cons c cs => exact .closed c
        | nil => exact .same _
  | draining r since =>
    cases calls with
    | cons c cs => exact .closed c
    | nil =>
      simp only [turn, consumes?, List.head?_nil]
      split
      · exact .checkedOut rfl
      · exact .same _
  | awaiting r since d i =>
    cases calls with
    | cons c cs =>
      simp only [turn, consumes?, List.head?_cons]
      split
      · split
        · exact .same _
        · exact .same _
      · exact .closed c
    | nil => exact .same _
  | _ => exact .same _

theorem shift_sendOver (q : RequestQueue χ) (r : Request) (since : Nat) (c : Channel χ) :
    q.Shift none (q.sendOver r since c).1.cache := by
  unfold sendOver
  split
  · exact .same _
  · exact .same _

theorem shift_step (q : RequestQueue χ) {e : QueueEvent χ} (he : e ≠ .turn) :
    q.Shift none (q.step e).1.cache := by
  unfold step
  split
  · exact absurd rfl he
  · exact shift_sendOver q _ _ _
  · exact .same _
  · exact shift_sendOver q _ _ _
  · exact .same _
  · next r since c o a hp =>
    split
    · exact .same _
    · split
      · exact .same _
      · unfold sent
        split
        · exact .stored (congrArg QueuePhase.placed? hp) c
        · exact .same _
  · next r since c i s hp =>
    split
    · exact .same _
    · unfold received
      split
      · split
        · exact .stored (congrArg QueuePhase.placed? hp) c
        · exact .same _
      · exact .same _
      · exact .same _
  · exact .same _

/-- While a request to an endpoint is worked on, the channel of another one is touched only by a close
call that names it. -/
theorem Shift.lookup {c : Option CloseCall} {cache : List (EndpointName × Channel χ)}
    (h : q.Shift c cache) {r : Request} (hr : q.phase.request? = some r) {e : EndpointName}
    (he : e ≠ r.destination) (hc : ∀ d, c = some d → d.endpoint ≠ e) :
    cache.lookup e = q.cache.lookup e := by
  cases h with
  | same => rfl
  | closed c => exact lookup_closeCached q (hc c rfl).symm
  | checkedOut hr' =>
    rw [hr] at hr'
    cases hr'
    rw [lookup_filter_key fun d => decide (d ≠ r.destination), if_pos (by simpa using he)]
  | stored hr' c =>
    have hthis : q.phase.request? = q.phase.placed? := by
      revert hr'
      cases q.phase <;> simp [QueuePhase.request?, QueuePhase.placed?]
    rw [← hthis, hr] at hr'
    cases hr'
    rw [List.lookup_cons, show (e == r.destination) = false by simpa using he]
  | emptied hp =>
    rw [hp] at hr
    cases hr

/-- What comes into the cache comes from the request in flight. -/
theorem Shift.mem {c : Option CloseCall} {cache : List (EndpointName × Channel χ)}
    (h : q.Shift c cache) {p : EndpointName × Channel χ} (hp : p ∈ cache) :
    p ∈ q.cache ∨ ∃ r, q.phase.placed? = some r ∧ p.1 = r.destination := by
  cases h with
  | same => exact .inl hp
  | closed c =>
    simp only [closeCached, List.partition_eq_filter_filter] at hp
    exact .inl (List.mem_filter.1 hp).1
  | checkedOut => exact .inl (List.mem_filter.1 hp).1
  | stored hr c =>
    rcases List.mem_cons.1 hp with rfl | hp
    · exact .inr ⟨_, hr, rfl⟩
    · exact .inl hp
  | emptied => cases hp

end RequestQueue

namespace Paced
variable {χ : Type} {w w' : Paced χ}

theorem shift_move {c : Option CloseCall} (h : Move w c w') : w.queue.Shift c w'.queue.cache := by
  cases h with
  | put r =>
    have hsame : (w.queue.put r).1.cache = w.queue.cache := by
      unfold RequestQueue.put
      split <;> rfl
    rw [put, hsame]
    exact .same _
  | takeNumber => exact .same _
  | deliver c =>
    have hsame : (w.queue.deliver c).cache = w.queue.cache := by
      unfold RequestQueue.deliver
      split <;> rfl
    rw [hsame]
    exact .same _
  | shutdown => exact .same _
  | turn =>
    rw [event, RequestQueue.step_turn]
    exact w.queue.shift_turn
  | came e he => exact w.queue.shift_step he
  | perform => exact .same _

/-! ## Stations -/

/-- What has become of a channel. -/
inductive Station where
  | cached
  | inUse
  /-- Its closing has begun, or is over. -/
  | givenUp

/-- The channel over a stream is there, for an endpoint. -/
def At (w : Paced χ) (e : EndpointName) (x : χ) : Station → Prop
  | .cached => ∃ c, (e, c) ∈ w.queue.cache ∧ c.stream = some x
  | .inUse => ∃ r c, w.queue.phase.placed? = some r ∧ r.destination = e
      ∧ w.queue.inUse = some c ∧ c.stream = some x
  | .givenUp => .released x .stream ∈ w.log ++ w.due

/-- The streams of all channels that are there, and those that are given up. -/
def streams (w : Paced χ) : List χ :=
  w.watched.sight.stored ++ w.watched.sight.engaged ++ Log.returned (w.log ++ w.due)

/-- A channel is in use for the request in flight. -/
theorem exists_placed {q : RequestQueue χ} {c : Channel χ} (h : q.inUse = some c) :
    ∃ r, q.phase.placed? = some r := by
  unfold RequestQueue.inUse at h
  split at h
  · exact ⟨_, congrArg QueuePhase.placed? ‹_›⟩
  · exact ⟨_, congrArg QueuePhase.placed? ‹_›⟩
  · exact ⟨_, congrArg QueuePhase.placed? ‹_›⟩
  · cases h

theorem Image.sight {v : Watched χ} (h : Image w v) :
    v.sight = { w.watched.sight with log := v.log } := by
  rw [Watched.sight, h.queue]
  rfl

theorem Image.inUse {v : Watched χ} (h : Image w v) :
    v.sight.phase.channel? = w.queue.inUse := by
  rw [Watched.channel?_sight, h.queue]

theorem Image.released {v : Watched χ} (h : Image w v) {x : χ} :
    .released x .stream ∈ v.log ↔ .released x .stream ∈ w.log ++ w.due :=
  h.log.mem (by simp)

variable [DecidableEq χ]

/-- No channel is lost. -/
theorem exists_at (h : Reachable w) {k : Nat} {e : EndpointName} {x : χ}
    (hm : .connected k e x ∈ w.log ++ w.due) : ∃ a, w.At e x a := by
  obtain ⟨-, v, hv⟩ := image h
  have hconnected : .connected k e x ∈ v.log := (hv.log.mem (by simp)).2 hm
  have hrouted := Sight.routed_reachable hv.reachable
  rcases (Sight.books_reachable hv.reachable).known k e x hconnected with
    (⟨p, hp, hx⟩ | ⟨c, hc, hx⟩) | hgone
  · have he := Watched.leads_unique hv.reachable x _ _ (hrouted.cached p hp x hx) ⟨k, hconnected⟩
    rw [hv.sight] at hp
    exact ⟨.cached, p.2, he ▸ hp, hx⟩
  · obtain ⟨r, hr⟩ := exists_placed (hv.inUse ▸ hc)
    have hplaced : v.sight.phase.placed? = some r := by rwa [hv.sight]
    have he := Watched.leads_unique hv.reachable x _ _ (hrouted.inUse r c x hplaced hc hx)
      ⟨k, hconnected⟩
    exact ⟨.inUse, r, c, hr, he, hv.inUse ▸ hc, hx⟩
  · exact ⟨.givenUp, hv.released.1 hgone.released⟩

/-- No channel is in two places. -/
theorem at_unique (h : Reachable w) {e : EndpointName} {x : χ} {a b : Station} (ha : w.At e x a)
    (hb : w.At e x b) : a = b := by
  obtain ⟨-, v, hv⟩ := image h
  have hbooks := Sight.books_reachable hv.reachable
  have hheld : v.sight.Held x → ¬ w.At e x .givenUp := fun hheld hm => by
    obtain ⟨_, _, hkept⟩ := hbooks.held hheld
    exact hkept.unreleased _ (hv.released.2 hm)
  have hcached : w.At e x .cached → v.sight.Held x := fun ⟨c, hc, hx⟩ =>
    .inl ⟨(e, c), by rwa [hv.sight], hx⟩
  have hused : w.At e x .inUse → v.sight.Held x := fun ⟨_, c, _, _, hc, hx⟩ =>
    .inr ⟨c, hv.inUse ▸ hc, hx⟩
  have haside : w.At e x .cached → ¬ w.At e x .inUse := fun ⟨d, hd, hdx⟩ ⟨_, c, _, _, hc, hx⟩ =>
    hbooks.aside c (hv.inUse ▸ hc) (e, d) (by rwa [hv.sight]) (hdx.trans hx.symm)
  cases a <;> cases b
  case cached.inUse => exact absurd hb (haside ha)
  case cached.givenUp => exact absurd hb (hheld (hcached ha))
  case inUse.cached => exact absurd ha (haside hb)
  case inUse.givenUp => exact absurd hb (hheld (hused ha))
  case givenUp.cached => exact absurd ha (hheld (hcached hb))
  case givenUp.inUse => exact absurd ha (hheld (hused hb))
  all_goals rfl

/-- No stream is in two channels, or given up twice. -/
theorem nodup_streams (h : Reachable w) : w.streams.Nodup := by
  obtain ⟨-, v, hv⟩ := image h
  obtain ⟨hall, honce, -⟩ := Sight.holdings_reachable hv.reachable
  rw [hv.sight] at hall
  exact (hv.log.returned.append_left _).nodup_iff.1 (hall.nodup_iff.2 honce)

/-- The endpoint of a request has no cached channel once its cache was looked up. -/
theorem absent (h : Reachable w) {r : Request} (hr : w.queue.phase.placed? = some r) :
    ∀ p ∈ w.queue.cache, p.1 ≠ r.destination := by
  obtain ⟨-, v, hv⟩ := image h
  rw [← hv.queue] at hr ⊢
  exact (Sight.books_reachable hv.reachable).absent r hr

/-! ## One channel for each endpoint -/

omit [DecidableEq χ] in
/-- What the queue does by itself connects to nothing. -/
theorem not_connected_marked {n k : Nat} {e : EndpointName} {x : χ} {via : Option χ}
    (acts : List (QueueAct χ)) : .connected k e x ∉ acts.map (Watched.marked n via) := by
  intro hm
  obtain ⟨a, -, ha⟩ := List.mem_map.1 hm
  cases a <;> cases ha

omit [DecidableEq χ] in
/-- With an event the queue connects to an endpoint only if that is what the event shows. -/
theorem connected_event {ev : QueueEvent χ} {k : Nat} {e : EndpointName} {x : χ}
    (hm : .connected k e x ∈ (w.event ev).log ++ (w.event ev).due) :
    .connected k e x ∈ w.log ++ w.due
      ∨ Log.Leads (Watched.shown (Log.number w.log) w.queue ev) x e := by
  simp only [event, List.mem_append] at hm
  rcases hm with (hm | hm) | hm | hm
  · exact .inl (List.mem_append_left _ hm)
  · exact .inr ⟨k, hm⟩
  · refine .inl (List.mem_append_right _ ?_)
    split at hm
    · exact hm
    · exact (List.mem_filter.1 hm).1
  · exact absurd hm (not_connected_marked _)

omit [DecidableEq χ] in
/-- A queue connects to an endpoint only while nothing is due, for a request that has no channel. -/
theorem connected_move {c : Option CloseCall} (h : Move w c w') :
    (∀ k e x, .connected k e x ∈ w'.log ++ w'.due → .connected k e x ∈ w.log ++ w.due)
      ∨ w.due = [] ∧ w.queue.inUse = none ∧ ∃ r y, w.queue.phase.placed? = some r
        ∧ ∀ k e x, .connected k e x ∈ w'.log ++ w'.due →
          .connected k e x ∈ w.log ++ w.due ∨ e = r.destination ∧ x = y := by
  cases h with
  | put r =>
    refine .inl fun k e x hm => ?_
    simp only [put, Watched.put, watched, List.mem_append, List.mem_cons] at hm
    rcases hm with (hm | hm | hm) | hm
    · exact List.mem_append_left _ hm
    · cases hm
    · exact absurd hm (not_connected_marked _)
    · exact List.mem_append_right _ hm
  | takeNumber => exact .inl fun _ _ _ hm => hm
  | deliver => exact .inl fun _ _ _ hm => hm
  | shutdown => exact .inl fun _ _ _ hm => hm
  | turn =>
    refine .inl fun k e x hm => (connected_event hm).resolve_right fun hleads => ?_
    obtain ⟨j, hj⟩ := hleads
    rw [Watched.shown_turn] at hj
    cases hj
  | came ev _ _ done =>
    by_cases hleads : ∃ x e, Log.Leads (Watched.shown (Log.number w.log) w.queue ev) x e
    · obtain ⟨y, e, hleads⟩ := hleads
      obtain ⟨r, since, c, hp, rfl, hy, -⟩ := Watched.leads_shown hleads
      have hdue : w.due = [] := done.resolve_right (by simp)
      have hnone : w.queue.inUse = none := by rw [RequestQueue.inUse, hp]
      refine .inr ⟨hdue, hnone, r, y, congrArg QueuePhase.placed? hp, fun k e' x hm => ?_⟩
      refine (connected_event hm).imp_right fun hleads' => ?_
      obtain ⟨r', since', c', hp', hc, hx, he⟩ := Watched.leads_shown hleads'
      cases hp.symm.trans hp'
      cases hc
      exact ⟨he, Option.some.inj (hx.symm.trans hy)⟩
    · exact .inl fun k e x hm => (connected_event hm).resolve_right fun h => hleads ⟨x, e, h⟩
  | @perform m rest hdue =>
    refine .inl fun k e x hm => ?_
    rwa [List.append_assoc, List.singleton_append, ← hdue] at hm

omit [DecidableEq χ] in
/-- What was noted stays noted. -/
theorem log_move {c : Option CloseCall} (h : Move w c w') {m : Mark χ} (hm : m ∈ w.log) :
    m ∈ w'.log := by
  cases h with
  | takeNumber => exact hm
  | deliver => exact hm
  | shutdown => exact hm
  | put => exact List.mem_append_left _ hm
  | turn => exact List.mem_append_left _ hm
  | came => exact List.mem_append_left _ hm
  | perform => exact List.mem_append_left _ hm

/-- Once nothing is due and a request has neither a cached channel nor one in use, none is left that
leads to its endpoint. -/
theorem released_of_placed (h : Reachable w) (hdue : w.due = []) (hnone : w.queue.inUse = none)
    {r : Request} (hr : w.queue.phase.placed? = some r) {k : Nat} {x : χ}
    (hm : .connected k r.destination x ∈ w.log ++ w.due) : .released x .stream ∈ w.log := by
  obtain ⟨a, hat⟩ := exists_at h hm
  cases a with
  | cached =>
    obtain ⟨c, hc, -⟩ := hat
    exact absurd rfl (absent h hr _ hc)
  | inUse =>
    obtain ⟨_, c, -, -, hc, -⟩ := hat
    rw [hnone] at hc
    cases hc
  | givenUp =>
    rw [At, hdue, List.append_nil] at hat
    exact hat

/-- Of all channels that were connected to an endpoint, one at most is not released. -/
theorem lone_reachable (h : Reachable w) {e : EndpointName} {k j : Nat} {x y : χ}
    (hx : .connected k e x ∈ w.log ++ w.due) (hy : .connected j e y ∈ w.log ++ w.due)
    (hxr : .released x .stream ∉ w.log) (hyr : .released y .stream ∉ w.log) : x = y := by
  induction h with
  | start => cases hx
  | @move w w' c before move ih =>
    have hxr' : .released x .stream ∉ w.log := fun hm => hxr (log_move move hm)
    have hyr' : .released y .stream ∉ w.log := fun hm => hyr (log_move move hm)
    rcases connected_move move with hsame | ⟨hdue, hnone, r, z, hr, hnew⟩
    · exact ih (hsame k e x hx) (hsame j e y hy) hxr' hyr'
    · rcases hnew k e x hx with hx | ⟨rfl, rfl⟩ <;> rcases hnew j _ y hy with hy | ⟨he, rfl⟩
      · exact ih hx hy hxr' hyr'
      · subst he
        exact absurd (released_of_placed before hdue hnone hr hx) hxr'
      · exact absurd (released_of_placed before hdue hnone hr hy) hyr'
      · rfl

/-! ## The whole account -/

/-- What happens from one moment to another while a request is worked on, with the close calls that
are consumed meanwhile. -/
inductive Handling (r : Request) (w : Paced χ) : List CloseCall → Paced χ → Prop
  | here : Handling r w [] w
  | move {calls : List CloseCall} {v v' : Paced χ} {c : Option CloseCall}
      (before : Handling r w calls v) (busy : v.queue.phase.request? = some r) (move : Move v c v') :
    Handling r w (calls ++ c.toList) v'

omit [DecidableEq χ] in
/-- A request leaves the channels of other endpoints where they are. -/
theorem Handling.lookup {r : Request} {calls : List CloseCall} (h : Handling r w calls w')
    {e : EndpointName} (he : e ≠ r.destination) (hcalls : ∀ c ∈ calls, c.endpoint ≠ e) :
    w'.queue.cache.lookup e = w.queue.cache.lookup e := by
  induction h with
  | here => rfl
  | @move calls v v' c before busy move ih =>
    have hbefore := ih fun d hd => hcalls d (List.mem_append_left _ hd)
    rw [← hbefore]
    refine (shift_move move).lookup busy he fun d hd => hcalls d (List.mem_append_right _ ?_)
    rw [hd]
    exact List.mem_singleton_self d

/-- What comes into the cache takes nobody's place. -/
theorem lookup_new (h : Reachable w) {c : Option CloseCall} (hmove : Move w c w')
    {p : EndpointName × Channel χ} (hp : p ∈ w'.queue.cache) (hnew : p ∉ w.queue.cache) :
    w.queue.cache.lookup p.1 = none := by
  obtain ⟨r, hr, he⟩ := ((shift_move hmove).mem hp).resolve_left hnew
  refine List.lookup_eq_none_iff.2 fun q hq => ?_
  simpa [he] using Ne.symm (absent h hr q hq)

/-- Every channel that was connected is cached under its endpoint, in use by the request in flight
for it, or given up, and it is only one of these; no stream is in two channels. No endpoint has two
channels that are not released yet, so what comes into the cache takes nobody's place. While a
request is worked on, channels of other endpoints stay where they are unless a close call for them is
consumed. Once the queue has stopped and nothing is due, every channel is released. -/
theorem channels_accounted_for (h : Reachable w) :
    (∀ k e x, .connected k e x ∈ w.log → ∃! a, w.At e x a)
    ∧ w.streams.Nodup
    ∧ (∀ k j e x y, .connected k e x ∈ w.log → .connected j e y ∈ w.log →
        .released x .stream ∉ w.log → .released y .stream ∉ w.log → x = y)
    ∧ (∀ c w', Move w c w' → ∀ p ∈ w'.queue.cache, p ∉ w.queue.cache →
        w.queue.cache.lookup p.1 = none)
    ∧ (∀ r calls w', Handling r w calls w' → ∀ e, e ≠ r.destination →
        (∀ c ∈ calls, c.endpoint ≠ e) → w'.queue.cache.lookup e = w.queue.cache.lookup e)
    ∧ (w.queue.phase = .stopped → w.due = [] → ∀ k e x, .connected k e x ∈ w.log →
        .released x .stream ∈ w.log) := by
  have hthere {k : Nat} {e : EndpointName} {x : χ} (hm : .connected k e x ∈ w.log) :
      ∃ a, w.At e x a := exists_at h (List.mem_append_left _ hm)
  refine ⟨fun k e x hm => ?_, nodup_streams h,
    fun k j e x y hx hy => lone_reachable h (List.mem_append_left _ hx) (List.mem_append_left _ hy),
    fun c w' hmove p hp hnew => lookup_new h hmove hp hnew,
    fun r calls w' hrun e he hcalls => hrun.lookup he hcalls, fun hstopped hdue k e x hm => ?_⟩
  · obtain ⟨a, hat⟩ := hthere hm
    exact ⟨a, hat, fun b hb => at_unique h hb hat⟩
  obtain ⟨a, hat⟩ := hthere hm
  cases a with
  | cached =>
    obtain ⟨c, hc, -⟩ := hat
    obtain ⟨-, v, hv⟩ := image h
    have hempty := Sight.emptied_reachable hv.reachable (by rw [hv.sight]; exact hstopped)
    rw [show w.queue.cache = [] by rwa [hv.sight] at hempty] at hc
    cases hc
  | inUse =>
    obtain ⟨r, c, hr, -⟩ := hat
    rw [hstopped] at hr
    cases hr
  | givenUp =>
    rw [At, hdue, List.append_nil] at hat
    exact hat

/-! ### A closing that is broken off -/

def spare : EndpointName := ⟨"spare", by decide⟩

/-- A request to another endpoint, which waits for its response. -/
def inquiry : Request := Request.start spare "Echo" "ping"

def inquired : Request := { inquiry with progress := .inFlight }

def inquiryFrame : Frame.Outgoing := .ofParts [Bytes.big32 inquiry.encode.length, inquiry.encode]

/-- A queue with nothing waiting. -/
def scene (phase : QueuePhase Nat) (calls : List CloseCall) (taken : Nat)
    (cache : List (EndpointName × Channel Nat)) (due log : List (Mark Nat)) : Paced Nat :=
  ⟨⟨phase, [], calls, false, taken, cache⟩, due, log⟩

/-- The channel to the agent is cached. -/
theorem reachable_nudged : Reachable (scene .idle [] 0 [(.agent, .opened "c" 0)] []
    ([.put Watched.nudge, .connected 0 .agent 0] ++ Watched.nudged 0 0)) := by
  have hasked : Reachable (scene (.connecting { Watched.nudge with progress := .inFlight } 0) [] 0 []
      [] [.put Watched.nudge]) :=
    ((Reachable.start.move (.put Watched.nudge)).move (.turn rfl)).move (.turn rfl)
  have hsending : Reachable (scene (.sending { Watched.nudge with progress := .inFlight } 0
      (.opened "c" 0) Watched.nudgeFrame) [] 0 [] [] [.put Watched.nudge, .connected 0 .agent 0]) :=
    hasked.move (.came (.connected (.ok (.opened "c" 0))) (by simp)
      ⟨0, rfl, by simp [scene, watched]⟩ (.inl rfl))
  have hhalf := hsending.move
    (.came (.wrote (.took 4)) (by simp) (fun bs h => by cases h; decide) (.inl rfl))
  have hsent := hhalf.move (.came (.wrote (.took Watched.nudge.encode.length)) (by simp)
    (fun bs h => by cases h; exact Nat.le_refl _) (.inl rfl))
  exact hsent.move (.perform rfl)

/-- What is noted until the inquiry was written. -/
def inquiring : List (Mark Nat) :=
  [.put Watched.nudge, .connected 0 .agent 0] ++ Watched.nudged 0 0
    ++ [.put inquiry, .connected 1 spare 1, .wrote 1 1 (Bytes.big32 inquiry.encode.length) (.took 4),
      .wrote 1 1 inquiry.encode (.took inquiry.encode.length)]

/-- The channel to the agent is about to be closed while the inquiry awaits its response. -/
theorem reachable_inquiring : Reachable (scene (.awaiting inquired 0 (.opened "d" 1) .start) [] 1 []
    [.released 0 .shutDown, .released 0 .stream] inquiring) := by
  have hasked : Reachable (scene (.connecting inquired 0) [] 0 [(.agent, .opened "c" 0)] []
      ([.put Watched.nudge, .connected 0 .agent 0] ++ Watched.nudged 0 0 ++ [.put inquiry])) :=
    ((reachable_nudged.move (.put inquiry)).move (.turn rfl)).move (.turn rfl)
  have hsending : Reachable (scene (.sending inquired 0 (.opened "d" 1) inquiryFrame) [] 0
      [(.agent, .opened "c" 0)] [] ([.put Watched.nudge, .connected 0 .agent 0]
        ++ Watched.nudged 0 0 ++ [.put inquiry, .connected 1 spare 1])) :=
    hasked.move (.came (.connected (.ok (.opened "d" 1))) (by simp)
      ⟨1, rfl, by simp [scene, watched, Watched.nudged]⟩ (.inl rfl))
  have hhalf := hsending.move
    (.came (.wrote (.took 4)) (by simp) (fun bs h => by cases h; decide) (.inl rfl))
  have hawaiting : Reachable (scene (.awaiting inquired 0 (.opened "d" 1) .start) [] 0
      [(.agent, .opened "c" 0)] [] inquiring) :=
    hhalf.move (.came (.wrote (.took inquiry.encode.length)) (by simp)
      (fun bs h => by cases h; exact Nat.le_refl _) (.inl rfl))
  exact ((hawaiting.move .takeNumber).move (.deliver ⟨.agent, 1⟩ (Nat.le_refl 1))).move (.turn rfl)

/-- The peer of the inquiry goes away before the agent is told: its channel is released untold. Once
the queue has stopped, so are all others. -/
theorem channels_accounted_for_untold : ∃ w : Paced Nat, w.Reachable ∧ w.queue.phase = .stopped
    ∧ w.due = [] ∧ .connected 0 .agent 0 ∈ w.log ∧ .released 0 .shutDown ∉ w.log
    ∧ .released 0 .stream ∈ w.log ∧ .released 1 .stream ∈ w.log := by
  have hbroken := reachable_inquiring.move
    (.came (.read (.ok .eof)) (by simp) trivial (.inr ⟨_, rfl⟩))
  have hdone : Reachable (scene .idle [] 1 [] [] (inquiring ++ [.read 1 1 (.ok .eof),
      .released 0 .stream, .released 1 .shutDown, .released 1 .stream,
      .ended 1 (some 1) (.failed inquired RequestQueue.closedByPeer)])) :=
    (((hbroken.move (.perform rfl)).move (.perform rfl)).move (.perform rfl)).move (.perform rfl)
  have hstopped := (hdone.move .shutdown).move (.turn rfl)
  have hreleased := (channels_accounted_for hstopped).2.2.2.2.2 rfl rfl
  refine ⟨_, hstopped, rfl, rfl, ?_, ?_, hreleased 0 .agent 0 ?_, hreleased 1 spare 1 ?_⟩ <;>
    simp [event, RequestQueue.step_turn, Watched.shown_turn, scene, inquiring, Watched.nudged]

end Paced
end CommandLink
