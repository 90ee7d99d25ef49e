import CommandLink.Proofs.Closing.Aimed
/-!
# Ending a request unaided

A call to close a channel is to end the request that is in flight over it, whatever becomes of the
peer. How far that goes is a matter of what the queue can do by itself: take its turns, and look
whether a cached channel is quiet, for which it never waits. That a connection comes about, that a
write is taken and that something is read is up to others.

Close calls are consumed before a channel is looked for and while a response is awaited. So the
queue ends the request by itself while it awaits the response. In front of that it waits for others
and leaves the call unread, or has consumed it for the cached channels' sake.

Results:
* `struck_by_turns`: after as many turns as there are calls, a request whose response is awaited has
  failed.
* `deaf_step`, `deaf_unaided`: a request that is being connected or sent is ended by nothing that the
  queue does by itself.
* `ends_unaided_iff`: so the queue ends a request by itself exactly while its response is awaited, or
  over a frame that is too large.
* `unheard_while_sending`: a request that is not ended although a call asks for it.
-/
namespace CommandLink

/-- Needs nobody but the queue. -/
def QueueEvent.isOwn {χ : Type} : QueueEvent χ → Bool
  | .turn | .probed _ => true
  | .connected _ | .wrote _ | .read _ => false

namespace RequestQueue
variable {χ : Type} {q : RequestQueue χ}

/-- The request in flight is not ended by what the queue does by itself: the queue waits for others,
or will, since it finds no channel cached or closes it before it looks. -/
def Deaf (q : RequestQueue χ) : Prop :=
  match q.phase with
  | .draining r _ =>
    (∃ c ∈ q.calls, c.endpoint = r.destination) ∨ q.cache.lookup r.destination = none
  | .probing r _ _ => r.encode.length ≤ Frame.maxSize
  | .connecting _ _ | .sending _ _ _ _ => True
  | .idle | .awaiting _ _ _ _ | .stopped => False

theorem lookup_closeCached_self (q : RequestQueue χ) (e : EndpointName) :
    (q.closeCached e).1.cache.lookup e = none := by
  have h := lookup_filter_key (fun x : EndpointName => !decide (x = e)) q.cache e
  rw [if_neg (by simp)] at h
  simpa [closeCached, List.partition_eq_filter_filter, Function.comp_def] using h

theorem deaf_closeCached {r : Request} {since : Nat} {c : CloseCall} {cs : List CloseCall}
    (hp : q.phase = .draining r since) (hc : q.calls = c :: cs) (h : q.Deaf) :
    ({ q with calls := cs }.closeCached c.endpoint).1.Deaf := by
  simp only [Deaf, hp, hc, closeCached] at h ⊢
  by_cases he : c.endpoint = r.destination
  · right
    rw [he]
    exact lookup_closeCached_self q r.destination
  · rcases h with ⟨c', hmem, hdest⟩ | hnone
    · rcases List.mem_cons.1 hmem with rfl | hmem
      · exact absurd hdest he
      · exact .inl ⟨c', hmem, hdest⟩
    · right
      exact (lookup_closeCached q (Ne.symm he)).trans hnone

/-- No step that the queue takes by itself ends a request for which it is deaf, or changes that. -/
theorem deaf_step (h : q.Deaf) {e : QueueEvent χ} (own : e.isOwn) :
    (q.step e).1.Deaf ∧ ∀ ending, .ended ending ∉ (q.step e).2 := by
  cases e with
  | turn =>
    rw [step_turn]
    cases hp : q.phase with
    | draining r since =>
      cases hc : q.calls with
      | cons c cs =>
        have hturn : q.turn = { q with calls := cs }.closeCached c.endpoint := by
          simp only [turn, hp, hc]
        rw [hturn]
        exact ⟨deaf_closeCached hp hc h, not_ended_flatMap_closing _⟩
      | nil =>
        have hnone : q.cache.lookup r.destination = none := by simpa [Deaf, hp, hc] using h
        have hturn : q.turn = ({ q with phase := .connecting r since }, []) := by
          simp only [turn, hp, hc, hnone]
        rw [hturn]
        exact ⟨trivial, fun ending => List.not_mem_nil⟩
    | probing r since c | connecting r since | sending r since c o =>
      have hturn : q.turn = (q, []) := by simp only [turn, hp]
      rw [hturn]
      exact ⟨h, fun ending => List.not_mem_nil⟩
    | idle | awaiting | stopped => simp [Deaf, hp] at h
  | probed s =>
    cases hp : q.phase with
    | probing r since c =>
      have hfits : r.encode.length ≤ Frame.maxSize := by simpa [Deaf, hp] using h
      by_cases hs : s = .ok .empty
      · subst hs
        have hsend : q.step (.probed (.ok .empty)) = q.sendOver r since c := by simp only [step, hp]
        rw [hsend, sendOver, Frame.Outgoing.start, if_pos hfits]
        exact ⟨trivial, fun ending => List.not_mem_nil⟩
      · have hdrop : q.step (.probed s) = ({ q with phase := .connecting r since }, closing c) := by
          simp only [step, hp]
        rw [hdrop]
        exact ⟨trivial, not_ended_closing c⟩
    | draining | connecting | sending =>
      have hsame : q.step (.probed s) = (q, []) := by simp only [step, hp]
      rw [hsame]
      exact ⟨h, fun ending => List.not_mem_nil⟩
    | idle | awaiting | stopped => simp [Deaf, hp] at h
  | connected | wrote | read => cases own

end RequestQueue

namespace Watched
variable {χ : Type} {w v : Watched χ}

open Log

/-- A queue after some of its turns, with nothing else in between. -/
def turns : Nat → Watched χ → Watched χ
  | 0, w => w
  | n + 1, w => turns n (w.event .turn)

theorem fits_turn (w : Watched χ) : w.Fits .turn := by
  unfold Fits
  split <;> trivial

/-- What a queue can come to by itself. -/
inductive Unaided (w : Watched χ) : Watched χ → Prop
  | refl : Unaided w w
  | step {v : Watched χ} (before : Unaided w v) {e : QueueEvent χ} (own : e.isOwn) (fits : v.Fits e) :
      Unaided w (v.event e)

theorem Unaided.turns (h : w.Unaided v) (n : Nat) : w.Unaided (Watched.turns n v) := by
  induction n generalizing v with
  | zero => exact h
  | succ n ih => exact ih (h.step rfl v.fits_turn)

theorem Unaided.reachable (h : w.Unaided v) (hw : w.Reachable) : v.Reachable := by
  induction h with
  | refl => exact hw
  | step _ _ fits ih => exact ih.event _ fits

/-- While a response is awaited, the calls are consumed one by one, and one that took its number
afterwards ends the request. -/
theorem struck_by_turns {r : Request} {since : Nat} {d : Channel χ} {i : Frame.Intake}
    {c : CloseCall} (hp : w.queue.phase = .awaiting r since d i) (hc : c ∈ w.queue.calls)
    (he : c.endpoint = r.destination) (hn : since < c.number) :
    ∃ n ≤ w.queue.calls.length, .ended (number w.log) d.stream
      (.failed r RequestQueue.closedInFlight) ∈ (turns n w).log := by
  generalize hcalls : w.queue.calls = calls at hc ⊢
  induction calls generalizing w with
  | nil => cases hc
  | cons c₀ cs ih =>
    by_cases hdest : c₀.endpoint = r.destination
    · by_cases hlater : since < c₀.number
      · -- the first call is one that ends the request
        refine ⟨1, Nat.le_add_left 1 _, ?_⟩
        simp only [turns, event_struck hp hcalls hdest hlater]
        exact List.mem_append_right _ (List.mem_append_right _ (List.mem_singleton_self _))
      · have hmem : c ∈ cs := by
          rcases List.mem_cons.1 hc with rfl | hmem
          · exact absurd hn hlater
          · exact hmem
        have hturn := event_overlooked hp hcalls hdest (Nat.le_of_not_lt hlater)
        obtain ⟨n, hle, hended⟩ := ih (w := w.event .turn) (by rw [hturn]; exact hp)
          (by rw [hturn]) hmem
        rw [hturn] at hended
        exact ⟨n + 1, Nat.succ_le_succ hle, by rw [turns, hturn]; exact hended⟩
    · have hmem : c ∈ cs := by
        rcases List.mem_cons.1 hc with rfl | hmem
        · exact absurd he hdest
        · exact hmem
      have hturn := event_spared hp hcalls hdest
      obtain ⟨n, hle, hended⟩ := ih (w := w.event .turn) (by rw [hturn]; exact hp)
        (by rw [hturn]) hmem
      -- what is given back on the way counts for no request
      have hnumber : number (w.event .turn).log = number w.log := by
        rw [hturn, number_append, number, number, endings_releases (releases_flatMap _)]
        rfl
      rw [hnumber] at hended
      exact ⟨n + 1, Nat.succ_le_succ hle, hended⟩

/-- As long as the queue goes on by itself, a request that it is deaf for does not end. -/
theorem deaf_unaided (h : w.Unaided v) (hw : w.queue.Deaf) :
    v.queue.Deaf ∧ number v.log = number w.log := by
  induction h with
  | refl => exact ⟨hw, rfl⟩
  | @step v _ e own _ ih =>
    obtain ⟨hdeaf, hnumber⟩ := ih
    obtain ⟨hstays, hnone⟩ := RequestQueue.deaf_step hdeaf own
    refine ⟨hstays, ?_⟩
    have hendings : endings (v.event e).log = endings v.log := by
      have hnew : ∀ m ∈ shown (number v.log) v.queue e
          ++ (v.queue.step e).2.map (marked (number v.log) (via? v.queue e)),
          ∀ k via ending, m ≠ .ended k via ending := by
        rintro m hm k via ending rfl
        rcases List.mem_append.1 hm with hm | hm
        · exact not_ended_shown _ _ _ _ _ _ hm
        · exact hnone _ (Chronicled.mem_ended hm)
      rw [event, List.append_assoc, endings_append, List.append_right_eq_self]
      refine List.filterMap_eq_nil_iff.2 fun m hm => ?_
      cases m with
      | ended k via ending => exact absurd rfl (hnew _ hm k via ending)
      | _ => rfl
    rw [number, hendings]
    exact hnumber

/-- A close call that took its number after the request in flight did is waiting. While the response
to the request is awaited, the queue ends it with turns of its own, as many as there are calls at
most, as one whose channel was closed. In no other phase does the queue end it as an exception by
itself: not while it looks for a channel, not while it connects one and not while it sends, unless a
quiet channel was cached for a request whose frame is too large to be sent at all. -/
theorem ends_unaided_iff (h : w.Reachable) {r : Request} {since : Nat} {c : CloseCall}
    (hf : w.queue.phase.flight? = some (r, since)) (hc : c ∈ w.queue.calls)
    (he : c.endpoint = r.destination) (hn : since < c.number) :
    (∀ d i, w.queue.phase = .awaiting r since d i →
      ∃ n ≤ w.queue.calls.length, .ended (number w.log) d.stream
        (.failed r (.exception "channel closed while the request was in flight"))
          ∈ (turns n w).log)
    ∧ ((∃ v, w.Unaided v ∧ ∃ via text,
        .ended (number w.log) via (.failed r (.exception text)) ∈ v.log) ↔
      (∃ d i, w.queue.phase = .awaiting r since d i)
        ∨ ∃ d, w.queue.phase = .probing r since d ∧ Frame.maxSize < r.encode.length) := by
  refine ⟨fun d i hp => struck_by_turns hp hc he hn, ⟨?_, ?_⟩⟩
  · rintro ⟨v, hv, via, text, hended⟩
    refine Classical.byContradiction fun hnot => ?_
    simp only [not_or, not_exists, not_and, Nat.not_lt] at hnot
    have hdeaf : w.queue.Deaf := by
      unfold RequestQueue.Deaf
      cases hp : w.queue.phase with
      | draining r' since' =>
        rw [hp] at hf
        cases hf
        exact .inl ⟨c, hc, he⟩
      | probing r' since' d =>
        rw [hp] at hf
        cases hf
        exact hnot.2 d hp
      | connecting | sending => trivial
      | awaiting r' since' d i =>
        rw [hp] at hf
        cases hf
        exact hnot.1 d i hp
      | idle | stopped =>
        rw [hp] at hf
        cases hf
    -- an ending bears a number that is not in use any more
    have hlt := (Sight.numbered_reachable (hv.reachable h)).ended_lt hended
    rw [(deaf_unaided hv hdeaf).2] at hlt
    exact Nat.lt_irrefl _ hlt
  · rintro (⟨d, i, hp⟩ | ⟨d, hp, hlarge⟩)
    · obtain ⟨n, -, hended⟩ := struck_by_turns hp hc he hn
      exact ⟨turns n w, Unaided.refl.turns n, d.stream, _, hended⟩
    · refine ⟨w.event (.probed (.ok .empty)), Unaided.refl.step rfl (by simp only [Fits, hp]),
        via? w.queue (.probed (.ok .empty)), (LinkError.frameTooLarge r.encode.length).message, ?_⟩
      have hstep : w.queue.step (.probed (.ok .empty)) = w.queue.failOver d r
          (.exception (LinkError.frameTooLarge r.encode.length).message) := by
        simp only [RequestQueue.step, hp, RequestQueue.sendOver, Frame.Outgoing.start,
          if_neg (Nat.not_le.2 hlarge)]
      rw [event, hstep, RequestQueue.failOver, RequestQueue.endWith, List.map_append]
      exact List.mem_append_right _ (List.mem_append_right _ (List.mem_singleton_self _))

/-- The request that waits for a response, in flight. -/
def asked : Request := { ping with progress := .inFlight }

/-- A call to close the channel of that request, which took its number last. -/
def plea : CloseCall := ⟨.agent, 1⟩

/-- A channel is connected, and the request is to be sent over it when the call comes. -/
theorem reachable_unheard : Reachable (χ := Nat)
    ⟨⟨.sending asked 0 (.opened "c" 0) pingFrame, [], [plea], false, 1, []⟩,
      [.put ping, .connected 0 .agent 0]⟩ := by
  have hasked : Reachable (χ := Nat)
      ⟨⟨.connecting asked 0, [], [], false, 0, []⟩, [.put ping]⟩ :=
    ((Reachable.start.put ping).event .turn trivial).event .turn trivial
  have hsending := hasked.event (.connected (.ok (.opened "c" 0))) ⟨0, rfl, by simp⟩
  exact hsending.takeNumber.deliver plea (Nat.le_refl 1)

/-- Once the request is written, the call ends it. -/
theorem ends_unaided_awaiting :
    ∃ w : Watched Nat, w.Reachable ∧ (∃ d i, w.queue.phase = .awaiting asked 0 d i)
      ∧ plea ∈ w.queue.calls ∧ ∃ n ≤ 1, .ended 0 (some 0)
        (.failed asked (.exception "channel closed while the request was in flight"))
          ∈ (turns n w).log := by
  have hhalf := reachable_unheard.event (.wrote (.took 4)) (fun bs h => by cases h; decide)
  have hawaiting := hhalf.event (.wrote (.took ping.encode.length))
    (fun bs h => by cases h; exact Nat.le_refl _)
  obtain ⟨w, hw, hphase, hcalls, hnumber⟩ : ∃ w : Watched Nat, w.Reachable
      ∧ w.queue.phase = .awaiting asked 0 (.opened "c" 0) .start ∧ w.queue.calls = [plea]
      ∧ number w.log = 0 := ⟨_, hawaiting, rfl, rfl, rfl⟩
  have hmem : plea ∈ w.queue.calls := by rw [hcalls]; exact List.mem_singleton_self _
  obtain ⟨n, hn, hended⟩ := (ends_unaided_iff hw (congrArg QueuePhase.flight? hphase) hmem rfl
    Nat.zero_lt_one).1 _ _ hphase
  rw [hcalls] at hn
  rw [hnumber] at hended
  exact ⟨w, hw, ⟨_, _, hphase⟩, hmem, n, hn, hended⟩

/-- As long as nobody takes the bytes of the request, nothing ends it. -/
theorem unheard_while_sending :
    ¬ ∀ w : Watched Nat, w.Reachable → ∀ r since c, w.queue.phase.flight? = some (r, since) →
      c ∈ w.queue.calls → c.endpoint = r.destination → since < c.number →
      ∃ v, w.Unaided v ∧ ∃ via text,
        .ended (number w.log) via (.failed r (.exception text)) ∈ v.log := by
  intro h
  obtain ⟨v, hv, via, text, hended⟩ := h _ reachable_unheard asked 0 plea rfl
    (List.mem_singleton_self _) rfl Nat.zero_lt_one
  have hlt := (Sight.numbered_reachable (hv.reachable reachable_unheard)).ended_lt hended
  rw [(deaf_unaided hv trivial).2] at hlt
  exact Nat.lt_irrefl _ hlt

end Watched
end CommandLink
