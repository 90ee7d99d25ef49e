import CommandLink.Proofs.Closing.Chronicle
import CommandLink.Proofs.Queue.Outcome
/-!
# Close calls and requests in time

Close calls are numbered in the order in which they took their numbers, and a request that goes in
flight notes how many there were. So whether a call took its number before or after can be told from
the two numbers, however late the call is delivered.

Results:
* `reachable_dated`: the chronicle of every queue is dated, and its queue is one under observation.
* `Dated.takenSince_iff`, `Dated.taken_before`: what the numbers of a call and of the request in
  flight tell.
-/
namespace CommandLink

open Entry (marks takes)

/-- A close call that took its number, or a request that noted one, did so behind so many close calls
that had taken theirs. -/
def Entry.Tallies {χ : Type} (n : Nat) : Entry χ → Prop
  | .took c => c.number = n + 1
  | .began _ _ since => since = n
  | .mark _ | .consumed _ | .came _ => True

/-- A request with a number went in flight when so many close calls had taken a number, and nothing
had been written for it. -/
def Entered {χ : Type} (l : List (Entry χ)) (k : Nat) (r : Request) (since : Nat) : Prop :=
  ∃ front back, l = front ++ .began k r since :: back ∧ takes front = since
    ∧ Log.writtenBy k (marks front) = []

theorem Entered.add {χ : Type} {l : List (Entry χ)} {k : Nat} {r : Request} {since : Nat}
    (h : Entered l k r since) (new : List (Entry χ)) : Entered (l ++ new) k r since := by
  obtain ⟨front, back, rfl, htakes, hwritten⟩ := h
  exact ⟨front, back ++ new, by simp, htakes, hwritten⟩

namespace Sight
variable {χ : Type} {s s' : Sight χ}

open Log

/-- The request in flight stays, ends, or is a new one. -/
theorem flight_change (h : Change s s') : s'.phase.flight? = none
    ∨ (s'.phase.flight? = s.phase.flight? ∧ s'.number = s.number) ∨ s.phase = .idle := by
  have hstays : s'.phase.flight? = s.phase.flight? → ∀ {new : List (Mark χ)},
      s'.log = s.log ++ new → During s.number new → s'.phase.flight? = none
        ∨ (s'.phase.flight? = s.phase.flight? ∧ s'.number = s.number) ∨ s.phase = .idle :=
    fun hf _ hlog hnew => .inr (.inl ⟨hf, number_during_log hlog hnew⟩)
  cases h with
  | same => exact .inr (.inl ⟨rfl, rfl⟩)
  | put r => exact hstays rfl rfl (during_singleton rfl (.inl rfl))
  | refused r hp => exact .inl (congrArg QueuePhase.flight? hp)
  | began since hp => exact .inr (.inr hp)
  | dropped => exact hstays rfl rfl (during_releases _ (releases_flatMap _))
  | stopped => exact .inl rfl
  | checkedOut hp => exact .inr (.inl ⟨(congrArg QueuePhase.flight? hp).symm, rfl⟩)
  | missing hp => exact .inr (.inl ⟨(congrArg QueuePhase.flight? hp).symm, rfl⟩)
  | @stale r since c x p hp =>
    have hnew : During s.number ([.probed s.number x p] ++ closing c) :=
      during_append (during_singleton rfl (.inr rfl)) (during_releases _ (releases_closing c))
    exact hstays (congrArg QueuePhase.flight? hp).symm rfl hnew
  | unreachable => exact .inl rfl
  | reached hr =>
    refine hstays ?_ rfl hr.during
    cases hr with
    | again hp => exact (congrArg QueuePhase.flight? hp).symm
    | anew hp => exact (congrArg QueuePhase.flight? hp).symm
  | advanced hp =>
    exact hstays (congrArg QueuePhase.flight? hp).symm rfl (during_singleton rfl (.inr rfl))
  | delivered => exact .inl rfl
  | asked hp =>
    exact hstays (congrArg QueuePhase.flight? hp).symm rfl (during_singleton rfl (.inr rfl))
  | heard hp =>
    exact hstays (congrArg QueuePhase.flight? hp).symm rfl (during_singleton rfl (.inr rfl))
  | answered => exact .inl rfl
  | failed => exact .inl rfl

end Sight

namespace Chronicled
variable {χ : Type} {w w' : Chronicled χ}

/-- The number of the request that is in flight or next. -/
def number (w : Chronicled χ) : Nat := Log.number w.watched.log

/-- A chronicle tells what the log tells, and when close calls took their numbers and when the request
in flight went there. -/
structure Dated (w : Chronicled χ) : Prop where
  marks : marks w.chronicle = w.watched.log
  total : takes w.chronicle = w.watched.queue.taken
  tallied : Throughout (fun front a _ => a.Tallies (takes front)) w.chronicle
  known : ∀ c, c ∈ w.underWay ∨ c ∈ w.watched.queue.calls → .took c ∈ w.chronicle
  flight : ∀ r since, w.watched.queue.phase.flight? = some (r, since) →
    Entered w.chronicle w.number r since

theorem tallies_told (w : Watched χ) (e : QueueEvent χ) :
    ∀ a ∈ told w e, a.Tallies w.queue.taken := by
  intro a ha
  rcases mem_told ha with ⟨r, -, rfl⟩ | ⟨-, c, -, rfl⟩ | rfl
  · rfl
  · trivial
  · trivial

theorem takes_eq_zero {l : List (Entry χ)} (h : ∀ c, .took c ∉ l) : takes l = 0 := by
  refine List.countP_eq_zero.2 fun a ha => ?_
  cases a with
  | took c => exact absurd ha (h c)
  | _ => exact Bool.false_ne_true

/-- A step in which no close call takes a number. -/
theorem Dated.add (h : w.Dated) {told : List (Entry χ)} {new : List (Mark χ)}
    (ha : Adds w w' told new) (hmarks : Entry.marks told = []) (hnot : ∀ c, .took c ∉ told)
    (htold : ∀ a ∈ told, a.Tallies w.watched.queue.taken)
    (htaken : w'.watched.queue.taken = w.watched.queue.taken)
    (hknown : ∀ c, c ∈ w'.underWay ∨ c ∈ w'.watched.queue.calls →
      c ∈ w.underWay ∨ c ∈ w.watched.queue.calls)
    (hflight : ∀ r since, w'.watched.queue.phase.flight? = some (r, since) →
      Entered w'.chronicle w'.number r since) : w'.Dated := by
  obtain ⟨hchronicle, hlog⟩ := ha
  have hnone : ∀ c, .took c ∉ told ++ new.map .mark := fun c hm => by
    rcases List.mem_append.1 hm with hm | hm
    · exact hnot c hm
    · obtain ⟨m, -, hm⟩ := List.mem_map.1 hm
      cases hm
  refine ⟨?_, ?_, ?_, fun c hc => ?_, hflight⟩
  · rw [hchronicle, hlog, Entry.marks_append, Entry.marks_append, hmarks, Entry.marks_map, h.marks,
      List.nil_append]
  · rw [hchronicle, Entry.takes_append, takes_eq_zero hnone, Nat.add_zero, htaken, h.total]
  · rw [hchronicle]
    refine h.tallied.append (fun front a back hr => hr) fun front a back he => ?_
    have hzero : takes front = 0 := takes_eq_zero fun c hc => hnone c (he ▸ List.mem_append_left _ hc)
    rw [Entry.takes_append, h.total, hzero, Nat.add_zero]
    have hmem : a ∈ told ++ new.map .mark := by rw [he]; simp
    rcases List.mem_append.1 hmem with hm | hm
    · exact htold a hm
    · obtain ⟨m, -, rfl⟩ := List.mem_map.1 hm
      trivial
  · rw [hchronicle]
    exact List.mem_append_left _ (h.known c (hknown c hc))

/-- The request in flight went there before the step, unless nothing was in flight. -/
theorem Dated.onward (h : w.Dated) {told : List (Entry χ)} {new : List (Mark χ)}
    (ha : Adds w w' told new) (hc : Sight.Change w.watched.sight w'.watched.sight)
    (hidle : w.watched.queue.phase = .idle → ∀ r since,
      w'.watched.queue.phase.flight? = some (r, since) → Entered w'.chronicle w'.number r since) :
    ∀ r since, w'.watched.queue.phase.flight? = some (r, since) →
      Entered w'.chronicle w'.number r since := by
  intro r since hf
  rcases Sight.flight_change hc with hnone | ⟨hsame, hnumber⟩ | hp
  · cases hf.symm.trans hnone
  · have hn : w'.number = w.number := hnumber
    rw [ha.chronicle, hn]
    exact (h.flight r since (hsame.symm.trans hf)).add _
  · exact hidle hp r since hf

theorem dated_start : Dated (start (χ := χ)) := by
  refine ⟨rfl, rfl, .nil _, fun c hc => ?_, fun r since hf => ?_⟩
  · rcases hc with hc | hc <;> cases hc
  · cases hf

theorem dated_put (h : w.Dated) (r : Request) : (w.put r).Dated := by
  have hqueue : (w.put r).watched.queue.desk = w.watched.queue.desk
      ∧ (w.put r).watched.queue.phase = w.watched.queue.phase := by
    show (w.watched.queue.put r).1.desk = _ ∧ (w.watched.queue.put r).1.phase = _
    unfold RequestQueue.put
    split
    · exact ⟨rfl, rfl⟩
    · exact ⟨rfl, rfl⟩
  obtain ⟨hdesk, hphase⟩ := hqueue
  obtain ⟨hcalls, htaken⟩ := Prod.mk.inj hdesk
  refine h.add (adds_put w r) rfl (by simp) (by simp) htaken (fun c hc => by rwa [hcalls] at hc)
    (h.onward (adds_put w r) (w.watched.change_put r) fun hp r' since hf => ?_)
  rw [hphase, hp] at hf
  cases hf

theorem dated_take (h : w.Dated) (e : EndpointName) : (w.take e).Dated := by
  obtain ⟨hchronicle, hlog⟩ := adds_take w e
  refine ⟨?_, ?_, ?_, fun c hc => ?_, h.onward (adds_take w e) ?_ fun hp r since hf => ?_⟩
  · rw [hchronicle, hlog, List.append_nil, Entry.marks_append, h.marks]
    exact List.append_nil _
  · rw [hchronicle, Entry.takes_append, h.total]
    rfl
  · rw [hchronicle]
    refine h.tallied.append (fun front a back hr => hr) fun front a back he => ?_
    -- the new call is the only new entry
    rcases front with - | ⟨b, front⟩
    · cases he
      rw [List.append_nil, h.total]
      rfl
    · simp at he
  · rw [hchronicle]
    rcases hc with hc | hc
    · rcases List.mem_append.1 hc with hc | hc
      · exact List.mem_append_left _ (h.known c (.inl hc))
      · rw [List.mem_singleton.1 hc]
        exact List.mem_append_right _ (by simp)
    · exact List.mem_append_left _ (h.known c (.inr hc))
  · exact .same
  · have hphase : (w.take e).watched.queue.phase = w.watched.queue.phase := rfl
    rw [hphase, hp] at hf
    cases hf

theorem dated_deliver (h : w.Dated) {c : CloseCall} (hc : c ∈ w.underWay) :
    (w.deliver c).Dated := by
  have hqueue : (w.deliver c).watched.queue.phase = w.watched.queue.phase
      ∧ (w.deliver c).watched.queue.taken = w.watched.queue.taken
      ∧ ∀ d ∈ (w.deliver c).watched.queue.calls, d ∈ w.watched.queue.calls ∨ d = c := by
    show (w.watched.queue.deliver c).phase = _ ∧ (w.watched.queue.deliver c).taken = _
      ∧ ∀ d ∈ (w.watched.queue.deliver c).calls, _
    unfold RequestQueue.deliver
    split
    · exact ⟨rfl, rfl, fun d hd => .inl hd⟩
    · exact ⟨rfl, rfl, fun d hd => by simpa using hd⟩
  obtain ⟨hphase, htaken, hcalls⟩ := hqueue
  refine h.add (adds_deliver w c) rfl (by simp) (by simp) htaken (fun d hd => ?_)
    (h.onward (adds_deliver w c) (w.watched.change_deliver c) fun hp r since hf => ?_)
  · rcases hd with hd | hd
    · exact .inl (List.mem_of_mem_erase hd)
    · rcases hcalls d hd with hd | rfl
      · exact .inr hd
      · exact .inl hc
  · rw [hphase, hp] at hf
    cases hf

theorem dated_shutdown (h : w.Dated) : w.shutdown.Dated := by
  have hphase : w.shutdown.watched.queue.phase = w.watched.queue.phase := rfl
  refine h.add (adds_shutdown w) rfl (by simp) (by simp) rfl (fun c hc => hc)
    (h.onward (adds_shutdown w) .same fun hp r since hf => ?_)
  rw [hphase, hp] at hf
  cases hf

/-- A request goes in flight in a turn of an idle queue, and nothing is done for it yet. -/
theorem Dated.entered (h : w.Dated) (hw : w.watched.Reachable) {e : QueueEvent χ}
    (fits : w.watched.Fits e) (hp : w.watched.queue.phase = .idle) {r : Request} {since : Nat}
    (hf : (w.event e).watched.queue.phase.flight? = some (r, since)) :
    Entered (w.event e).chronicle (w.event e).number r since := by
  have he : e = .turn := by
    cases e with
    | turn => rfl
    | _ => simp [Watched.Fits, hp] at fits
  subst he
  have hwritten : Log.writtenBy w.number w.watched.log = [] := by
    have hflight := Sight.inFlight_reachable hw
    rw [Sight.InFlight, show w.watched.sight.phase = _ from hp] at hflight
    exact hflight.1
  have hstep : w.watched.queue.step .turn = w.watched.queue.turn := RequestQueue.step_turn _
  have hqueue : (w.event .turn).watched.queue = (w.watched.queue.step .turn).1 := rfl
  rw [hqueue, hstep] at hf
  obtain ⟨hbegins, hconsumes, rfl, hacts⟩ := RequestQueue.turn_began hp hf
  obtain ⟨hchronicle, hlog⟩ := adds_event w .turn
  rw [Watched.shown_turn, hstep, hacts, List.map_nil, List.append_nil] at hchronicle hlog
  simp only [told, hbegins, hconsumes, Option.toList_some, Option.toList_none, List.map_cons,
    List.map_nil, List.append_nil] at hchronicle
  rw [hchronicle, number, hlog, List.append_nil]
  exact ⟨_, _, rfl, h.total, by rw [h.marks]; exact hwritten⟩

theorem dated_event (h : w.Dated) (hw : w.watched.Reachable) (e : QueueEvent χ)
    (fits : w.watched.Fits e) : (w.event e).Dated := by
  obtain ⟨hcalls, htaken⟩ := RequestQueue.calls_step w.watched.queue e
  have hchange := Watched.change_event (Watched.poised_reachable hw) e fits
  exact h.add (adds_event w e) (marks_told _ e) (not_took_told _ e) (tallies_told _ e) htaken
    (fun c hc => hc.imp_right fun hc => hcalls hc)
    (h.onward (adds_event w e) hchange fun hp r since hf => h.entered hw fits hp hf)

/-- What took a number is among those that are counted. -/
theorem Dated.number_le (h : w.Dated) {c : CloseCall} (hc : .took c ∈ w.chronicle) :
    c.number ≤ w.watched.queue.taken := by
  obtain ⟨front, back, he⟩ := List.append_of_mem hc
  have hnumber : c.number = takes front + 1 := h.tallied front _ back he
  have htotal := h.total
  rw [he, ← List.singleton_append, Entry.takes_append, Entry.takes_append] at htotal
  have hone : takes [Entry.took (χ := χ) c] = 1 := rfl
  omega

/-- The queue is one under observation, and its chronicle is dated. -/
theorem reachable_dated (h : w.Reachable) : w.watched.Reachable ∧ w.Dated := by
  induction h with
  | start => exact ⟨.start, dated_start⟩
  | put _ r ih => exact ⟨ih.1.put r, dated_put ih.2 r⟩
  | take _ e ih => exact ⟨ih.1.takeNumber, dated_take ih.2 e⟩
  | deliver _ taken ih =>
    exact ⟨ih.1.deliver _ (ih.2.number_le (ih.2.known _ (.inl taken))), dated_deliver ih.2 taken⟩
  | shutdown _ ih => exact ⟨ih.1.shutdown, dated_shutdown ih.2⟩
  | event _ e fits ih => exact ⟨ih.1.event e fits, dated_event ih.2 ih.1 e fits⟩

/-! ## Before and after -/

/-- A close call took its number after a request went in flight. -/
def TakenSince (k : Nat) (r : Request) (since : Nat) (c : CloseCall) (l : List (Entry χ)) : Prop :=
  ∃ a b d, l = a ++ .began k r since :: (b ++ .took c :: d)

/-- A call with a greater number than the request in flight noted took it afterwards, and no other
did. -/
theorem Dated.takenSince_iff (h : w.Dated) {r : Request} {since : Nat}
    (hf : w.watched.queue.phase.flight? = some (r, since)) {c : CloseCall}
    (hc : .took c ∈ w.chronicle) :
    TakenSince w.number r since c w.chronicle ↔ since < c.number := by
  constructor
  · rintro ⟨a, b, d, he⟩
    have hsince : since = takes a := h.tallied a _ _ he
    have hnumber : c.number = takes (a ++ .began w.number r since :: b) + 1 :=
      h.tallied (a ++ .began w.number r since :: b) (.took c) d (by rw [he]; simp)
    rw [Entry.takes_append] at hnumber
    omega
  · intro hlt
    obtain ⟨front, back, he, htakes, -⟩ := h.flight r since hf
    rw [he] at hc
    rcases List.mem_append.1 hc with hc | hc
    · -- a call in front has a number that was noted
      obtain ⟨a, b, rfl⟩ := List.append_of_mem hc
      have hnumber : c.number = takes a + 1 :=
        h.tallied a (.took c) (b ++ .began w.number r since :: back) (by rw [he]; simp)
      rw [← List.singleton_append, Entry.takes_append, Entry.takes_append] at htakes
      have hone : takes [Entry.took (χ := χ) c] = 1 := rfl
      omega
    · obtain ⟨b, d, hback⟩ := List.append_of_mem ((List.mem_cons.1 hc).resolve_left (by simp))
      exact ⟨front, b, d, by rw [he, hback]⟩

/-- A call whose number the request in flight has noted took it before the request went there, and
nothing had been written for the request by then. -/
theorem Dated.taken_before (h : w.Dated) {r : Request} {since : Nat}
    (hf : w.watched.queue.phase.flight? = some (r, since)) {c : CloseCall}
    (hc : .took c ∈ w.chronicle) (hle : c.number ≤ since) :
    ∃ a b d, w.chronicle = a ++ .took c :: (b ++ .began w.number r since :: d)
      ∧ Log.writtenBy w.number (Entry.marks d) = Log.writtenBy w.number w.watched.log := by
  obtain ⟨front, back, he, htakes, hwritten⟩ := h.flight r since hf
  have hback : Log.writtenBy w.number (Entry.marks back)
      = Log.writtenBy w.number w.watched.log := by
    have hmark : Entry.marks [Entry.began (χ := χ) w.number r since] = [] := rfl
    rw [← h.marks, he, ← List.singleton_append, Entry.marks_append, Entry.marks_append, hmark,
      Log.writtenBy_append, hwritten]
    rfl
  have hmem := hc
  rw [he] at hmem
  rcases List.mem_append.1 hmem with hmem | hmem
  · obtain ⟨a, b, rfl⟩ := List.append_of_mem hmem
    exact ⟨a, b, back, by rw [he]; simp, hback⟩
  · -- a call behind has a greater number
    obtain ⟨b, d, hsplit⟩ := List.append_of_mem ((List.mem_cons.1 hmem).resolve_left (by simp))
    have hsince := (h.takenSince_iff hf hc).1 ⟨front, b, d, by rw [he, hsplit]⟩
    omega

end Chronicled
end CommandLink
