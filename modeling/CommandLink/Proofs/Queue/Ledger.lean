import CommandLink.Proofs.Queue.Change
/-!
# What a log says

Which bytes were written and read for a request, and which went over a stream, are read off the log.
Every change adds to the log for the request whose turn it is, and for no other, so what the log says
of a request that has ended is final.

Results:
* `log_change`: a change adds marks of the request whose turn it is, and an ending at most behind
  them.
* `numbered_change`: a mark bears the number of requests that have ended before it.
* `writtenBy_past`, `readBy_past`: what was written and read for a request that has ended stays.
-/
namespace CommandLink

namespace Mark
variable {χ : Type}

/-- The request that a mark is about, by its number. -/
def number? : Mark χ → Option Nat
  | probed k _ _ | connected k _ _ | wrote k _ _ _ | read k _ _ | ended k _ _ => some k
  | put _ | released _ _ => none

def isEnding : Mark χ → Bool
  | ended _ _ _ => true
  | _ => false

/-- The bytes that a mark says were written for a request. -/
def writtenBy (k : Nat) : Mark χ → Bytes
  | wrote j _ offered a => if j = k then a.bytesTaken offered else []
  | _ => []

/-- The bytes that a mark says were read for a request. What a look at a cached channel takes up is
none of them. -/
def readBy (k : Nat) : Mark χ → Bytes
  | read j _ s => if j = k then Frame.bytesRead s else []
  | _ => []

end Mark

namespace Log
variable {χ : Type}

/-- All bytes that were written for a request. -/
def writtenBy (k : Nat) (log : List (Mark χ)) : Bytes := log.flatMap (Mark.writtenBy k)

/-- All bytes that were read for a request. -/
def readBy (k : Nat) (log : List (Mark χ)) : Bytes := log.flatMap (Mark.readBy k)

theorem writtenBy_append (k : Nat) (a b : List (Mark χ)) :
    writtenBy k (a ++ b) = writtenBy k a ++ writtenBy k b := List.flatMap_append

theorem readBy_append (k : Nat) (a b : List (Mark χ)) :
    readBy k (a ++ b) = readBy k a ++ readBy k b := List.flatMap_append

theorem number_append (a b : List (Mark χ)) : number (a ++ b) = number a + number b := by
  simp [number, endings_append]

/-! ### Closing -/

theorem mem_closing {c : Channel χ} {m : Mark χ} (h : m ∈ closing c) :
    ∃ x r, c.stream = some x ∧ m = .released x r := by
  unfold closing at h
  split at h
  · next x hx =>
    obtain ⟨r, -, rfl⟩ := List.mem_map.1 h
    exact ⟨x, r, hx, rfl⟩
  · cases h

/-- Marks that only tell of what was given back. -/
def Releases (marks : List (Mark χ)) : Prop := ∀ m ∈ marks, ∃ x r, m = .released x r

theorem releases_closing (c : Channel χ) : Releases (closing c) := fun _ h =>
  let ⟨x, r, _, he⟩ := mem_closing h
  ⟨x, r, he⟩

theorem releases_flatMap (cs : List (EndpointName × Channel χ)) :
    Releases (cs.flatMap fun c => closing c.2) := fun m h => by
  obtain ⟨c, -, hm⟩ := List.mem_flatMap.1 h
  exact releases_closing c.2 m hm

variable {marks : List (Mark χ)}

theorem puts_releases (h : Releases marks) : puts marks = [] := by
  refine List.filterMap_eq_nil_iff.2 fun m hm => ?_
  obtain ⟨x, r, rfl⟩ := h m hm
  rfl

theorem endings_releases (h : Releases marks) : endings marks = [] := by
  refine List.filterMap_eq_nil_iff.2 fun m hm => ?_
  obtain ⟨x, r, rfl⟩ := h m hm
  rfl

theorem flatMap_releases {β : Type} {f : Mark χ → List β} (hf : ∀ x r, f (.released x r) = [])
    (h : Releases marks) : marks.flatMap f = [] := by
  refine List.flatMap_eq_nil_iff.2 fun m hm => ?_
  obtain ⟨x, r, rfl⟩ := h m hm
  exact hf x r

theorem writtenBy_releases (k : Nat) (h : Releases marks) : writtenBy k marks = [] :=
  flatMap_releases (fun _ _ => rfl) h

theorem readBy_releases (k : Nat) (h : Releases marks) : readBy k marks = [] :=
  flatMap_releases (fun _ _ => rfl) h

/-! ### Numbers -/

/-- Marks that tell of no ending, and of no other request than that of a number. -/
def During (k : Nat) (marks : List (Mark χ)) : Prop :=
  ∀ m ∈ marks, m.isEnding = false ∧ ∀ j, m.number? = some j → j = k

theorem during_releases (k : Nat) (h : Releases marks) : During k marks := fun m hm => by
  obtain ⟨x, r, rfl⟩ := h m hm
  exact ⟨rfl, fun j hj => by cases hj⟩

theorem during_append {k : Nat} {a b : List (Mark χ)} (ha : During k a) (hb : During k b) :
    During k (a ++ b) := fun m hm => (List.mem_append.1 hm).elim (ha m) (hb m)

theorem endings_during {k : Nat} (h : During k marks) : endings marks = [] := by
  refine List.filterMap_eq_nil_iff.2 fun m hm => ?_
  have := (h m hm).1
  cases m <;> first | rfl | cases this

theorem number_during {k : Nat} (h : During k marks) : number marks = 0 := by
  rw [number, endings_during h, List.length_nil]

/-- Every mark bears the number of requests that ended before it. -/
def Numbered (log : List (Mark χ)) : Prop :=
  ∀ front m back, log = front ++ m :: back → ∀ j, m.number? = some j → number front = j

theorem Numbered.le {log : List (Mark χ)} (h : Numbered log) {m : Mark χ} (hm : m ∈ log) {j : Nat}
    (hj : m.number? = some j) : j ≤ number log := by
  obtain ⟨front, back, rfl⟩ := List.append_of_mem hm
  rw [← h front m back rfl j hj, number_append]
  exact Nat.le_add_right _ _

/-- An ending bears a number below that of the request which is next. -/
theorem Numbered.ended_lt {log : List (Mark χ)} (h : Numbered log) {k : Nat} {x : Option χ}
    {e : Ending} (hm : .ended k x e ∈ log) : k < number log := by
  obtain ⟨front, back, rfl⟩ := List.append_of_mem hm
  rw [← h front _ back rfl k rfl, number_append]
  simp [number, endings]

/-- The ending with a number is the one in its place. -/
theorem Numbered.endings_getElem? {log : List (Mark χ)} (h : Numbered log) {k : Nat} {x : Option χ}
    {e : Ending} (hm : .ended k x e ∈ log) : (endings log)[k]? = some e := by
  obtain ⟨front, back, rfl⟩ := List.append_of_mem hm
  have hk : (endings front).length = k := h front _ back rfl k rfl
  rw [endings_append, List.getElem?_append_right (by omega), hk]
  simp [endings]

/-- As many requests as there are endings have ended, one after the other. -/
theorem exists_ending {log : List (Mark χ)} {k : Nat} (hk : k < number log) :
    ∃ front j x e back, log = front ++ .ended j x e :: back ∧ number front = k := by
  induction log generalizing k with
  | nil => cases hk
  | cons m log ih =>
    rw [← List.singleton_append, number_append] at hk
    cases hm : m.isEnding with
    | true =>
      obtain ⟨j, x, e, rfl⟩ : ∃ j x e, m = .ended j x e := by
        cases m <;> first | exact ⟨_, _, _, rfl⟩ | cases hm
      cases k with
      | zero => exact ⟨[], j, x, e, log, rfl, rfl⟩
      | succ k =>
        obtain ⟨front, j', x', e', back, rfl, hfront⟩ := ih (k := k)
          (by simp only [number, endings, List.filterMap_cons] at hk ⊢; simp at hk; omega)
        refine ⟨.ended j x e :: front, j', x', e', back, rfl, ?_⟩
        rw [← hfront]
        rfl
    | false =>
      have hzero : number [m] = 0 := by cases m <;> first | rfl | cases hm
      obtain ⟨front, j', x', e', back, rfl, hfront⟩ := ih (k := k) (by omega)
      refine ⟨m :: front, j', x', e', back, rfl, ?_⟩
      rw [← List.singleton_append, number_append, hzero, hfront, Nat.zero_add]

/-- Each number below that of the request which is next is that of an ending. -/
theorem Numbered.exists_ended {log : List (Mark χ)} (h : Numbered log) {k : Nat}
    (hk : k < number log) : ∃ x e, .ended k x e ∈ log := by
  obtain ⟨front, j, x, e, back, rfl, hfront⟩ := exists_ending hk
  have hj : number front = j := h front _ back rfl j rfl
  exact ⟨x, e, by rw [← hfront, hj]; simp⟩

theorem numbered_snoc {log : List (Mark χ)} (h : Numbered log) {m : Mark χ}
    (hm : ∀ j, m.number? = some j → number log = j) : Numbered (log ++ [m]) := by
  intro front m' back he j hj
  rcases List.eq_nil_or_concat back with rfl | ⟨back', m'', rfl⟩
  · obtain ⟨rfl, he'⟩ := List.append_inj' he rfl
    cases he'
    exact hm j hj
  · rw [List.concat_eq_append, ← List.cons_append, ← List.append_assoc] at he
    obtain ⟨rfl, -⟩ := List.append_inj' he rfl
    exact h front m' back' rfl j hj

theorem number_snoc {log : List (Mark χ)} {m : Mark χ} (hm : m.isEnding = false) :
    number (log ++ [m]) = number log := by
  have h : During (m.number?.getD 0) [m] := fun m' hm' => by
    obtain rfl := List.mem_singleton.1 hm'
    exact ⟨hm, fun j hj => by rw [hj]; rfl⟩
  rw [number_append, number_during h]
  rfl

theorem numbered_during {log new : List (Mark χ)} (h : Numbered log)
    (hn : During (number log) new) : Numbered (log ++ new) := by
  induction new generalizing log with
  | nil => rwa [List.append_nil]
  | cons m new ih =>
    obtain ⟨he, hj⟩ := hn m List.mem_cons_self
    rw [List.append_cons]
    refine ih (numbered_snoc h fun j hm => (hj j hm).symm) fun m' hm' => ?_
    rw [number_snoc he]
    exact hn m' (List.mem_cons_of_mem _ hm')

/-- Marks of one request leave what was written and read for the others. -/
theorem writtenBy_during {k j : Nat} (h : During k marks) (hj : j ≠ k) :
    writtenBy j marks = [] := by
  refine List.flatMap_eq_nil_iff.2 fun m hm => ?_
  obtain ⟨-, hk⟩ := h m hm
  cases m with
  | wrote i x offered a =>
    have := hk i rfl
    exact if_neg (by omega)
  | _ => rfl

theorem readBy_during {k j : Nat} (h : During k marks) (hj : j ≠ k) : readBy j marks = [] := by
  refine List.flatMap_eq_nil_iff.2 fun m hm => ?_
  obtain ⟨-, hk⟩ := h m hm
  cases m with
  | read i x s =>
    have := hk i rfl
    exact if_neg (by omega)
  | _ => rfl

/-- Nothing was written or read for a request that is not yet next. -/
theorem Numbered.writtenBy_nil {log : List (Mark χ)} (h : Numbered log) {k : Nat}
    (hk : number log < k) : writtenBy k log = [] := by
  refine List.flatMap_eq_nil_iff.2 fun m hm => ?_
  cases m with
  | wrote i x offered a =>
    have := h.le hm rfl
    exact if_neg (by omega)
  | _ => rfl

theorem Numbered.readBy_nil {log : List (Mark χ)} (h : Numbered log) {k : Nat}
    (hk : number log < k) : readBy k log = [] := by
  refine List.flatMap_eq_nil_iff.2 fun m hm => ?_
  cases m with
  | read i x s =>
    have := h.le hm rfl
    exact if_neg (by omega)
  | _ => rfl

end Log

namespace Sight
variable {χ : Type} {s s' : Sight χ}

open Log

/-- Marks of no ending leave the turn as it is. -/
theorem number_during_log {new : List (Mark χ)} {k : Nat} (hlog : s'.log = s.log ++ new)
    (hnew : During k new) : s'.number = s.number := by
  rw [number, hlog, number_append, Log.number_during hnew]
  rfl

/-- With an ending it is the turn of the next request. -/
theorem number_ended {new : List (Mark χ)} {k : Nat} {x : Option χ} {e : Ending}
    (hlog : s'.log = s.log ++ (new ++ [.ended k x e])) (hnew : During k new) :
    s'.number = s.number + 1 := by
  rw [number, hlog, number_append, number_append, Log.number_during hnew]
  rfl

/-- What a change adds to a log: marks of the request whose turn it is, and its ending behind them if
the change is one. -/
structure Added (s s' : Sight χ) (new last : List (Mark χ)) : Prop where
  log : s'.log = s.log ++ (new ++ last)
  during : During s.number new
  /-- A request that ends without a stream has failed. -/
  ending : last = [] ∨ ∃ x e, last = [.ended s.number x e]
    ∧ (x = none → e.request.progress = .failed)
  /-- Where something is done for a request, it is there: in flight, or just ended. -/
  turn : (∀ m ∈ new, m.number? = none) ∨ s'.phase.request?.isSome ∨ last ≠ []

theorem Reached.during {r : Request} {since : Nat} {c : Channel χ} {x : χ} {m : Mark χ}
    (h : Reached s r since c x m) : During s.number [m] := fun m' hm => by
  obtain rfl := List.mem_singleton.1 hm
  cases h with
  | again => exact ⟨rfl, fun j hj => (Option.some.inj hj).symm⟩
  | anew => exact ⟨rfl, fun j hj => (Option.some.inj hj).symm⟩

theorem during_singleton {k : Nat} {m : Mark χ} (hm : m.isEnding = false)
    (hk : m.number? = none ∨ m.number? = some k) : During k [m] := fun m' hm' => by
  obtain rfl := List.mem_singleton.1 hm'
  refine ⟨hm, fun j hj => ?_⟩
  rcases hk with hk | hk
  · rw [hk] at hj
    cases hj
  · rw [hk] at hj
    exact (Option.some.inj hj).symm

theorem Mishap.during {r : Request} {c : Channel χ} {x : χ} {marks : List (Mark χ)}
    {response : Response} (h : Mishap s r c x marks response) : During s.number marks := by
  cases h with
  | tooLarge hr => exact hr.during
  | unsent => exact during_singleton rfl (.inr rfl)
  | unanswered => exact during_singleton rfl (.inr rfl)
  | malformed => exact during_singleton rfl (.inr rfl)
  | cancelled => exact fun m hm => absurd hm (by simp)

theorem Reached.request? {r : Request} {since : Nat} {c : Channel χ} {x : χ} {m : Mark χ}
    (h : Reached s r since c x m) : s.phase.request? = some r ∧ puts [m] = [] := by
  cases h with
  | again hp => exact ⟨congrArg QueuePhase.request? hp, rfl⟩
  | anew hp => exact ⟨congrArg QueuePhase.request? hp, rfl⟩

theorem Mishap.request? {r : Request} {c : Channel χ} {x : χ} {marks : List (Mark χ)}
    {response : Response} (h : Mishap s r c x marks response) :
    s.phase.request? = some r ∧ puts marks = [] := by
  cases h with
  | tooLarge hr => exact hr.request?
  | unsent hp => exact ⟨congrArg QueuePhase.request? hp, rfl⟩
  | unanswered hp => exact ⟨congrArg QueuePhase.request? hp, rfl⟩
  | malformed hp => exact ⟨congrArg QueuePhase.request? hp, rfl⟩
  | cancelled hp => exact ⟨congrArg QueuePhase.request? hp, rfl⟩

theorem Added.nothing (hlog : s'.log = s.log) : Added s s' [] [] :=
  ⟨by rw [hlog]; exact (List.append_nil _).symm, fun m hm => absurd hm (by simp), .inl rfl,
    .inl fun m hm => absurd hm (by simp)⟩

theorem Added.releases {new : List (Mark χ)} (hlog : s'.log = s.log ++ new) (hnew : Releases new) :
    Added s s' new [] := by
  refine ⟨by rw [hlog, List.append_nil], during_releases _ hnew, .inl rfl, .inl fun m hm => ?_⟩
  obtain ⟨x, r, rfl⟩ := hnew m hm
  rfl

theorem Added.flight {new : List (Mark χ)} (hlog : s'.log = s.log ++ new)
    (hnew : During s.number new) (hturn : s'.phase.request?.isSome) : Added s s' new [] :=
  ⟨by rw [hlog, List.append_nil], hnew, .inl rfl, .inr (.inl hturn)⟩

theorem Added.ended {new : List (Mark χ)} {x : Option χ} {e : Ending}
    (hlog : s'.log = s.log ++ (new ++ [.ended s.number x e])) (hnew : During s.number new)
    (hx : x = none → e.request.progress = .failed) : Added s s' new [.ended s.number x e] :=
  ⟨hlog, hnew, .inr ⟨x, e, rfl, hx⟩, .inr (.inr (by simp))⟩

theorem log_change (h : Change s s') : ∃ new last, Added s s' new last := by
  cases h with
  | same => exact ⟨_, _, .nothing rfl⟩
  | put r =>
    refine ⟨[.put r], [], by rw [List.append_nil], during_singleton rfl (.inl rfl), .inl rfl, ?_⟩
    exact .inl fun m hm => by rw [List.mem_singleton.1 hm]; rfl
  | refused r => exact ⟨[.put r], _, .ended rfl (during_singleton rfl (.inl rfl)) fun _ => rfl⟩
  | began => exact ⟨_, _, .nothing rfl⟩
  | dropped => exact ⟨_, _, .releases rfl (releases_flatMap _)⟩
  | stopped => exact ⟨_, _, .releases rfl (releases_flatMap _)⟩
  | checkedOut => exact ⟨_, _, .nothing rfl⟩
  | missing => exact ⟨_, _, .nothing rfl⟩
  | @stale r since c x p =>
    exact ⟨[.probed s.number x p] ++ closing c, _, .flight rfl
      (during_append (during_singleton rfl (.inr rfl)) (during_releases _ (releases_closing c))) rfl⟩
  | unreachable => exact ⟨[], _, .ended rfl (fun m hm => absurd hm (by simp)) fun _ => rfl⟩
  | reached hr => exact ⟨_, _, .flight rfl hr.during rfl⟩
  | advanced => exact ⟨_, _, .flight rfl (during_singleton rfl (.inr rfl)) rfl⟩
  | @delivered r since c x o bs a =>
    exact ⟨[.wrote s.number x bs a], _, .ended rfl (during_singleton rfl (.inr rfl)) (by simp)⟩
  | asked => exact ⟨_, _, .flight rfl (during_singleton rfl (.inr rfl)) rfl⟩
  | heard => exact ⟨_, _, .flight rfl (during_singleton rfl (.inr rfl)) rfl⟩
  | @answered r since c x i p =>
    exact ⟨[.read s.number x p], _, .ended rfl (during_singleton rfl (.inr rfl)) (by simp)⟩
  | @failed r c x marks response hm =>
    refine ⟨marks ++ closing c, [.ended s.number (some x) (.failed r response)], .ended ?_
      (during_append hm.during (during_releases _ (releases_closing c))) (by simp)⟩
    rw [List.append_assoc]

theorem numbered_change (hs : Numbered s.log) (h : Change s s') : Numbered s'.log := by
  obtain ⟨new, last, hlog, hnew, hlast, -⟩ := log_change h
  rw [hlog, ← List.append_assoc]
  have hmid := numbered_during hs hnew
  rcases hlast with rfl | ⟨x, e, rfl, -⟩
  · rwa [List.append_nil]
  · refine numbered_snoc hmid fun j hj => ?_
    rw [number_append, number_during hnew]
    exact Option.some.inj hj

theorem numbered_reachable {w : Watched χ} (h : w.Reachable) : Numbered w.log :=
  Watched.reachable_induction (P := fun s => Numbered s.log)
    (fun front m back he => by simp at he) (fun _ _ _ hs hc => numbered_change hs hc) h

theorem number_change (h : Change s s') : s.number ≤ s'.number := by
  obtain ⟨new, last, hlog, -⟩ := log_change h
  rw [number, number, hlog, number_append]
  exact Nat.le_add_right _ _

/-- What was written for a request that has ended is final. -/
theorem writtenBy_past (h : Change s s') {k : Nat} (hk : k < s.number) :
    writtenBy k s'.log = writtenBy k s.log := by
  obtain ⟨new, last, hlog, hnew, hlast, -⟩ := log_change h
  rw [hlog, writtenBy_append, writtenBy_append, writtenBy_during hnew (by omega)]
  rcases hlast with rfl | ⟨x, e, rfl, -⟩ <;> exact List.append_nil _

theorem readBy_past (h : Change s s') {k : Nat} (hk : k < s.number) :
    readBy k s'.log = readBy k s.log := by
  obtain ⟨new, last, hlog, hnew, hlast, -⟩ := log_change h
  rw [hlog, readBy_append, readBy_append, readBy_during hnew (by omega)]
  rcases hlast with rfl | ⟨x, e, rfl, -⟩ <;> exact List.append_nil _

/-- Requests that ended without a stream have failed. -/
def Unserved (s : Sight χ) : Prop := ∀ k e, .ended k none e ∈ s.log → e.request.progress = .failed

theorem unserved_change (hs : s.Unserved) (h : Change s s') : s'.Unserved := by
  obtain ⟨new, last, hlog, hnew, hlast, -⟩ := log_change h
  intro k e hm
  rw [hlog] at hm
  rcases List.mem_append.1 hm with hm | hm
  · exact hs k e hm
  rcases List.mem_append.1 hm with hm | hm
  · cases (hnew _ hm).1
  · rcases hlast with rfl | ⟨x, e', rfl, hx⟩
    · cases hm
    · cases List.mem_singleton.1 hm
      exact hx rfl

theorem unserved_reachable {w : Watched χ} (h : w.Reachable) : w.sight.Unserved :=
  Watched.reachable_induction (P := Unserved) (fun k e hm => absurd hm (by simp))
    (fun _ _ _ hs hc => unserved_change hs hc) h

end Sight
end CommandLink
