import CommandLink.Proofs.Queue.Ledger
/-!
# The stream of a turn

While a request is in flight, a cached channel may be looked at, and then it is written over one
stream and no other: the one that was looked at, if nothing was found there, else a new one.

Results:
* `Turn.wrote`, `Turn.probed`, `Turn.connected`: how far the request in flight has come with its
  stream.
* `Turn.ended`: what this means for the requests that have ended.
-/
namespace CommandLink

namespace QueuePhase
variable {χ : Type}

/-- The channel over which the request in flight is written. -/
def chosen? : QueuePhase χ → Option (Channel χ)
  | sending _ _ c _ | awaiting _ _ c _ => some c
  | idle | draining _ _ | probing _ _ _ | connecting _ _ | stopped => none

/-- Whether a cached channel may have been looked at for the request in flight. -/
def looked : QueuePhase χ → Bool
  | connecting _ _ | sending _ _ _ _ | awaiting _ _ _ _ => true
  | idle | draining _ _ | probing _ _ _ | stopped => false

end QueuePhase

namespace Log
variable {χ : Type} {log : List (Mark χ)} {k : Nat} {phase phase' : QueuePhase χ}

/-- Which streams requests were written over, in a phase of the request with a number. -/
structure Turn (log : List (Mark χ)) (k : Nat) (phase : QueuePhase χ) : Prop where
  /-- Each request is written over one stream. -/
  one : ∀ j x y bs bs' a a', .wrote j x bs a ∈ log → .wrote j y bs' a' ∈ log → x = y
  /-- Where a look at a stream found something, the request is written over a new one. -/
  anew : ∀ j x p, .probed j x p ∈ log → p ≠ .ok .empty → ∀ y bs a, .wrote j y bs a ∈ log →
    y ≠ x ∧ ∃ e, .connected j e y ∈ log
  writes : ∀ y bs a, .wrote k y bs a ∈ log → ∃ c, phase.chosen? = some c ∧ c.stream = some y
  looks : phase.looked = false → ∀ x p, .probed k x p ∉ log
  chosen : ∀ c y, phase.chosen? = some c → c.stream = some y → ∀ x p, .probed k x p ∈ log →
    p ≠ .ok .empty → y ≠ x ∧ ∃ e, .connected k e y ∈ log

theorem turn_nil (k : Nat) : Turn (χ := χ) [] k .idle :=
  ⟨fun j x y bs bs' a a' hm => absurd hm (by simp), fun j x p hm => absurd hm (by simp),
    fun y bs a hm => absurd hm (by simp), fun _ x p hm => absurd hm (by simp),
    fun c y hc => (by cases hc)⟩

/-- The phase changes, but not the channel over which the request is written. -/
theorem Turn.move (h : Turn log k phase) (hc : phase'.chosen? = phase.chosen?)
    (hl : phase'.looked = false → phase.looked = false) : Turn log k phase' := by
  obtain ⟨hone, hanew, hwrites, hlooks, hchosen⟩ := h
  refine ⟨hone, hanew, ?_, fun hl' => hlooks (hl hl'), ?_⟩
  · rwa [hc]
  · rwa [hc]

/-- Marks of no look and no writing. -/
theorem Turn.add (h : Turn log k phase) (new : List (Mark χ))
    (hw : ∀ j x bs a, .wrote j x bs a ∉ new) (hp : ∀ j x p, .probed j x p ∉ new) :
    Turn (log ++ new) k phase := by
  have hold : ∀ {j x bs a}, .wrote j x bs a ∈ log ++ new → .wrote j x bs a ∈ log := fun hm =>
    (List.mem_append.1 hm).resolve_right (hw _ _ _ _)
  have hold' : ∀ {j x p}, .probed j x p ∈ log ++ new → .probed j x p ∈ log := fun hm =>
    (List.mem_append.1 hm).resolve_right (hp _ _ _)
  obtain ⟨hone, hanew, hwrites, hlooks, hchosen⟩ := h
  refine ⟨fun j x y bs bs' a a' hx hy => hone j x y bs bs' a a' (hold hx) (hold hy),
    fun j x p hx hne y bs a hy => ?_, fun y bs a hy => hwrites y bs a (hold hy),
    fun hl x p hx => hlooks hl x p (hold' hx), fun c y hc hy x p hx hne => ?_⟩
  · obtain ⟨hyx, e, he⟩ := hanew j x p (hold' hx) hne y bs a (hold hy)
    exact ⟨hyx, e, List.mem_append_left _ he⟩
  · obtain ⟨hyx, e, he⟩ := hchosen c y hc hy x p (hold' hx) hne
    exact ⟨hyx, e, List.mem_append_left _ he⟩

theorem Turn.releases (h : Turn log k phase) {new : List (Mark χ)} (hnew : Releases new) :
    Turn (log ++ new) k phase := by
  refine h.add new (fun j x bs a hm => ?_) fun j x p hm => ?_
  · obtain ⟨y, r, he⟩ := hnew _ hm
    cases he
  · obtain ⟨y, r, he⟩ := hnew _ hm
    cases he

/-- The request is written over its stream. -/
theorem Turn.wrote (h : Turn log k phase) {c : Channel χ} {x : χ} (hc : phase.chosen? = some c)
    (hx : c.stream = some x) (bs : Bytes) (a : Frame.Acceptance) :
    Turn (log ++ [.wrote k x bs a]) k phase := by
  obtain ⟨hone, hanew, hwrites, hlooks, hchosen⟩ := h
  have hthis : ∀ {y bs a}, .wrote k y bs a ∈ log → y = x := fun hm => by
    obtain ⟨d, hd, hy⟩ := hwrites _ _ _ hm
    rw [hc] at hd
    cases hd
    rw [hx] at hy
    exact (Option.some.inj hy).symm
  have hprobed : ∀ {j y p}, .probed j y p ∈ log ++ [.wrote k x bs a] → .probed j y p ∈ log :=
    fun hm => (List.mem_append.1 hm).resolve_right (by simp)
  refine ⟨fun j y z bs₁ bs₂ a₁ a₂ hy hz => ?_, fun j y p hy hne z bs₁ a₁ hz => ?_,
    fun y bs₁ a₁ hy => ?_, fun hl y p hy => hlooks hl y p (hprobed hy),
    fun d y hd hy z p hz hne => ?_⟩
  · rcases List.mem_append.1 hy with hy | hy <;> rcases List.mem_append.1 hz with hz | hz
    · exact hone j y z bs₁ bs₂ a₁ a₂ hy hz
    · cases List.mem_singleton.1 hz
      exact hthis hy
    · cases List.mem_singleton.1 hy
      exact (hthis hz).symm
    · cases List.mem_singleton.1 hy
      cases List.mem_singleton.1 hz
      rfl
  · rcases List.mem_append.1 hz with hz | hz
    · obtain ⟨hzy, e, he⟩ := hanew j y p (hprobed hy) hne z bs₁ a₁ hz
      exact ⟨hzy, e, List.mem_append_left _ he⟩
    · cases List.mem_singleton.1 hz
      obtain ⟨hxy, e, he⟩ := hchosen c x hc hx y p (hprobed hy) hne
      exact ⟨hxy, e, List.mem_append_left _ he⟩
  · rcases List.mem_append.1 hy with hy | hy
    · exact hwrites y bs₁ a₁ hy
    · cases List.mem_singleton.1 hy
      exact ⟨c, hc, hx⟩
  · obtain ⟨hyz, e, he⟩ := hchosen d y hd hy z p (hprobed hz) hne
    exact ⟨hyz, e, List.mem_append_left _ he⟩

/-- A cached channel is looked at. Nothing was written so far. -/
theorem Turn.probed (h : Turn log k phase) (phase' : QueuePhase χ) (hc : phase.chosen? = none)
    (x : χ) (p : Except IoError Frame.ReadStatus) (hp : p ≠ .ok .empty → phase'.chosen? = none)
    (hl : phase.looked = false) (hl' : phase'.looked = true) :
    Turn (log ++ [.probed k x p]) k phase' := by
  obtain ⟨hone, hanew, hwrites, hlooks, hchosen⟩ := h
  have hnone : ∀ y bs a, .wrote k y bs a ∉ log := fun y bs a hm => by
    obtain ⟨c, hc', -⟩ := hwrites y bs a hm
    rw [hc] at hc'
    cases hc'
  have hwrote : ∀ {j y bs a}, .wrote j y bs a ∈ log ++ [.probed k x p] → .wrote j y bs a ∈ log :=
    fun hm => (List.mem_append.1 hm).resolve_right (by simp)
  refine ⟨fun j y z bs bs' a a' hy hz => hone j y z bs bs' a a' (hwrote hy) (hwrote hz),
    fun j y q hy hne z bs a hz => ?_, fun y bs a hy => absurd (hwrote hy) (hnone y bs a),
    fun hl'' => ?_, fun d y hd hy z q hz hne => ?_⟩
  · rcases List.mem_append.1 hy with hy | hy
    · obtain ⟨hzy, e, he⟩ := hanew j y q hy hne z bs a (hwrote hz)
      exact ⟨hzy, e, List.mem_append_left _ he⟩
    · cases List.mem_singleton.1 hy
      exact absurd (hwrote hz) (hnone z bs a)
  · rw [hl'] at hl''
    cases hl''
  · rcases List.mem_append.1 hz with hz | hz
    · exact absurd hz (hlooks hl z q)
    · cases List.mem_singleton.1 hz
      rw [hp hne] at hd
      cases hd

/-- A new stream is there, which is none that was looked at. -/
theorem Turn.connected (h : Turn log k phase) (hc : phase.chosen? = none) {c : Channel χ} {x : χ}
    (hx : c.stream = some x) (e : EndpointName) (hc' : phase'.chosen? = some c)
    (hl' : phase'.looked = true) (hfresh : ∀ j p, .probed j x p ∉ log) :
    Turn (log ++ [.connected k e x]) k phase' := by
  have hadd := h.add [.connected k e x] (by simp) (by simp)
  obtain ⟨hone, hanew, hwrites, -, -⟩ := hadd
  refine ⟨hone, hanew, fun y bs a hy => ?_, fun hl'' => ?_, fun d y hd hy z p hz _ => ?_⟩
  · obtain ⟨d, hd, -⟩ := hwrites y bs a hy
    rw [hc] at hd
    cases hd
  · rw [hl'] at hl''
    cases hl''
  · rw [hc'] at hd
    cases hd
    rw [hx] at hy
    cases hy
    refine ⟨fun he => ?_, e, List.mem_append_right _ (List.mem_singleton_self _)⟩
    subst he
    exact hfresh k p ((List.mem_append.1 hz).resolve_right (by simp))

/-- The request has ended, and nothing is done for the next. -/
theorem Turn.ended (h : Turn log k phase) (hn : Numbered log) (hk : number log = k)
    (x : Option χ) (e : Ending) (hc : phase'.chosen? = none) :
    Turn (log ++ [.ended k x e]) (k + 1) phase' := by
  have hadd := h.add [.ended k x e] (by simp) (by simp)
  have hlate : ∀ m ∈ log ++ [.ended k x e], m.number? ≠ some (k + 1) := fun m hm he => by
    rcases List.mem_append.1 hm with hm | hm
    · have := hn.le hm he
      omega
    · rw [List.mem_singleton.1 hm] at he
      have : k = k + 1 := Option.some.inj he
      omega
  obtain ⟨hone, hanew, -, -, -⟩ := hadd
  refine ⟨hone, hanew, fun y bs a hy => absurd rfl (hlate _ hy),
    fun _ y p hy => absurd rfl (hlate _ hy), fun c y hc' => ?_⟩
  rw [hc] at hc'
  cases hc'

end Log

namespace Sight
variable {χ : Type} {s s' : Sight χ}

open Log

/-- It is still the same turn. -/
theorem turn_during {new : List (Mark χ)} (h : Turn (s.log ++ new) s.number s'.phase)
    (hlog : s'.log = s.log ++ new) (hnew : During s.number new) :
    Turn s'.log s'.number s'.phase := by
  rw [number_during_log hlog hnew, hlog]
  exact h

/-- It is the turn of the next request. -/
theorem turn_ended (new : List (Mark χ)) {phase : QueuePhase χ} {x : Option χ} {e : Ending}
    (h : Turn (s.log ++ new) s.number phase) (hn : Numbered s.log)
    (hlog : s'.log = s.log ++ (new ++ [.ended s.number x e])) (hnew : During s.number new)
    (hp : s'.phase.chosen? = none) : Turn s'.log s'.number s'.phase := by
  have hk : Log.number (s.log ++ new) = s.number := by
    rw [number_append, number_during hnew]
    rfl
  rw [number_ended hlog hnew, hlog, ← List.append_assoc]
  exact h.ended (numbered_during hn hnew) hk x e hp

end Sight
end CommandLink
