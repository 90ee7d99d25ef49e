import Mathlib.Data.List.Basic
/-!
# Places of a list

Something that is to hold of every place of a history: of what stands there, with what is in front of
it and what is behind it.

Results:
* `Throughout.append`: a history that grows keeps what its places had, if growing does not spoil it,
  and the new places are looked at by themselves.
* `eq_of_snoc`: an entry that is new with the last place stands there.
* `foldlM_stops`: a run through a list stops at one place, if it does not come to its end.
-/
namespace CommandLink

/-- Something holds of every place of a list: of what stands there, with what is in front of it and
what is behind it. -/
def Throughout {α : Type} (R : List α → α → List α → Prop) (l : List α) : Prop :=
  ∀ front a back, l = front ++ a :: back → R front a back

theorem Throughout.nil {α : Type} (R : List α → α → List α → Prop) : Throughout R [] :=
  fun front a back h => by simp at h

/-- The list grows: places that were there stay, and the new ones are looked at. -/
theorem Throughout.append {α : Type} {R : List α → α → List α → Prop} {l new : List α}
    (h : Throughout R l) (stays : ∀ front a back, R front a back → R front a (back ++ new))
    (hnew : ∀ front a back, new = front ++ a :: back → R (l ++ front) a back) :
    Throughout R (l ++ new) := by
  intro front a back he
  rcases List.append_eq_append_iff.1 he with ⟨mid, rfl, hmid⟩ | ⟨mid, rfl, hmid⟩
  · exact hnew mid a back hmid
  · cases mid with
    | nil =>
      have hthere := hnew [] a back hmid.symm
      rwa [List.append_nil, List.append_nil] at hthere
    | cons b mid =>
      obtain ⟨rfl, rfl⟩ := List.cons.inj hmid
      exact stays front a mid (h front a mid rfl)

/-- The last entry of a list, which is not in front of it. -/
theorem eq_of_snoc {α : Type} {l front back : List α} {a b : α}
    (h : l ++ [a] = front ++ b :: back) (hb : b ∉ l) : front = l ∧ b = a ∧ back = [] := by
  rcases List.eq_nil_or_concat back with rfl | ⟨back, z, rfl⟩
  · obtain ⟨rfl, he⟩ := List.append_inj' h rfl
    exact ⟨rfl, (List.cons.inj he).1.symm, rfl⟩
  · rw [List.concat_eq_append, ← List.cons_append, ← List.append_assoc] at h
    obtain ⟨rfl, -⟩ := List.append_inj' h rfl
    simp at hb

/-- A run through a list comes to its end, or it stops at the first place where a step fails. -/
theorem foldlM_stops {α β ε : Type} (step : β → α → Except ε β) (b : β) (l : List α) :
    (∃ b', l.foldlM step b = .ok b')
    ∨ ∃ front a back b' e, l = front ++ a :: back ∧ front.foldlM step b = .ok b'
      ∧ step b' a = .error e ∧ l.foldlM step b = .error e := by
  induction l generalizing b with
  | nil => exact .inl ⟨b, rfl⟩
  | cons a l ih =>
    rw [List.foldlM_cons]
    cases hstep : step b a with
    | error e => exact .inr ⟨[], a, l, b, e, rfl, rfl, hstep, rfl⟩
    | ok next =>
      rcases ih next with hend | ⟨front, a', back, b', e, rfl, hfront, hstop, herror⟩
      · exact .inl hend
      · refine .inr ⟨a :: front, a', back, b', e, rfl, ?_, hstop, herror⟩
        rw [List.foldlM_cons, hstep]
        exact hfront

end CommandLink
