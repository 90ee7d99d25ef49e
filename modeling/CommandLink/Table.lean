/-!
# Tables by name

Values under names, kept strictly ascending by the names' code points (the order of their UTF-8
bytes), so that a table has one form however it was filled.

Results:
* `get?_insert`: a look-up finds the value set last.
* `ext_get?`: two tables that answer every look-up alike are equal.
* `get?_eq_some_iff`, `mem_keys_iff`: look-ups, entries and names tell the same.
-/
namespace CommandLink

/-- Strictly ascending by name, so no name occurs twice. -/
def Ascending {β : Type} (l : List (String × β)) : Prop :=
  l.Pairwise fun a b => a.1 < b.1

/-- Sets a value under a name, in its place. -/
def insertSorted {β : Type} (k : String) (v : β) : List (String × β) → List (String × β)
  | [] => [(k, v)]
  | (k', v') :: rest =>
    if k < k' then (k, v) :: (k', v') :: rest
    else if k = k' then (k, v) :: rest
    else (k', v') :: insertSorted k v rest

/-- The first value under a name. -/
def valueOf {β : Type} (k : String) : List (String × β) → Option β
  | [] => none
  | (k', v) :: rest => if k = k' then some v else valueOf k rest

theorem fst_of_mem_insertSorted {β : Type} {k : String} {v : β} {p : String × β}
    {l : List (String × β)} (h : p ∈ insertSorted k v l) : p.1 = k ∨ p ∈ l := by
  induction l with
  | nil => simp [insertSorted] at h; simp [h]
  | cons q l ih =>
    obtain ⟨k', v'⟩ := q
    simp only [insertSorted] at h
    split at h
    · rcases List.mem_cons.1 h with rfl | h
      · exact .inl rfl
      · exact .inr h
    · split at h
      · rcases List.mem_cons.1 h with rfl | h
        · exact .inl rfl
        · exact .inr (List.mem_cons_of_mem _ h)
      · rcases List.mem_cons.1 h with rfl | h
        · exact .inr List.mem_cons_self
        · exact (ih h).imp_right (List.mem_cons_of_mem _)

theorem lt_of_not_lt_of_ne {a b : String} (h : ¬a < b) (hne : a ≠ b) : b < a := by
  rcases String.le_total a b with hab | hba
  · exact absurd (String.le_antisymm hab (String.not_lt.1 h)) hne
  · refine String.not_le.1 fun hab => hne (String.le_antisymm hab hba)

theorem Ascending.insertSorted {β : Type} {l : List (String × β)} (h : Ascending l)
    (k : String) (v : β) : Ascending (insertSorted k v l) := by
  induction l with
  | nil => simp [CommandLink.insertSorted, Ascending]
  | cons q l ih =>
    obtain ⟨k', v'⟩ := q
    obtain ⟨hq, hl⟩ := List.pairwise_cons.1 h
    simp only [CommandLink.insertSorted]
    split
    · next hlt =>
      refine List.pairwise_cons.2 ⟨fun p hp => ?_, h⟩
      rcases List.mem_cons.1 hp with rfl | hp
      · exact hlt
      · exact String.lt_trans hlt (hq p hp)
    · next hnlt =>
      split
      · next heq =>
        subst heq
        exact List.pairwise_cons.2 ⟨hq, hl⟩
      · next hne =>
        refine List.pairwise_cons.2 ⟨fun p hp => ?_, ih hl⟩
        rcases fst_of_mem_insertSorted hp with hk | hp
        · simp only [hk]
          exact lt_of_not_lt_of_ne hnlt hne
        · exact hq p hp

/-- Values under names, ascending. -/
structure Table (β : Type) where
  entries : List (String × β)
  ascending : Ascending entries

namespace Table
variable {β : Type}

def empty : Table β := ⟨[], List.Pairwise.nil⟩

def insert (t : Table β) (k : String) (v : β) : Table β :=
  ⟨insertSorted k v t.entries, t.ascending.insertSorted k v⟩

def get? (t : Table β) (k : String) : Option β :=
  valueOf k t.entries

def contains (t : Table β) (k : String) : Bool :=
  (t.get? k).isSome

/-- The names, ascending. -/
def keys (t : Table β) : List String :=
  t.entries.map Prod.fst

/-- Sets pairs one after another, so that of equal names the last one counts. -/
def ofList (ps : List (String × β)) : Table β :=
  ps.foldl (fun t p => t.insert p.1 p.2) empty

instance : Inhabited (Table β) := ⟨empty⟩

theorem ext {s t : Table β} (h : s.entries = t.entries) : s = t := by
  cases s
  cases t
  cases h
  rfl

instance [DecidableEq β] : DecidableEq (Table β) := fun s t =>
  if h : s.entries = t.entries then .isTrue (ext h) else .isFalse fun e => h (congrArg _ e)

theorem valueOf_insertSorted (l : List (String × β)) (k k' : String) (v : β) :
    valueOf k' (insertSorted k v l) = if k' = k then some v else valueOf k' l := by
  induction l with
  | nil => rfl
  | cons p l ih =>
    obtain ⟨k'', v''⟩ := p
    simp only [insertSorted]
    split
    · rfl
    · split
      · next heq =>
        subst heq
        simp only [valueOf]
        split <;> rfl
      · next hne =>
        simp only [valueOf, ih]
        by_cases h1 : k' = k''
        · subst h1
          simp [Ne.symm hne]
        · simp [h1]

theorem get?_insert (t : Table β) (k k' : String) (v : β) :
    (t.insert k v).get? k' = if k' = k then some v else t.get? k' :=
  valueOf_insertSorted t.entries k k' v

theorem valueOf_eq_none_of_lt {l : List (String × β)} {k : String}
    (h : ∀ p ∈ l, k < p.1) : valueOf k l = none := by
  induction l with
  | nil => rfl
  | cons p l ih =>
    have hp : k ≠ p.1 := fun e => by
      have := h p List.mem_cons_self
      rw [← e] at this
      exact String.lt_irrefl k this
    simp only [valueOf, if_neg hp]
    exact ih fun q hq => h q (List.mem_cons_of_mem _ hq)

theorem valueOf_cons_self (k : String) (v : β) (l : List (String × β)) :
    valueOf k ((k, v) :: l) = some v := by
  simp [valueOf]

/-- A name below the first one of an ascending list is not in it. -/
theorem valueOf_eq_none {p : String × β} {l : List (String × β)} {k : String}
    (h : Ascending (p :: l)) (hk : k < p.1) : valueOf k (p :: l) = none := by
  refine valueOf_eq_none_of_lt fun q hq => ?_
  rcases List.mem_cons.1 hq with rfl | hq
  · exact hk
  · exact String.lt_trans hk ((List.pairwise_cons.1 h).1 q hq)

theorem eq_of_valueOf_eq {l m : List (String × β)} (hl : Ascending l) (hm : Ascending m)
    (h : ∀ k, valueOf k l = valueOf k m) : l = m := by
  induction l generalizing m with
  | nil =>
    cases m with
    | nil => rfl
    | cons q m =>
      have := h q.1
      rw [valueOf_cons_self] at this
      cases this
  | cons p l ih =>
    obtain ⟨k, v⟩ := p
    cases m with
    | nil =>
      have := h k
      rw [valueOf_cons_self] at this
      cases this
    | cons q m =>
      obtain ⟨k', v'⟩ := q
      have hk : k = k' := by
        apply Classical.byContradiction
        intro hne
        by_cases hlt : k < k'
        · have := h k
          rw [valueOf_cons_self, valueOf_eq_none hm hlt] at this
          cases this
        · have := h k'
          rw [valueOf_cons_self, valueOf_eq_none hl (lt_of_not_lt_of_ne hlt hne)] at this
          cases this
      subst hk
      have hv := h k
      rw [valueOf_cons_self, valueOf_cons_self] at hv
      cases hv
      obtain ⟨hp, hl⟩ := List.pairwise_cons.1 hl
      obtain ⟨hq, hm⟩ := List.pairwise_cons.1 hm
      congr 1
      refine ih hl hm fun j => ?_
      by_cases hj : j = k
      · subst hj
        rw [valueOf_eq_none_of_lt hp, valueOf_eq_none_of_lt hq]
      · have := h j
        simpa only [valueOf, if_neg hj] using this

theorem ext_get? {s t : Table β} (h : ∀ k, s.get? k = t.get? k) : s = t :=
  ext (eq_of_valueOf_eq s.ascending t.ascending h)

theorem valueOf_eq_some_iff {l : List (String × β)} (h : Ascending l) {k : String} {v : β} :
    valueOf k l = some v ↔ (k, v) ∈ l := by
  induction l with
  | nil => simp [valueOf]
  | cons p l ih =>
    obtain ⟨k', v'⟩ := p
    obtain ⟨hp, hl⟩ := List.pairwise_cons.1 h
    unfold valueOf
    by_cases hk : k = k'
    · subst hk
      have hfresh : (k, v) ∉ l := fun hmem => String.lt_irrefl k (hp _ hmem)
      simp [hfresh, eq_comm]
    · simp [hk, ih hl]

/-- What is found under a name stands there. -/
theorem get?_eq_some_iff {t : Table β} {k : String} {v : β} :
    t.get? k = some v ↔ (k, v) ∈ t.entries :=
  valueOf_eq_some_iff t.ascending

theorem mem_keys_iff {t : Table β} {k : String} : k ∈ t.keys ↔ ∃ v, t.get? k = some v := by
  simp [keys, get?_eq_some_iff]

end Table
end CommandLink
