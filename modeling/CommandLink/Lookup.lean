/-!
# Looking up in lists of pairs

Lists of pairs whose first entries of a key count, as they hold files, connections and channels.

Results:
* `lookup_filter_key`: sorting out by key takes away whole keys and leaves the others as they are.
-/
namespace CommandLink

theorem lookup_filter_key {α β : Type} [BEq α] [LawfulBEq α] (p : α → Bool) (l : List (α × β))
    (k : α) : (l.filter fun x => p x.1).lookup k = if p k then l.lookup k else none := by
  induction l with
  | nil => simp
  | cons x l ih =>
    obtain ⟨k', v⟩ := x
    by_cases h : k = k'
    · subst h
      by_cases hp : p k = true
      · simp [hp]
      · rw [List.filter_cons_of_neg (by simpa using hp), ih, if_neg hp, if_neg hp]
    · have hne : (k == k') = false := by simpa using h
      by_cases hp : p k' = true
      · rw [List.filter_cons_of_pos (by simpa using hp), List.lookup_cons, List.lookup_cons, hne, ih]
      · rw [List.filter_cons_of_neg (by simpa using hp), List.lookup_cons, hne, ih]

end CommandLink
