/-!
# White space

The Unicode property `White_Space`, and cutting it off both ends of a text. This is the wide
notion of white space, for values a person typed (types, ports, pids); the JSON reader has its
own, of four characters.

Results:
* `isWhiteSpace_of_ascii`: every character `Char.isWhitespace` knows is white space here too.
* `mem_trimEnds`, `trimEnds_eq_nil_iff`: trimming only removes, and removes everything exactly
  from a blank text.
-/
namespace CommandLink.Text

/-- The ranges of code points with the property `White_Space`. -/
def whiteSpaceRanges : List (Nat × Nat) :=
  [(0x09, 0x0D), (0x20, 0x20), (0x85, 0x85), (0xA0, 0xA0), (0x1680, 0x1680), (0x2000, 0x200A),
   (0x2028, 0x2029), (0x202F, 0x202F), (0x205F, 0x205F), (0x3000, 0x3000)]

/-- Whether a code point lies in one of some ranges, ends included. -/
def inRanges (ranges : List (Nat × Nat)) (n : Nat) : Bool :=
  ranges.any fun r => decide (r.1 ≤ n) && decide (n ≤ r.2)

def isWhiteSpace (c : Char) : Bool :=
  inRanges whiteSpaceRanges c.toNat

/-- A text without the white space at its two ends. -/
def trimEnds (cs : List Char) : List Char :=
  ((cs.dropWhile isWhiteSpace).reverse.dropWhile isWhiteSpace).reverse

def trim (s : String) : String :=
  String.ofList (trimEnds s.toList)

/-- Nothing but white space. -/
def isBlank (s : String) : Bool :=
  s.toList.all isWhiteSpace

theorem isWhiteSpace_of_ascii {c : Char} (h : c.isWhitespace = true) : isWhiteSpace c = true := by
  simp only [Char.isWhitespace, Bool.or_eq_true, decide_eq_true_eq] at h
  rcases h with ((rfl | rfl) | rfl) | rfl <;> decide

theorem mem_trimEnds {c : Char} {cs : List Char} (h : c ∈ trimEnds cs) : c ∈ cs := by
  have h := (List.dropWhile_suffix isWhiteSpace).subset (List.mem_reverse.1 h)
  exact (List.dropWhile_suffix isWhiteSpace).subset (List.mem_reverse.1 h)

theorem dropWhile_eq_nil_iff {p : Char → Bool} {cs : List Char} :
    cs.dropWhile p = [] ↔ ∀ c ∈ cs, p c = true := by
  induction cs with
  | nil => simp
  | cons c cs ih =>
    by_cases hc : p c
    · simp [List.dropWhile_cons_of_pos hc, hc, ih]
    · rw [List.dropWhile_cons_of_neg hc]
      simp [hc]

theorem trimEnds_eq_nil_iff (cs : List Char) : trimEnds cs = [] ↔ cs.all isWhiteSpace = true := by
  rw [trimEnds, List.reverse_eq_nil_iff, dropWhile_eq_nil_iff, List.all_eq_true]
  simp only [List.mem_reverse]
  refine ⟨fun h => ?_, fun h c hc => h c ((List.dropWhile_suffix isWhiteSpace).subset hc)⟩
  cases hd : cs.dropWhile isWhiteSpace with
  | nil => exact dropWhile_eq_nil_iff.1 hd
  | cons c rest =>
    have hn : isWhiteSpace c = false := by
      have := List.head?_dropWhile_not isWhiteSpace cs
      simpa [hd] using this
    rw [hd] at h
    rw [h c (by simp)] at hn
    cases hn

end CommandLink.Text
