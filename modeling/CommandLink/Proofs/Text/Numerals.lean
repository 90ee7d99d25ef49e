import CommandLink.Text.Numeral
import CommandLink.Text.WhiteSpace
import Mathlib.Data.List.TakeWhile
/-!
# Numerals and their numbers

Reading is generous: white space around a numeral, a `+` and zeros before its digits all go unnoticed.
Writing is not: a number has one decimal.

Results:
* `readNumeral?_trim_iff`: which texts are read, and as which numbers.
* `canonical_decimal`: what is written starts with no zero and denotes the number.
-/
namespace CommandLink.Text
variable {cs before core after : List Char} {s : String} {bound n m : Nat}

/-! ## Trimming -/

/-- Trimming removes the white space at both ends, all of it. -/
theorem trimEnds_surrounded (hbefore : ∀ c ∈ before, isWhiteSpace c = true)
    (hcore : ∀ c ∈ core, isWhiteSpace c = false) (hne : core ≠ [])
    (hafter : ∀ c ∈ after, isWhiteSpace c = true) : trimEnds (before ++ core ++ after) = core := by
  have hstop {cs rest : List Char} (hcs : ∀ c ∈ cs, isWhiteSpace c = false) (hne : cs ≠ []) :
      (cs ++ rest).dropWhile isWhiteSpace = cs ++ rest := by
    cases cs with
    | nil => exact absurd rfl hne
    | cons c cs => exact List.dropWhile_cons_of_neg (by simp [hcs c])
  have hback : ∀ c ∈ core.reverse, isWhiteSpace c = false := fun c hc => hcore c (List.mem_reverse.1 hc)
  have hend : core.reverse.dropWhile isWhiteSpace = core.reverse := by
    have hend := @hstop core.reverse [] hback (List.reverse_ne_nil_iff.2 hne)
    rwa [List.append_nil] at hend
  rw [trimEnds, List.append_assoc, List.dropWhile_append_of_pos hbefore, hstop hcore hne,
    List.reverse_append,
    List.dropWhile_append_of_pos fun c hc => hafter c (List.mem_reverse.1 hc), hend,
    List.reverse_reverse]

/-- What trimming removes is white space. -/
theorem exists_surrounding (cs : List Char) : ∃ before after, cs = before ++ trimEnds cs ++ after
    ∧ (∀ c ∈ before, isWhiteSpace c = true) ∧ ∀ c ∈ after, isWhiteSpace c = true := by
  have hfront : cs.takeWhile isWhiteSpace ++ cs.dropWhile isWhiteSpace = cs :=
    List.takeWhile_append_dropWhile
  have hback := congrArg List.reverse (List.takeWhile_append_dropWhile
    (p := isWhiteSpace) (l := (cs.dropWhile isWhiteSpace).reverse))
  rw [List.reverse_append, List.reverse_reverse] at hback
  refine ⟨cs.takeWhile isWhiteSpace,
    ((cs.dropWhile isWhiteSpace).reverse.takeWhile isWhiteSpace).reverse, ?_,
    fun c hc => List.mem_takeWhile_imp hc,
    fun c hc => List.mem_takeWhile_imp (List.mem_reverse.1 hc)⟩
  rw [List.append_assoc, trimEnds, hback, hfront]

/-! ## Reading -/

namespace Numeral

theorem value_eq (ds : List Char) : value ds = Nat.ofDigitChars 10 ds 0 := rfl

theorem ne_plus_of_isDigit {c : Char} (h : c.isDigit = true) : c ≠ '+' := by
  rintro rfl
  exact absurd h (by decide)

/-- A digit is no white space. -/
theorem not_isWhiteSpace_of_isDigit {c : Char} (h : c.isDigit = true) : isWhiteSpace c = false := by
  unfold Char.isDigit at h
  rw [Bool.and_eq_true, decide_eq_true_eq, decide_eq_true_eq, ge_iff_le, UInt32.le_iff_toNat_le,
    UInt32.le_iff_toNat_le] at h
  obtain ⟨hlow, hhigh⟩ : 48 ≤ c.toNat ∧ c.toNat ≤ 57 := h
  unfold isWhiteSpace inRanges whiteSpaceRanges
  simp only [List.any_cons, List.any_nil, Bool.or_false, Bool.or_eq_false_iff,
    Bool.and_eq_false_imp, decide_eq_true_eq, decide_eq_false_iff_not, Nat.not_le]
  omega

end Numeral

/-- A numeral between white space: digits with at most one `+` before them, and their number. -/
def Denotes (s : String) (n : Nat) : Prop :=
  ∃ before sign ds after : List Char, s.toList = before ++ (sign ++ ds) ++ after
    ∧ (∀ c ∈ before, isWhiteSpace c = true) ∧ (∀ c ∈ after, isWhiteSpace c = true)
    ∧ (sign = [] ∨ sign = ['+']) ∧ ds ≠ [] ∧ (∀ d ∈ ds, d.isDigit = true)
    ∧ Nat.ofDigitChars 10 ds 0 = n

/-- A text is read as a number exactly if it denotes the number and the bound is not exceeded. -/
theorem readNumeral?_trim_iff : readNumeral? bound (trim s) = some n ↔ Denotes s n ∧ n ≤ bound := by
  have hread : readNumeral? bound (trim s) = Numeral.read? bound (trimEnds s.toList) := by
    rw [readNumeral?, trim, String.toList_ofList]
  rw [hread, Numeral.read?]
  constructor
  · intro h
    split at h
    · next hdigits =>
      cases h
      obtain ⟨hne, hall, hbound⟩ := hdigits
      obtain ⟨before, after, hs, hbefore, hafter⟩ := exists_surrounding s.toList
      have hsign : ∃ sign, trimEnds s.toList = sign ++ Numeral.digits (trimEnds s.toList)
          ∧ (sign = [] ∨ sign = ['+']) := by
        unfold Numeral.digits
        split
        · next hplus => exact ⟨['+'], hplus, .inr rfl⟩
        · exact ⟨[], rfl, .inl rfl⟩
      obtain ⟨sign, hcore, hsign⟩ := hsign
      rw [hcore] at hs
      exact ⟨⟨before, sign, _, after, hs, hbefore, hafter, hsign, hne, List.all_eq_true.1 hall, rfl⟩,
        hbound⟩
    · cases h
  · rintro ⟨⟨before, sign, ds, after, hs, hbefore, hafter, hsign, hne, hall, hvalue⟩, hbound⟩
    have hcore : ∀ c ∈ sign ++ ds, isWhiteSpace c = false := by
      intro c hc
      rcases List.mem_append.1 hc with hc | hc
      · rcases hsign with rfl | rfl
        · cases hc
        · rw [List.mem_singleton.1 hc]
          decide
      · exact Numeral.not_isWhiteSpace_of_isDigit (hall c hc)
    have hdigits : Numeral.digits (sign ++ ds) = ds := by
      rcases hsign with rfl | rfl
      · obtain ⟨d, rest, rfl⟩ := List.exists_cons_of_ne_nil hne
        exact Numeral.digits_of_ne_plus rest (Numeral.ne_plus_of_isDigit (hall d List.mem_cons_self))
      · rfl
    rw [hs, trimEnds_surrounded hbefore hcore (List.append_ne_nil_of_right_ne_nil _ hne) hafter,
      hdigits, Numeral.value_eq, hvalue, if_pos ⟨hne, List.all_eq_true.2 hall, hbound⟩]

/-- A text denotes one number at most. -/
theorem Denotes.unique (hn : Denotes s n) (hm : Denotes s m) : n = m := by
  have hread : readNumeral? (max n m) (trim s) = some n :=
    readNumeral?_trim_iff.2 ⟨hn, Nat.le_max_left n m⟩
  rw [readNumeral?_trim_iff.2 ⟨hm, Nat.le_max_right n m⟩] at hread
  exact (Option.some.inj hread).symm

/-! ## Writing -/

/-- The one text that a positive number is written as: its digits, without zeros before them. -/
structure Canonical (s : String) (n : Nat) : Prop where
  digits : ∀ d ∈ s.toList, d.isDigit = true
  first : ∃ d, s.toList.head? = some d ∧ d ≠ '0'
  value : Nat.ofDigitChars 10 s.toList 0 = n

theorem digitChar_ne_zero : ∀ n < 10, 0 < n → n.digitChar ≠ '0' := by decide

theorem head?_toDigits (h : 0 < n) : ∃ d, (Nat.toDigits 10 n).head? = some d ∧ d ≠ '0' := by
  induction n using Nat.strongRecOn with
  | ind n ih =>
    by_cases hsmall : n < 10
    · rw [Nat.toDigits_of_lt_base hsmall]
      exact ⟨_, rfl, digitChar_ne_zero n hsmall h⟩
    · obtain ⟨d, hd, hne⟩ := ih (n / 10) (by omega) (by omega)
      refine ⟨d, ?_, hne⟩
      rw [Nat.toDigits_of_base_le (by decide) (by omega), List.head?_append, hd, Option.some_or]

theorem canonical_decimal (h : 0 < n) : Canonical (decimal n) n := by
  have htext : (decimal n).toList = Nat.toDigits 10 n := String.toList_ofList
  refine ⟨?_, ?_, ?_⟩
  · rw [htext]
    exact fun d hd => Nat.isDigit_of_mem_toDigits (by decide) (by decide) hd
  · rw [htext]
    exact head?_toDigits h
  · rw [htext]
    exact Nat.ofDigitChars_toDigits (by decide) (by decide)

end CommandLink.Text
