import CommandLink.Proofs.Text.Utf8
import CommandLink.Table
import Mathlib.Tactic.SplitIfs
/-!
# The order of texts and of their bytes

Tables keep their names by the order of code points. UTF-8 keeps that order: a greater character has
greater bytes, whatever stands behind it.

Results:
* `ofText_lt_iff`: a text is below another one exactly if its bytes are.
-/
namespace CommandLink.Text.Utf8

/-- The digits to the base 64 decide which of two numbers is the smaller one, the first ones first. -/
theorem digits_lt {m n : Nat} (h : m < n) :
    m / 262144 < n / 262144 ∨ m / 262144 = n / 262144
      ∧ (m / 4096 % 64 < n / 4096 % 64 ∨ m / 4096 % 64 = n / 4096 % 64
        ∧ (m / 64 % 64 < n / 64 % 64 ∨ m / 64 % 64 = n / 64 % 64 ∧ m % 64 < n % 64)) := by
  have hfirst : m / 262144 ≤ n / 262144 := Nat.div_le_div_right (Nat.le_of_lt h)
  have hsecond : m / 4096 ≤ n / 4096 := Nat.div_le_div_right (Nat.le_of_lt h)
  have hthird : m / 64 ≤ n / 64 := Nat.div_le_div_right (Nat.le_of_lt h)
  omega

theorem utf8EncodeChar_lt {c d : Char} (h : c < d) (behind behind' : Bytes) :
    String.utf8EncodeChar c ++ behind < String.utf8EncodeChar d ++ behind' := by
  have hlt : c.val.toNat < d.val.toNat := h
  have hdigits := digits_lt hlt
  have hc : c.val.toNat < 0xD800 ∨ (0xDFFF < c.val.toNat ∧ c.val.toNat < 0x110000) := toNat_valid c
  have hd : d.val.toNat < 0xD800 ∨ (0xDFFF < d.val.toNat ∧ d.val.toNat < 0x110000) := toNat_valid d
  unfold String.utf8EncodeChar
  generalize c.val.toNat = m at hlt hdigits hc
  generalize d.val.toNat = n at hlt hdigits hd
  dsimp only
  -- one case for each pair of lengths: a longer row has the greater first byte
  split_ifs <;>
    simp only [List.cons_append, List.nil_append, List.cons_lt_cons_iff, UInt8.lt_iff_toNat_lt,
      ← UInt8.toNat_inj, UInt8.toNat_ofNat'] <;>
    simp (disch := omega) only [Nat.mod_eq_of_lt] <;> omega

theorem flatMap_lt {cs ds : List Char} (h : cs < ds) :
    cs.flatMap String.utf8EncodeChar < ds.flatMap String.utf8EncodeChar := by
  induction ds generalizing cs with
  | nil => exact absurd h (List.not_lt_nil cs)
  | cons d ds ih =>
    cases cs with
    | nil =>
      obtain ⟨b, bs, hb⟩ := List.exists_cons_of_ne_nil (String.utf8EncodeChar_ne_nil (c := d))
      rw [List.flatMap_cons, hb]
      exact List.nil_lt_cons b _
    | cons c cs =>
      rw [List.flatMap_cons, List.flatMap_cons]
      rcases List.cons_lt_cons_iff.1 h with hc | ⟨hc, hcs⟩
      · exact utf8EncodeChar_lt hc _ _
      · subst hc
        exact List.append_left_lt (ih hcs)

theorem ofText_lt_iff {s t : String} : ofText s < ofText t ↔ s < t := by
  constructor
  · intro h
    apply Decidable.byContradiction
    intro hnot
    by_cases heq : s = t
    · subst heq
      exact List.lt_irrefl _ h
    · have hback := lt_of_not_lt_of_ne hnot heq
      exact List.lt_asymm h (flatMap_lt (String.lt_iff.1 hback))
  · intro h
    exact flatMap_lt (String.lt_iff.1 h)

end CommandLink.Text.Utf8
