import CommandLink.Json.Shape
import CommandLink.Json.Written
import CommandLink.Proofs.Text.Utf8
/-!
# Reading written strings back

A written string is read back as the text it was written for, whatever stands behind it. Reading
goes through its bytes from left to right; each character's bytes, escaped or not, put the bytes of
that character behind those read before.

Results:
* `stringOnto_writeChar`: one written character, read.
* `text_writeText`: one written string, read where a text is expected.
-/
namespace CommandLink.Json
open Text (Utf8.toText? Utf8.toText?_flatMap)

/-! ## Bytes that stand for themselves -/

/-- A byte that neither ends a string nor begins an escape, and is no control character. -/
def IsPlain (b : UInt8) : Prop := b ≠ 0x22 ∧ b ≠ 0x5C ∧ ¬b < 0x20

theorem stringOnto_plain {b : UInt8} (h : IsPlain b) (acc rest : Bytes) :
    stringOnto acc (b :: rest) = stringOnto (b :: acc) rest := by
  obtain ⟨hq, hb, hc⟩ := h
  rw [stringOnto, if_neg hq, if_neg hb, if_neg hc]

theorem stringOnto_plains {bs : Bytes} (h : ∀ b ∈ bs, IsPlain b) (acc rest : Bytes) :
    stringOnto acc (bs ++ rest) = stringOnto (bs.reverse ++ acc) rest := by
  induction bs generalizing acc with
  | nil => rfl
  | cons b bs ih =>
    rw [List.cons_append, stringOnto_plain (h b List.mem_cons_self),
      ih fun c hc => h c (List.mem_cons_of_mem _ hc)]
    simp

/-- A character's bytes are its code, or all of them are beyond the codes of one byte. -/
theorem toNat_of_mem_utf8EncodeChar {c : Char} {b : UInt8} (h : b ∈ String.utf8EncodeChar c) :
    b.toNat = c.toNat ∨ 0x80 ≤ b.toNat := by
  simp only [String.utf8EncodeChar] at h
  rw [show c.val.toNat = c.toNat from rfl] at h
  split at h
  · next hc =>
    simp only [List.mem_singleton] at h
    subst h
    left
    rw [UInt8.toNat_ofNat']
    omega
  -- from here on the bytes are the ones of longer characters
  all_goals right
  split at h
  · simp only [List.mem_cons, List.not_mem_nil, or_false] at h
    rcases h with rfl | rfl <;> rw [UInt8.toNat_ofNat'] <;> omega
  split at h
  · simp only [List.mem_cons, List.not_mem_nil, or_false] at h
    rcases h with rfl | rfl | rfl <;> rw [UInt8.toNat_ofNat'] <;> omega
  · simp only [List.mem_cons, List.not_mem_nil, or_false] at h
    rcases h with rfl | rfl | rfl | rfl <;> rw [UInt8.toNat_ofNat'] <;> omega

theorem isPlain_of_mem {c : Char} (hq : c ≠ '"') (hb : c ≠ '\\') (hc : 0x20 ≤ c.toNat) {b : UInt8}
    (h : b ∈ String.utf8EncodeChar c) : IsPlain b := by
  have hq' : c.toNat ≠ 0x22 := fun e => hq (Char.toNat_inj.1 e)
  have hb' : c.toNat ≠ 0x5C := fun e => hb (Char.toNat_inj.1 e)
  have hn := toNat_of_mem_utf8EncodeChar h
  refine ⟨?_, ?_, ?_⟩
  · rintro rfl
    simp only [UInt8.reduceToNat] at hn
    omega
  · rintro rfl
    simp only [UInt8.reduceToNat] at hn
    omega
  · simp only [UInt8.lt_iff_toNat_lt, UInt8.reduceToNat]
    omega

/-! ## Escapes -/

theorem stringOnto_escape {rest rest' out : Bytes} (h : escape rest = .ok (out, rest'))
    (acc : Bytes) : stringOnto acc (0x5C :: rest) = stringOnto (out.reverse ++ acc) rest' := by
  rw [stringOnto, if_neg (by decide), if_pos rfl]
  split
  · next e he => rw [h] at he; cases he
  · next out' rest'' he =>
    rw [h] at he
    cases he
    rfl

theorem escape_letter {b c : UInt8} (hb : b ≠ 0x75) (h : letterEscape b = some c) (rest : Bytes) :
    escape (b :: rest) = .ok ([c], rest) := by
  simp only [escape, if_neg hb, h]

theorem hexValue_hexDigit : ∀ n, n < 16 → hexValue (hexDigit n) = some n := by decide

/-- A control character without a letter of its own is read from its code. -/
theorem escape_unit {c : Char} (hc : c.toNat < 0x20) (rest : Bytes) :
    escape (0x75 :: 0x30 :: 0x30 :: hexDigit (c.toNat / 16) :: hexDigit (c.toNat % 16) :: rest)
      = .ok (String.utf8EncodeChar c, rest) := by
  have h1 := hexValue_hexDigit (c.toNat / 16) (by omega)
  have h2 := hexValue_hexDigit (c.toNat % 16) (by omega)
  have h0 : hexValue 0x30 = some 0 := by decide
  have hn : ((0 * 16 + 0) * 16 + c.toNat / 16) * 16 + c.toNat % 16 = c.toNat := by omega
  have hl : isLowSurrogate c.toNat = false := by
    simp only [isLowSurrogate, Bool.and_eq_false_iff, decide_eq_false_iff_not]
    omega
  have hh : isHighSurrogate c.toNat = false := by
    simp only [isHighSurrogate, Bool.and_eq_false_iff, decide_eq_false_iff_not]
    omega
  simp only [escape, if_true, unitEscape, hex4, h0, h1, h2, hn, bind, Except.bind, hl, hh, spelled,
    Char.ofNat_toNat, Bool.false_eq_true, if_false]

/-! ## Strings -/

theorem stringOnto_writeChar (c : Char) (acc rest : Bytes) :
    stringOnto acc (writeChar c ++ rest)
      = stringOnto ((String.utf8EncodeChar c).reverse ++ acc) rest := by
  unfold writeChar
  split
  · subst_vars; exact stringOnto_escape (escape_letter (by decide) (by decide) rest) acc
  split
  · subst_vars; exact stringOnto_escape (escape_letter (by decide) (by decide) rest) acc
  split
  · subst_vars; exact stringOnto_escape (escape_letter (by decide) (by decide) rest) acc
  split
  · subst_vars; exact stringOnto_escape (escape_letter (by decide) (by decide) rest) acc
  split
  · subst_vars; exact stringOnto_escape (escape_letter (by decide) (by decide) rest) acc
  split
  · subst_vars; exact stringOnto_escape (escape_letter (by decide) (by decide) rest) acc
  split
  · subst_vars; exact stringOnto_escape (escape_letter (by decide) (by decide) rest) acc
  split
  · next hc => exact stringOnto_escape (escape_unit hc rest) acc
  · next hq hb _ _ _ _ _ hc =>
    exact stringOnto_plains (fun b => isPlain_of_mem hq hb (by omega)) acc rest

theorem stringOnto_flatMap (cs : List Char) (acc rest : Bytes) :
    stringOnto acc (cs.flatMap writeChar ++ 0x22 :: rest)
      = .ok (acc.reverse ++ cs.flatMap String.utf8EncodeChar, rest) := by
  induction cs generalizing acc with
  | nil =>
    rw [List.flatMap_nil, List.nil_append, stringOnto, if_pos rfl]
    simp
  | cons c cs ih =>
    rw [List.flatMap_cons, List.append_assoc, stringOnto_writeChar, ih]
    simp

theorem string_flatMap (s : String) (rest : Bytes) :
    string (s.toList.flatMap writeChar ++ 0x22 :: rest) = .ok (s, rest) := by
  simp only [string, stringOnto_flatMap, bind, Except.bind, List.reverse_nil, List.nil_append]
  rw [Utf8.toText?_flatMap]
  simp only [String.ofList_toList]

theorem writeText_append (s : String) (rest : Bytes) :
    writeText s ++ rest = 0x22 :: (s.toList.flatMap writeChar ++ 0x22 :: rest) := by
  simp [writeText]

theorem skipBlanks_cons {b : UInt8} (h : isBlank b = false) (rest : Bytes) :
    skipBlanks (b :: rest) = b :: rest := by
  simp [skipBlanks, h]

theorem text_writeText (wanted s : String) (rest : Bytes) :
    text wanted (writeText s ++ rest) = .ok (s, rest) := by
  simp only [text, writeText_append]
  rw [skipBlanks_cons (by decide)]
  exact string_flatMap s rest

theorem mismatch_writeText (wanted s : String) (rest : Bytes) :
    mismatch wanted (writeText s ++ rest) = .here (.wrongType (.text s) wanted) rest := by
  rw [writeText_append, mismatch]
  simp only [string_flatMap]
  rfl

theorem optionalText_writeText (wanted s : String) (rest : Bytes) :
    optionalText wanted (writeText s ++ rest) = .ok (some s, rest) := by
  have h := text_writeText wanted s rest
  rw [writeText_append] at h
  simp only [optionalText, writeText_append]
  rw [skipBlanks_cons (by decide)]
  split
  · next e => cases e
  · rw [h]
    rfl

theorem variant_writeText {α : Type} {known : List (String × α)} {name : String} {a : α}
    (hk : known.lookup name = some a) (rest : Bytes) :
    variant known (writeText name ++ rest) = .ok (a, rest) := by
  have h := text_writeText "variant identifier" name rest
  simp only [variant]
  rw [writeText_append, skipBlanks_cons (by decide)] at *
  simp only [if_true, variantName, h, bind, Except.bind, hk]

end CommandLink.Json
