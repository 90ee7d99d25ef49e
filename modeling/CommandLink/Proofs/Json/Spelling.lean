import CommandLink.Proofs.Json.Strings
/-!
# Spellings of a text

Inside a JSON string a character stands for itself or is escaped, by a letter or by its UTF-16 units,
the digits of which may be of either case. A text so has many spellings. They are all read as that text,
and all skipped to their ends.

Results:
* `SpellsText.read`: a spelled text, read and skipped.
* `spellsText_writeText`: a text is written in one of its spellings.
-/
namespace CommandLink.Json
variable {b : UInt8} {n : Nat} {c : Char} {bs : Bytes} {s : String}

/-- A hexadecimal digit and its value. -/
inductive HexDigit : UInt8 → Nat → Prop
  | decimal {n : Nat} (h : n < 10) : HexDigit (UInt8.ofNat (0x30 + n)) n
  | lower {n : Nat} (h : n < 6) : HexDigit (UInt8.ofNat (0x61 + n)) (10 + n)
  | upper {n : Nat} (h : n < 6) : HexDigit (UInt8.ofNat (0x41 + n)) (10 + n)

/-- An escape of a UTF-16 unit: backslash, `u` and four hexadecimal digits. -/
inductive SpellsUnit : Nat → Bytes → Prop
  | digits {a b c d : UInt8} {x y z w : Nat} (ha : HexDigit a x) (hb : HexDigit b y)
      (hc : HexDigit c z) (hd : HexDigit d w) :
      SpellsUnit (0x1000 * x + 0x100 * y + 0x10 * z + w) [0x5C, 0x75, a, b, c, d]

/-- The letters that stand for characters behind a backslash. -/
def letters : List (Char × Char) :=
  [('"', '"'), ('\\', '\\'), ('/', '/'), ('b', '\x08'), ('f', '\x0c'), ('n', '\n'), ('r', '\r'),
   ('t', '\t')]

/-- The ways to spell a character. One beyond the first plane takes two units, of which neither is a
character by itself. -/
inductive SpellsChar : Char → Bytes → Prop
  | plain {c : Char} (quote : c ≠ '"') (backslash : c ≠ '\\') (control : 0x20 ≤ c.toNat) :
      SpellsChar c (String.utf8EncodeChar c)
  | letter {l c : Char} (h : (l, c) ∈ letters) : SpellsChar c [0x5C, UInt8.ofNat l.toNat]
  | unit {c : Char} {bs : Bytes} (h : SpellsUnit c.toNat bs) : SpellsChar c bs
  | pair {c : Char} {high low : Bytes} (beyond : 0x10000 ≤ c.toNat)
      (hhigh : SpellsUnit (0xD800 + (c.toNat - 0x10000) / 0x400) high)
      (hlow : SpellsUnit (0xDC00 + (c.toNat - 0x10000) % 0x400) low) : SpellsChar c (high ++ low)

inductive SpellsChars : List Char → Bytes → Prop
  | nil : SpellsChars [] []
  | cons {c : Char} {cs : List Char} {b bs : Bytes} (head : SpellsChar c b)
      (tail : SpellsChars cs bs) : SpellsChars (c :: cs) (b ++ bs)

/-- A text in quotes. -/
inductive SpellsText : String → Bytes → Prop
  | quoted {s : String} {bs : Bytes} (h : SpellsChars s.toList bs) :
      SpellsText s (0x22 :: (bs ++ [0x22]))

/-! ## Skipping byte by byte -/

theorem skipString_quote (rest : Bytes) : skipString (0x22 :: rest) = .ok rest := by
  rw [skipString.eq_def]
  rfl

theorem skipString_plain (h : IsPlain b) (rest : Bytes) :
    skipString (b :: rest) = skipString rest := by
  obtain ⟨hq, hb, hc⟩ := h
  rw [skipString.eq_def]
  dsimp only
  rw [if_neg hq, if_neg hb, if_neg hc]

theorem skipString_plains (h : ∀ b ∈ bs, IsPlain b) (rest : Bytes) :
    skipString (bs ++ rest) = skipString rest := by
  induction bs with
  | nil => rfl
  | cons b bs ih =>
    rw [List.cons_append, skipString_plain (h b List.mem_cons_self),
      ih fun c hc => h c (List.mem_cons_of_mem _ hc)]

theorem skipString_letter (hu : b ≠ 0x75) (h : (letterEscape b).isSome = true) (rest : Bytes) :
    skipString (0x5C :: b :: rest) = skipString rest := by
  rw [skipString.eq_def]
  dsimp only
  rw [if_neg (by decide), if_pos rfl, if_neg hu, if_pos h]

/-! ## Units -/

theorem hexValue_decimal : ∀ n, n < 10 → hexValue (UInt8.ofNat (0x30 + n)) = some n := by decide

theorem hexValue_lower : ∀ n, n < 6 → hexValue (UInt8.ofNat (0x61 + n)) = some (10 + n) := by decide

theorem hexValue_upper : ∀ n, n < 6 → hexValue (UInt8.ofNat (0x41 + n)) = some (10 + n) := by decide

theorem HexDigit.hexValue (h : HexDigit b n) : hexValue b = some n := by
  cases h with
  | decimal h => exact hexValue_decimal n h
  | lower h => exact hexValue_lower _ h
  | upper h => exact hexValue_upper _ h

/-- What becomes of an escaped unit: its number is read, and it is skipped. -/
theorem SpellsUnit.read (h : SpellsUnit n bs) : ∃ ds, bs = 0x5C :: 0x75 :: ds
    ∧ ∀ rest, hex4 (ds ++ rest) = .ok (n, rest)
      ∧ skipString (0x5C :: 0x75 :: (ds ++ rest)) = skipString rest := by
  cases h with
  | @digits a b c d x y z w ha hb hc hd =>
    refine ⟨[a, b, c, d], rfl, fun rest => ⟨?_, ?_⟩⟩
    · have hnumber : ((x * 16 + y) * 16 + z) * 16 + w = 0x1000 * x + 0x100 * y + 0x10 * z + w := by
        omega
      simp only [List.cons_append, List.nil_append, hex4, ha.hexValue, hb.hexValue, hc.hexValue,
        hd.hexValue, hnumber]
    · rw [skipString.eq_def]
      dsimp only [List.cons_append, List.nil_append]
      rw [if_neg (by decide), if_pos rfl, if_pos rfl, ha.hexValue, hb.hexValue, hc.hexValue,
        hd.hexValue]

/-- A unit that is a character. -/
theorem escape_unit_spelled (h : SpellsUnit c.toNat bs) : ∃ ds, bs = 0x5C :: ds
    ∧ ∀ rest, escape (ds ++ rest) = .ok (String.utf8EncodeChar c, rest) := by
  obtain ⟨ds, rfl, hread⟩ := h.read
  refine ⟨0x75 :: ds, rfl, fun rest => ?_⟩
  have hvalid := Text.Utf8.toNat_valid c
  have hlow : isLowSurrogate c.toNat = false := by
    simp only [isLowSurrogate, Bool.and_eq_false_iff, decide_eq_false_iff_not]
    omega
  have hhigh : isHighSurrogate c.toNat = false := by
    simp only [isHighSurrogate, Bool.and_eq_false_iff, decide_eq_false_iff_not]
    omega
  simp only [List.cons_append, escape, if_true, unitEscape, (hread rest).1, bind, Except.bind, hlow,
    hhigh, Bool.false_eq_true, if_false, Json.spelled, Char.ofNat_toNat]

/-- A pair of units that are a character together. -/
theorem escape_pair_spelled {high low : Bytes} (beyond : 0x10000 ≤ c.toNat)
    (hhigh : SpellsUnit (0xD800 + (c.toNat - 0x10000) / 0x400) high)
    (hlow : SpellsUnit (0xDC00 + (c.toNat - 0x10000) % 0x400) low) : ∃ ds, high ++ low = 0x5C :: ds
    ∧ ∀ rest, escape (ds ++ rest) = .ok (String.utf8EncodeChar c, rest) := by
  obtain ⟨hs, rfl, hreadHigh⟩ := hhigh.read
  obtain ⟨ls, rfl, hreadLow⟩ := hlow.read
  refine ⟨0x75 :: (hs ++ 0x5C :: 0x75 :: ls), rfl, fun rest => ?_⟩
  have hvalid := Text.Utf8.toNat_valid c
  generalize hx : 0xD800 + (c.toNat - 0x10000) / 0x400 = x at hreadHigh
  generalize hy : 0xDC00 + (c.toNat - 0x10000) % 0x400 = y at hreadLow
  have hnotLow : isLowSurrogate x = false := by
    simp only [isLowSurrogate, Bool.and_eq_false_iff, decide_eq_false_iff_not]
    omega
  have hisHigh : isHighSurrogate x = true := by
    simp only [isHighSurrogate, Bool.and_eq_true, decide_eq_true_eq]
    omega
  have hisLow : isLowSurrogate y = true := by
    simp only [isLowSurrogate, Bool.and_eq_true, decide_eq_true_eq]
    omega
  have hpaired : paired x y = c.toNat := by
    unfold paired
    omega
  have htogether : lowHalf x (0x5C :: 0x75 :: (ls ++ rest)) = .ok (c.toNat, rest) := by
    simp only [lowHalf, ne_eq, not_true_eq_false, if_false, (hreadLow rest).1, hisLow, if_true,
      hpaired]
  have hfirst := (hreadHigh (0x5C :: 0x75 :: (ls ++ rest))).1
  simp only [List.cons_append, List.append_assoc, escape, if_true, unitEscape, hfirst, bind,
    Except.bind, hnotLow, hisHigh, htogether, Bool.false_eq_true, if_false, Json.spelled,
    Char.ofNat_toNat]

/-! ## Characters -/

theorem escape_letters : ∀ l c, (l, c) ∈ letters → UInt8.ofNat l.toNat ≠ 0x75
    ∧ letterEscape (UInt8.ofNat l.toNat) = some (UInt8.ofNat c.toNat)
    ∧ String.utf8EncodeChar c = [UInt8.ofNat c.toNat] := by
  intro l c h
  simp only [letters, List.mem_cons, List.not_mem_nil, or_false, Prod.mk.injEq] at h
  rcases h with ⟨rfl, rfl⟩ | ⟨rfl, rfl⟩ | ⟨rfl, rfl⟩ | ⟨rfl, rfl⟩ | ⟨rfl, rfl⟩ | ⟨rfl, rfl⟩
    | ⟨rfl, rfl⟩ | ⟨rfl, rfl⟩ <;> decide

/-- A spelled character, read as its own bytes. -/
theorem stringOnto_spellsChar (h : SpellsChar c bs) (acc rest : Bytes) :
    stringOnto acc (bs ++ rest) = stringOnto ((String.utf8EncodeChar c).reverse ++ acc) rest := by
  cases h with
  | plain quote backslash control =>
    exact stringOnto_plains (fun b => isPlain_of_mem quote backslash control) acc rest
  | @letter l c h =>
    obtain ⟨hu, hletter, hc⟩ := escape_letters l _ h
    rw [hc]
    exact stringOnto_escape (escape_letter hu hletter rest) acc
  | unit h =>
    obtain ⟨ds, rfl, hescape⟩ := escape_unit_spelled h
    exact stringOnto_escape (hescape rest) acc
  | pair beyond hhigh hlow =>
    obtain ⟨ds, hds, hescape⟩ := escape_pair_spelled beyond hhigh hlow
    rw [hds]
    exact stringOnto_escape (hescape rest) acc

theorem skipString_spellsChar (h : SpellsChar c bs) (rest : Bytes) :
    skipString (bs ++ rest) = skipString rest := by
  cases h with
  | plain quote backslash control =>
    exact skipString_plains (fun b => isPlain_of_mem quote backslash control) rest
  | @letter l c h =>
    obtain ⟨hu, hletter, -⟩ := escape_letters l _ h
    exact skipString_letter hu (by rw [hletter]; rfl) rest
  | unit h =>
    obtain ⟨ds, rfl, hread⟩ := h.read
    exact (hread rest).2
  | pair beyond hhigh hlow =>
    obtain ⟨hs, rfl, hreadHigh⟩ := hhigh.read
    obtain ⟨ls, rfl, hreadLow⟩ := hlow.read
    rw [List.append_assoc]
    exact ((hreadHigh _).2).trans (hreadLow rest).2

/-! ## Texts -/

theorem stringOnto_spellsChars {cs : List Char} (h : SpellsChars cs bs) (acc rest : Bytes) :
    stringOnto acc (bs ++ 0x22 :: rest)
      = .ok (acc.reverse ++ cs.flatMap String.utf8EncodeChar, rest) := by
  induction h generalizing acc with
  | nil =>
    rw [List.nil_append, stringOnto, if_pos rfl, List.flatMap_nil, List.append_nil]
  | cons head tail ih =>
    rw [List.append_assoc, stringOnto_spellsChar head, ih, List.flatMap_cons, List.reverse_append,
      List.reverse_reverse, List.append_assoc]

theorem skipString_spellsChars {cs : List Char} (h : SpellsChars cs bs) (rest : Bytes) :
    skipString (bs ++ 0x22 :: rest) = .ok rest := by
  induction h with
  | nil => exact skipString_quote rest
  | cons head tail ih => rw [List.append_assoc, skipString_spellsChar head, ih]

/-- A spelled text is read as the text and skipped to its end. -/
theorem SpellsText.read (h : SpellsText s bs) : ∃ inner, bs = 0x22 :: inner
    ∧ ∀ rest, string (inner ++ rest) = .ok (s, rest) ∧ skipString (inner ++ rest) = .ok rest := by
  cases h with
  | @quoted inner h =>
    refine ⟨inner ++ [0x22], rfl, fun rest => ?_⟩
    rw [List.append_assoc, List.singleton_append]
    refine ⟨?_, skipString_spellsChars h rest⟩
    simp only [string, stringOnto_spellsChars h, bind, Except.bind, List.reverse_nil,
      List.nil_append, Text.Utf8.toText?_flatMap, String.ofList_toList]

/-! ## Written texts -/

theorem hexDigit_hexDigit : ∀ n, n < 16 → HexDigit (hexDigit n) n := by
  intro n hn
  unfold hexDigit
  split
  · next h => exact .decimal h
  · next h =>
    obtain ⟨m, rfl⟩ : ∃ m, n = 10 + m := ⟨n - 10, by omega⟩
    rw [Nat.add_sub_cancel_left]
    exact .lower (by omega)

theorem spellsChar_writeChar (c : Char) : SpellsChar c (writeChar c) := by
  have hletter (l : Char) (h : (l, c) ∈ letters) : SpellsChar c [0x5C, UInt8.ofNat l.toNat] :=
    .letter h
  unfold writeChar
  split
  · subst_vars; exact hletter '"' (by decide)
  split
  · subst_vars; exact hletter '\\' (by decide)
  split
  · subst_vars; exact hletter 'b' (by decide)
  split
  · subst_vars; exact hletter 't' (by decide)
  split
  · subst_vars; exact hletter 'n' (by decide)
  split
  · subst_vars; exact hletter 'f' (by decide)
  split
  · subst_vars; exact hletter 'r' (by decide)
  split
  · next hc =>
    have hunit := SpellsUnit.digits (.decimal (n := 0) (by decide)) (.decimal (n := 0) (by decide))
      (hexDigit_hexDigit (c.toNat / 16) (by omega)) (hexDigit_hexDigit (c.toNat % 16) (by omega))
    rw [show 0x1000 * 0 + 0x100 * 0 + 0x10 * (c.toNat / 16) + c.toNat % 16 = c.toNat by omega]
      at hunit
    exact .unit hunit
  · next hq hb _ _ _ _ _ hc => exact .plain hq hb (by omega)

theorem spellsChars_flatMap (cs : List Char) : SpellsChars cs (cs.flatMap writeChar) := by
  induction cs with
  | nil => exact .nil
  | cons c cs ih => exact .cons (spellsChar_writeChar c) ih

/-- A text is written in one of its spellings. -/
theorem spellsText_writeText (s : String) : SpellsText s (writeText s) :=
  .quoted (spellsChars_flatMap s.toList)

end CommandLink.Json
