import CommandLink.Text.Utf8
/-!
# Reading UTF-8 back

The bytes of a text are read back as that text, and a character's bytes are read as that character
whatever stands behind them.

Results:
* `foldParts_utf8EncodeChar`: reading takes the bytes of a character as one part.
* `toText?_ofText`: strict reading gives a text back.
-/
namespace CommandLink.Text.Utf8

theorem tailCount_one {a : UInt8} (h : a.toNat < 0x80) : tailCount a = some 0 := by
  simp only [tailCount, UInt8.lt_iff_toNat_lt]
  rw [if_pos (by simpa using h)]

theorem tailCount_two {a : UInt8} (h : 0xC2 ≤ a.toNat) (h' : a.toNat ≤ 0xDF) :
    tailCount a = some 1 := by
  simp only [tailCount, UInt8.lt_iff_toNat_lt, UInt8.le_iff_toNat_le, UInt8.reduceToNat]
  rw [if_neg (by omega), if_pos (by omega)]

theorem tailCount_three {a : UInt8} (h : 0xE0 ≤ a.toNat) (h' : a.toNat ≤ 0xEF) :
    tailCount a = some 2 := by
  simp only [tailCount, UInt8.lt_iff_toNat_lt, UInt8.le_iff_toNat_le, UInt8.reduceToNat]
  rw [if_neg (by omega), if_neg (by omega), if_pos (by omega)]

theorem tailCount_four {a : UInt8} (h : 0xF0 ≤ a.toNat) (h' : a.toNat ≤ 0xF4) :
    tailCount a = some 3 := by
  simp only [tailCount, UInt8.lt_iff_toNat_lt, UInt8.le_iff_toNat_le, UInt8.reduceToNat]
  rw [if_neg (by omega), if_neg (by omega), if_neg (by omega), if_pos (by omega)]

theorem isTail_of {b : UInt8} (h : 0x80 ≤ b.toNat) (h' : b.toNat ≤ 0xBF) : isTail b = true := by
  simp only [isTail, UInt8.le_iff_toNat_le, UInt8.reduceToNat, Bool.and_eq_true, decide_eq_true_eq]
  exact ⟨h, h'⟩

/-- A tail byte may be second behind any first byte but the four with a range of their own. -/
theorem isSecond_of {a b : UInt8} (h : 0x80 ≤ b.toNat) (h' : b.toNat ≤ 0xBF)
    (hE0 : a.toNat = 0xE0 → 0xA0 ≤ b.toNat) (hED : a.toNat = 0xED → b.toNat ≤ 0x9F)
    (hF0 : a.toNat = 0xF0 → 0x90 ≤ b.toNat) (hF4 : a.toNat = 0xF4 → b.toNat ≤ 0x8F) :
    isSecond a b = true := by
  simp only [isSecond, secondRange, ← UInt8.toNat_inj, UInt8.le_iff_toNat_le, UInt8.reduceToNat,
    Bool.and_eq_true, decide_eq_true_eq]
  split
  · next e => exact ⟨hE0 e, h'⟩
  split
  · next e => exact ⟨h, hED e⟩
  split
  · next e => exact ⟨hF0 e, h'⟩
  split
  · next e => exact ⟨h, hF4 e⟩
  · exact ⟨h, h'⟩

section
variable {β : Type} (f : β → Option Char → β) (acc : β)

theorem foldParts_one {a : UInt8} (rest : Bytes) (ha : a.toNat < 0x80) :
    foldParts f acc (a :: rest) = foldParts f (f acc (some (Char.ofNat a.toNat))) rest := by
  rw [foldParts.eq_def]
  simp only [tailCount_one ha]

theorem foldParts_two {a b : UInt8} (rest : Bytes) (ha : tailCount a = some 1)
    (hb : isSecond a b = true) :
    foldParts f acc (a :: b :: rest)
      = foldParts f (f acc (some (Char.ofNat (a.toNat % 32 * 64 + low6 b)))) rest := by
  rw [foldParts.eq_def]
  simp only [ha, hb, if_true]

theorem foldParts_three {a b c : UInt8} (rest : Bytes) (ha : tailCount a = some 2)
    (hb : isSecond a b = true) (hc : isTail c = true) :
    foldParts f acc (a :: b :: c :: rest)
      = foldParts f (f acc (some (Char.ofNat ((a.toNat % 16 * 64 + low6 b) * 64 + low6 c))))
        rest := by
  rw [foldParts.eq_def]
  simp only [ha, hb, hc, if_true]

theorem foldParts_four {a b c d : UInt8} (rest : Bytes) (ha : tailCount a = some 3)
    (hb : isSecond a b = true) (hc : isTail c = true) (hd : isTail d = true) :
    foldParts f acc (a :: b :: c :: d :: rest)
      = foldParts f (f acc (some (Char.ofNat
          (((a.toNat % 8 * 64 + low6 b) * 64 + low6 c) * 64 + low6 d)))) rest := by
  rw [foldParts.eq_def]
  simp only [ha, hb, hc, hd, if_true]

/-- A character is no surrogate and not beyond the last code point. -/
theorem toNat_valid (c : Char) : c.toNat < 0xD800 ∨ (0xDFFF < c.toNat ∧ c.toNat < 0x110000) :=
  c.valid

theorem foldParts_utf8EncodeChar (c : Char) (rest : Bytes) :
    foldParts f acc (String.utf8EncodeChar c ++ rest) = foldParts f (f acc (some c)) rest := by
  have hv := toNat_valid c
  have hc : Char.ofNat c.toNat = c := Char.ofNat_toNat c
  simp only [String.utf8EncodeChar]
  rw [show c.val.toNat = c.toNat from rfl]
  generalize c.toNat = n at hv hc
  split
  · next h =>
    have ha : (UInt8.ofNat n).toNat = n := by rw [UInt8.toNat_ofNat']; omega
    rw [List.singleton_append, foldParts_one f acc rest (by omega), ha, hc]
  split
  · next h1 h2 =>
    have ha : (UInt8.ofNat (n / 64 % 32 + 192)).toNat = n / 64 + 192 := by
      rw [UInt8.toNat_ofNat']; omega
    have hb : (UInt8.ofNat (n % 64 + 128)).toNat = n % 64 + 128 := by
      rw [UInt8.toNat_ofNat']; omega
    simp only [List.cons_append, List.nil_append]
    rw [foldParts_two f acc rest (tailCount_two (by omega) (by omega))
      (isSecond_of (by omega) (by omega) (by omega) (by omega) (by omega) (by omega)), low6, ha, hb,
      show (n / 64 + 192) % 32 * 64 + (n % 64 + 128) % 64 = n by omega, hc]
  split
  · next h1 h2 h3 =>
    have ha : (UInt8.ofNat (n / 4096 % 16 + 224)).toNat = n / 4096 + 224 := by
      rw [UInt8.toNat_ofNat']; omega
    have hb : (UInt8.ofNat (n / 64 % 64 + 128)).toNat = n / 64 % 64 + 128 := by
      rw [UInt8.toNat_ofNat']; omega
    have hd : (UInt8.ofNat (n % 64 + 128)).toNat = n % 64 + 128 := by
      rw [UInt8.toNat_ofNat']; omega
    simp only [List.cons_append, List.nil_append]
    rw [foldParts_three f acc rest (tailCount_three (by omega) (by omega))
      (isSecond_of (by omega) (by omega) (by omega) (by omega) (by omega) (by omega))
      (isTail_of (by omega) (by omega)), low6, low6, ha, hb, hd,
      show ((n / 4096 + 224) % 16 * 64 + (n / 64 % 64 + 128) % 64) * 64 + (n % 64 + 128) % 64 = n
        by omega, hc]
  · next h1 h2 h3 =>
    have ha : (UInt8.ofNat (n / 262144 % 8 + 240)).toNat = n / 262144 + 240 := by
      rw [UInt8.toNat_ofNat']; omega
    have hb : (UInt8.ofNat (n / 4096 % 64 + 128)).toNat = n / 4096 % 64 + 128 := by
      rw [UInt8.toNat_ofNat']; omega
    have hd : (UInt8.ofNat (n / 64 % 64 + 128)).toNat = n / 64 % 64 + 128 := by
      rw [UInt8.toNat_ofNat']; omega
    have he : (UInt8.ofNat (n % 64 + 128)).toNat = n % 64 + 128 := by
      rw [UInt8.toNat_ofNat']; omega
    simp only [List.cons_append, List.nil_append]
    rw [foldParts_four f acc rest (tailCount_four (by omega) (by omega))
      (isSecond_of (by omega) (by omega) (by omega) (by omega) (by omega) (by omega))
      (isTail_of (by omega) (by omega)) (isTail_of (by omega) (by omega)), low6, low6, low6, ha,
      hb, hd, he,
      show (((n / 262144 + 240) % 8 * 64 + (n / 4096 % 64 + 128) % 64) * 64
        + (n / 64 % 64 + 128) % 64) * 64 + (n % 64 + 128) % 64 = n by omega, hc]

theorem foldParts_flatMap (cs : List Char) (rest : Bytes) :
    foldParts f acc (cs.flatMap String.utf8EncodeChar ++ rest)
      = foldParts f (cs.foldl (fun a c => f a (some c)) acc) rest := by
  induction cs generalizing acc with
  | nil => rfl
  | cons c cs ih =>
    rw [List.flatMap_cons, List.append_assoc, foldParts_utf8EncodeChar, ih]
    rfl

end

theorem foldl_pushPart (cs : List Char) (s : String) :
    cs.foldl (fun a c => pushPart a (some c)) (some s) = some (s ++ String.ofList cs) := by
  induction cs generalizing s with
  | nil => simp
  | cons c cs ih =>
    rw [List.foldl_cons]
    show cs.foldl _ (some (s.push c)) = _
    rw [ih, Option.some.injEq, ← String.toList_inj]
    simp

theorem toText?_flatMap (cs : List Char) :
    toText? (cs.flatMap String.utf8EncodeChar) = some (String.ofList cs) := by
  have h := foldParts_flatMap pushPart (some "") cs []
  rw [List.append_nil, foldl_pushPart, foldParts] at h
  rw [toText?, h, String.empty_append]

theorem toText?_ofText (s : String) : toText? (ofText s) = some s := by
  rw [ofText, toText?_flatMap, String.ofList_toList]

end CommandLink.Text.Utf8
