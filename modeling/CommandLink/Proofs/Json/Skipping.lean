import CommandLink.Proofs.Json.Grammar
/-!
# Skipping a spelled value

A value that nobody asked for is read over to its end and no further, however deep its brackets are
nested. The induction is on how the value is spelled; each of its steps is a step of the reader, and
none needs more of them than it has bytes for.

Results:
* `skipOpening_number`: a number is skipped digit by digit, whatever its size.
* `skipped`: every part of a text is skipped to its end.
* `skipValue_spelled`: every value is.
-/
namespace CommandLink.Json
variable {bs blank rest tail gap : Bytes} {v : Value} {part : Part} {first : Bool} {bracket : Bracket}
  {opened : List Bracket} {fuel : Nat} {b : UInt8}

/-! ## Numbers -/

theorem skipDigits_digits {ds : Bytes} (hds : ∀ b ∈ ds, isDigit b = true)
    (hrest : ∀ b ∈ rest.head?, isDigit b = false) (count : Nat) :
    skipDigits count (ds ++ rest) = (count + ds.length, rest) := by
  induction ds generalizing count with
  | nil =>
    cases rest with
    | nil => rfl
    | cons b rest =>
      rw [List.nil_append, skipDigits, if_neg (by simp [hrest b rfl])]
      rfl
  | cons d ds ih =>
    rw [List.cons_append, skipDigits, if_pos (hds d List.mem_cons_self),
      ih fun b hb => hds b (List.mem_cons_of_mem _ hb), List.length_cons]
    congr 1
    omega

theorem Ends.no_digit (h : Ends rest) : ∀ b ∈ rest.head?, isDigit b = false :=
  fun b hb => (h b hb).1

theorem skipExponent_digits {sign ds : Bytes} (hsign : sign = [] ∨ sign = [0x2B] ∨ sign = [0x2D])
    (hds : Digits ds) (hrest : Ends rest) : skipExponent (sign ++ (ds ++ rest)) = .ok rest := by
  obtain ⟨hne, hall⟩ := hds
  obtain ⟨d, ds, rfl⟩ := List.exists_cons_of_ne_nil hne
  have hd := hall d List.mem_cons_self
  have hunsigned : ¬ (d = 0x2B ∨ d = 0x2D) := by
    rintro (rfl | rfl) <;> exact absurd hd (by decide)
  have hdigits := skipDigits_digits (fun b hb => hall b (List.mem_cons_of_mem _ hb)) hrest.no_digit 0
  rcases hsign with rfl | rfl | rfl
  · simp only [List.nil_append, List.cons_append, skipExponent, if_neg hunsigned, if_pos hd, hdigits]
  · simp only [List.nil_append, List.cons_append, skipExponent, true_or, if_true, if_pos hd, hdigits]
  · simp only [List.nil_append, List.cons_append, skipExponent, or_true, if_true, if_pos hd, hdigits]

/-- An exponent cannot begin with a digit or a point. -/
theorem SpellsExponent.no_digit {exponent : Bytes} (h : SpellsExponent exponent) (hrest : Ends rest) :
    ∀ b ∈ (exponent ++ rest).head?, isDigit b = false ∧ b ≠ 0x2E := by
  rcases h with rfl | ⟨mark, sign, ds, hmark, -, -, rfl⟩
  · exact fun b hb => ⟨(hrest b hb).1, (hrest b hb).2.1⟩
  · intro b hb
    cases hb
    simp only [isExponentMark, Bool.or_eq_true, beq_iff_eq] at hmark
    rcases hmark with rfl | rfl <;> decide

/-- Where an exponent may stand, or where the number ends. -/
theorem skip_exponent {exponent : Bytes} (h : SpellsExponent exponent) (hrest : Ends rest) :
    (match exponent ++ rest with
      | [] => .ok []
      | b :: tail => if isExponentMark b then skipExponent tail else .ok (b :: tail))
      = Except.ok (ε := Stop) rest := by
  rcases h with rfl | ⟨mark, sign, ds, hmark, hsign, hds, rfl⟩
  · cases rest with
    | nil => rfl
    | cons b rest =>
      dsimp only [List.nil_append]
      rw [if_neg (by rw [(hrest b rfl).2.2]; decide)]
  · dsimp only [List.cons_append]
    rw [if_pos hmark, List.append_assoc]
    exact skipExponent_digits hsign hds hrest

theorem skipDecimals_digits {ds exponent : Bytes} (hds : Digits ds) (h : SpellsExponent exponent)
    (hrest : Ends rest) : skipDecimals (ds ++ (exponent ++ rest)) = .ok rest := by
  obtain ⟨hne, hall⟩ := hds
  have hdigits := skipDigits_digits hall (fun b hb => (h.no_digit hrest b hb).1) 0
  obtain ⟨count, hcount⟩ : ∃ count, 0 + ds.length = count + 1 :=
    ⟨ds.length - 1, by have := List.length_pos_iff.2 hne; omega⟩
  rw [hcount] at hdigits
  rw [skipDecimals, hdigits, ← skip_exponent h hrest]
  cases exponent ++ rest <;> rfl

/-- A number without its sign. -/
theorem skipNumber_unsigned {whole decimals exponent : Bytes} (hwhole : SpellsInteger whole)
    (hdecimals : SpellsDecimals decimals) (hexponent : SpellsExponent exponent) (hrest : Ends rest) :
    skipNumber (whole ++ (decimals ++ (exponent ++ rest))) = .ok rest := by
  -- behind the whole there is no digit, and the other parts are skipped
  have htail : (∀ b ∈ (decimals ++ (exponent ++ rest)).head?, isDigit b = false)
      ∧ (match decimals ++ (exponent ++ rest) with
        | [] => .ok []
        | b :: tail =>
          if b = 0x2E then skipDecimals tail
          else if isExponentMark b then skipExponent tail else .ok (b :: tail))
        = Except.ok (ε := Stop) rest := by
    rcases hdecimals with rfl | ⟨ds, hds, rfl⟩
    · rw [List.nil_append]
      refine ⟨fun b hb => (hexponent.no_digit hrest b hb).1, ?_⟩
      rw [← skip_exponent hexponent hrest]
      have hpoint := hexponent.no_digit hrest
      cases htext : exponent ++ rest with
      | nil => rfl
      | cons b tail =>
        rw [htext] at hpoint
        exact if_neg (hpoint b rfl).2
    · refine ⟨fun b hb => ?_, ?_⟩
      · cases hb
        decide
      · dsimp only [List.cons_append]
        rw [if_pos rfl]
        exact skipDecimals_digits hds hexponent hrest
  obtain ⟨hdigit, htail⟩ := htail
  rw [← htail]
  rcases hwhole with rfl | ⟨⟨hne, hall⟩, hzero⟩
  · rw [List.cons_append, List.nil_append, skipNumber.eq_def]
    dsimp only
    rw [if_pos rfl]
    cases htext : decimals ++ (exponent ++ rest) with
    | nil => rfl
    | cons b tail =>
      rw [htext] at hdigit
      dsimp only
      rw [if_neg (by rw [hdigit b rfl]; decide)]
  · obtain ⟨d, ds, rfl⟩ := List.exists_cons_of_ne_nil hne
    have hskip := skipDigits_digits (fun b hb => hall b (List.mem_cons_of_mem _ hb)) hdigit 0
    rw [List.cons_append, skipNumber.eq_def]
    dsimp only
    rw [if_neg (fun h => hzero (by rw [h]; rfl)), if_pos (hall d List.mem_cons_self), hskip]
    cases decimals ++ (exponent ++ rest) <;> rfl

/-! ## Values without brackets -/

theorem word_self (w rest : Bytes) : word w (w ++ rest) = .ok rest := by
  induction w with
  | nil => cases rest <;> rfl
  | cons b w ih => rw [List.cons_append, word, if_pos rfl, ih]

theorem skipOpening_number (hblank : Blank blank) (h : SpellsNumber bs) (hrest : Ends rest) :
    skipOpening (blank ++ (bs ++ rest)) = .ok (none, rest) := by
  rw [skipOpening, skipBlanks_value hblank (.number h)]
  cases h with
  | @signed sign whole decimals exponent hsign hwhole hdecimals hexponent =>
    have hskip := skipNumber_unsigned hwhole hdecimals hexponent hrest
    simp only [List.append_assoc]
    rcases hsign with rfl | rfl
    · obtain ⟨d, ds, rfl, hd⟩ := hwhole.opening
      have hne {c : UInt8} (hc : isDigit c = false) : d ≠ c := ne_of_isDigit hd hc
      rw [List.nil_append, List.cons_append]
      dsimp only
      rw [if_neg (hne (by decide)), if_neg (hne (by decide)), if_neg (hne (by decide)),
        if_neg (hne (by decide)), if_pos hd, ← List.cons_append, hskip]
      rfl
    · rw [List.cons_append, List.nil_append]
      dsimp only
      rw [if_neg (by decide), if_neg (by decide), if_neg (by decide), if_pos rfl, hskip]
      rfl

theorem skipOpening_text {s : String} (hblank : Blank blank) (h : SpellsText s bs) (rest : Bytes) :
    skipOpening (blank ++ (bs ++ rest)) = .ok (none, rest) := by
  rw [skipOpening, skipBlanks_value hblank (.text h)]
  obtain ⟨inner, rfl, hread⟩ := h.read
  rw [List.cons_append]
  dsimp only
  rw [if_neg (by decide), if_neg (by decide), if_neg (by decide), if_neg (by decide),
    if_neg (by decide), if_pos rfl, (hread rest).2]
  rfl

theorem skipOpening_word {w : Bytes} {b : UInt8}
    (h : (b, w) = (0x6E, ascii "ull") ∨ (b, w) = (0x74, ascii "rue") ∨ (b, w) = (0x66, ascii "alse"))
    (hblank : Blank blank) (rest : Bytes) :
    skipOpening (blank ++ (b :: w ++ rest)) = .ok (none, rest) := by
  have hb : isBlank b = false := by rcases h with h | h | h <;> cases h <;> decide
  rw [skipOpening, skipBlanks_blank hblank, List.cons_append, skipBlanks_cons hb]
  dsimp only
  rcases h with h | h | h <;> cases h
  · rw [if_pos rfl, word_self]
    rfl
  · rw [if_neg (by decide), if_pos rfl, word_self]
    rfl
  · rw [if_neg (by decide), if_neg (by decide), if_pos rfl, word_self]
    rfl

/-- The byte that opens a bracket. -/
def Bracket.opening : Bracket → UInt8
  | .list => 0x5B
  | .object => 0x7B

theorem skipOpening_bracket (bracket : Bracket) (hblank : Blank blank) (rest : Bytes) :
    skipOpening (blank ++ bracket.opening :: rest) = .ok (some bracket, rest) := by
  have hb : isBlank bracket.opening = false := by cases bracket <;> decide
  rw [skipOpening, skipBlanks_blank hblank, skipBlanks_cons hb]
  cases bracket <;> rfl

/-! ## Brackets -/

/-- Reading on behind a value. -/
def resume (fuel : Nat) (opened : List Bracket) (rest : Bytes) : Except Stop Bytes :=
  match opened with
  | [] => .ok rest
  | bracket :: opened => skipOn fuel (.inside true) (bracket :: opened) rest

theorem skipOn_flat (h : skipOpening bs = .ok (none, rest)) (fuel : Nat) (opened : List Bracket) :
    skipOn (fuel + 1) .value opened bs = resume fuel opened rest := by
  rw [skipOn, h]
  cases opened <;> rfl

theorem skipOn_opening (bracket : Bracket) (hblank : Blank blank) (fuel : Nat) (opened : List Bracket) (rest : Bytes) :
    skipOn (fuel + 1) .value opened (blank ++ bracket.opening :: rest)
      = skipOn fuel (.inside false) (bracket :: opened) rest := by
  rw [skipOn, skipOpening_bracket bracket hblank]

theorem skipOn_closing (bracket : Bracket) (hblank : Blank blank) (commaAllowed : Bool) (fuel : Nat)
    (opened : List Bracket) (rest : Bytes) :
    skipOn (fuel + 1) (.inside commaAllowed) (bracket :: opened) (blank ++ bracket.closing :: rest)
      = resume fuel opened rest := by
  have hb : isBlank bracket.closing = false := by cases bracket <;> decide
  have hcomma : ¬ (bracket.closing = 0x2C ∧ commaAllowed = true) := by
    rintro ⟨h, -⟩
    cases bracket <;> exact absurd h (by decide)
  rw [skipOn, skipBlanks_blank hblank, skipBlanks_cons hb]
  dsimp only
  rw [if_neg hcomma, if_pos rfl]
  cases opened <;> rfl

/-- What is skipped of a part of a bracket before its value: of a member its key. -/
def skipName : Bracket → Bytes → Except Stop Bytes
  | .list, bs => .ok bs
  | .object, bs => skipKey bs

/-- The gap before a part of a bracket is read over; white space may be left of it. -/
theorem skipOn_gap (bracket : Bracket) (hgap : Gap first gap) {b : UInt8}
    (hblank : isBlank b = false) (hcomma : b ≠ 0x2C) (hclosing : b ≠ bracket.closing) (fuel : Nat) (opened : List Bracket) (tail : Bytes) :
    ∃ after, Blank after ∧ ∀ rest, skipName bracket (after ++ b :: tail) = .ok rest →
      skipOn (fuel + 1) (.inside !first) (bracket :: opened) (gap ++ b :: tail)
        = skipOn fuel .value (bracket :: opened) rest := by
  cases hgap with
  | first hgap =>
    refine ⟨[], .nil, fun rest hrest => ?_⟩
    rw [List.nil_append] at hrest
    rw [skipOn, skipBlanks_blank hgap, skipBlanks_cons hblank]
    dsimp only
    rw [if_neg (fun h => hcomma h.1), if_neg hclosing]
    cases bracket with
    | list =>
      cases hrest
      rfl
    | object =>
      dsimp only [skipName] at hrest
      rw [hrest]
      rfl
  | @next before after hbefore hafter =>
    refine ⟨after, hafter, fun rest hrest => ?_⟩
    rw [List.append_assoc, List.cons_append, skipOn, skipBlanks_blank hbefore,
      skipBlanks_cons (by decide)]
    dsimp only
    rw [if_pos ⟨rfl, rfl⟩]
    cases bracket with
    | list =>
      cases hrest
      rfl
    | object =>
      dsimp only [skipName] at hrest
      rw [hrest]

theorem skipKey_spelled {before key : Bytes} {name : String} (hblank : Blank blank)
    (hkey : SpellsText name key) (hbefore : Blank before) (rest : Bytes) :
    skipKey (blank ++ (key ++ (before ++ 0x3A :: rest))) = .ok rest := by
  rw [skipKey, skipBlanks_value hblank (.text hkey)]
  obtain ⟨inner, rfl, hread⟩ := hkey.read
  rw [List.cons_append]
  dsimp only
  rw [if_pos rfl, (hread _).2]
  dsimp only
  rw [skipBlanks_blank hbefore, skipBlanks_cons (by decide)]
  rfl

/-! ## Values -/

/-- A part is skipped to its end, in no more steps than its bytes are good for. -/
def Part.Skipped : Part → Bytes → Prop
  | value _, bs => ∃ n, n + 1 ≤ 2 * bs.length ∧ ∀ fuel opened blank rest, Blank blank → Ends rest →
      skipOn (fuel + n) .value opened (blank ++ (bs ++ rest)) = resume fuel opened rest
  | elements first _, bs => ∃ n, n ≤ 2 * bs.length ∧ ∀ fuel opened rest,
      skipOn (fuel + n) (.inside !first) (.list :: opened) (bs ++ rest) = resume fuel opened rest
  | members first _, bs => ∃ n, n ≤ 2 * bs.length ∧ ∀ fuel opened rest,
      skipOn (fuel + n) (.inside !first) (.object :: opened) (bs ++ rest) = resume fuel opened rest

theorem skipped_flat {v : Value} (hlen : 0 < bs.length)
    (h : ∀ blank rest, Blank blank → Ends rest →
      skipOpening (blank ++ (bs ++ rest)) = .ok (none, rest)) : (Part.value v).Skipped bs :=
  ⟨1, by omega, fun fuel opened blank rest hblank hrest =>
    skipOn_flat (h blank rest hblank hrest) fuel opened⟩

theorem skipped (h : Spells part bs) : part.Skipped bs := by
  induction h with
  | wordNull =>
    exact skipped_flat (by decide) fun blank rest hblank _ => skipOpening_word (.inl rfl) hblank rest
  | wordTrue =>
    exact skipped_flat (by decide) fun blank rest hblank _ =>
      skipOpening_word (.inr (.inl rfl)) hblank rest
  | wordFalse =>
    exact skipped_flat (by decide) fun blank rest hblank _ =>
      skipOpening_word (.inr (.inr rfl)) hblank rest
  | number h =>
    obtain ⟨b, tail, rfl, -⟩ := (Spells.number h).opening
    exact skipped_flat (Nat.succ_pos _) fun blank rest hblank hrest =>
      skipOpening_number hblank h hrest
  | text h =>
    obtain ⟨b, tail, rfl, -⟩ := (Spells.text h).opening
    exact skipped_flat (Nat.succ_pos _) fun blank rest hblank _ => skipOpening_text hblank h rest
  | list h ih =>
    obtain ⟨n, hn, hskip⟩ := ih
    refine ⟨n + 1, by rw [List.length_cons]; omega, fun fuel opened blank rest hblank _ => ?_⟩
    rw [← hskip fuel opened rest]
    exact skipOn_opening .list hblank (fuel + n) opened _
  | object h ih =>
    obtain ⟨n, hn, hskip⟩ := ih
    refine ⟨n + 1, by rw [List.length_cons]; omega, fun fuel opened blank rest hblank _ => ?_⟩
    rw [← hskip fuel opened rest]
    exact skipOn_opening .object hblank (fuel + n) opened _
  | @listEnd first blank hblank =>
    refine ⟨1, by rw [List.length_append, List.length_singleton]; omega, fun fuel opened rest => ?_⟩
    rw [List.append_assoc]
    exact skipOn_closing .list hblank _ fuel opened rest
  | @objectEnd first blank hblank =>
    refine ⟨1, by rw [List.length_append, List.length_singleton]; omega, fun fuel opened rest => ?_⟩
    rw [List.append_assoc]
    exact skipOn_closing .object hblank _ fuel opened rest
  | @element first gap bs tail v vs hgap hv hrest ihv ihrest =>
    obtain ⟨m, hm, hvalue⟩ := ihv
    obtain ⟨n, hn, hothers⟩ := ihrest
    obtain ⟨b, inner, rfl, hb⟩ := hv.opening
    refine ⟨n + m + 1, by simp only [List.length_append]; omega, fun fuel opened rest => ?_⟩
    obtain ⟨after, hafter, hgo⟩ := skipOn_gap .list hgap hb.not_blank
      (hb.ne (by decide) (by decide)) (hb.ne (by decide) (by decide)) (fuel + n + m) opened
      (inner ++ (tail ++ rest))
    rw [List.append_assoc, List.append_assoc, ← Nat.add_assoc, ← Nat.add_assoc]
    refine (hgo _ rfl).trans ((hvalue (fuel + n) _ after _ hafter (hrest.ends_elements rest)).trans ?_)
    exact hothers fuel opened rest
  | @member first gap key before after bs tail name v ms hgap hkey hbefore hafter hv hrest ihv ihrest =>
    obtain ⟨m, hm, hvalue⟩ := ihv
    obtain ⟨n, hn, hothers⟩ := ihrest
    refine ⟨n + m + 1, by simp only [List.length_append, List.length_cons]; omega,
      fun fuel opened rest => ?_⟩
    simp only [List.append_assoc, List.cons_append, ← Nat.add_assoc]
    have hname {blank : Bytes} (hblank : Blank blank) :=
      skipKey_spelled hblank hkey hbefore (after ++ (bs ++ (tail ++ rest)))
    obtain ⟨inner, rfl, -⟩ := hkey.read
    have hgap := skipOn_gap .object (b := 0x22) hgap (by decide) (by decide) (by decide)
      (fuel + n + m) opened (inner ++ (before ++ 0x3A :: (after ++ (bs ++ (tail ++ rest)))))
    obtain ⟨blank, hblank, hgo⟩ := hgap
    refine (hgo _ (hname hblank)).trans
      ((hvalue (fuel + n) _ after _ hafter (hrest.ends_members rest)).trans ?_)
    exact hothers fuel opened rest

/-- A value is skipped to its end, nested as deep as it may be. -/
theorem skipValue_spelled (hblank : Blank blank) (h : Spells (.value v) bs) (hrest : Ends rest) :
    skipValue (blank ++ (bs ++ rest)) = .ok rest := by
  obtain ⟨n, hn, hskip⟩ := skipped h
  rw [skipValue]
  obtain ⟨fuel, hfuel⟩ : ∃ fuel, 2 * (blank ++ (bs ++ rest)).length + 2 = fuel + n :=
    ⟨2 * (blank ++ (bs ++ rest)).length + 2 - n, by simp only [List.length_append]; omega⟩
  rw [hfuel]
  exact hskip fuel [] blank rest hblank hrest

end CommandLink.Json
