import CommandLink.Proofs.Json.Spelling
/-!
# The grammar of JSON

The values of JSON, nested to any depth, and the bytes that spell them: any white space between their
parts, any spelling of their texts. Where reading a bracket goes on, behind its opening or behind one of
its parts, the grammar has a part of its own, so that an induction follows the reader step by step.

Results:
* `Spells.opening`, `Value.Opens.ne`: the bytes that a value can begin with.
* `Spells.ends_elements`, `Spells.ends_members`: what stands behind a part of a bracket cannot go on a
  number.
-/
namespace CommandLink.Json

/-- Nothing but white space. -/
def Blank (bs : Bytes) : Prop := ∀ b ∈ bs, isBlank b = true

theorem Blank.nil : Blank [] := fun _ h => absurd h List.not_mem_nil

/-- One digit or more. -/
def Digits (bs : Bytes) : Prop := bs ≠ [] ∧ ∀ b ∈ bs, isDigit b = true

/-- The digits of a number before its point, without a zero before them. -/
def SpellsInteger (bs : Bytes) : Prop := bs = [0x30] ∨ Digits bs ∧ bs.head? ≠ some 0x30

def SpellsDecimals (bs : Bytes) : Prop := bs = [] ∨ ∃ ds, Digits ds ∧ bs = 0x2E :: ds

def SpellsExponent (bs : Bytes) : Prop :=
  bs = [] ∨ ∃ mark sign ds, isExponentMark mark = true ∧ (sign = [] ∨ sign = [0x2B] ∨ sign = [0x2D])
    ∧ Digits ds ∧ bs = mark :: (sign ++ ds)

inductive SpellsNumber : Bytes → Prop
  | signed {sign whole decimals exponent : Bytes} (hsign : sign = [] ∨ sign = [0x2D])
      (hwhole : SpellsInteger whole) (hdecimals : SpellsDecimals decimals)
      (hexponent : SpellsExponent exponent) :
      SpellsNumber (sign ++ (whole ++ (decimals ++ exponent)))

/-- A value. Of a number its digits matter, of an object the order of its members. -/
inductive Value where
  | null
  | boolean (b : Bool)
  | number (digits : Bytes)
  | text (s : String)
  | list (elements : List Value)
  | object (members : List (String × Value))

/-- What is read as one: a value, or what is left of a bracket behind its opening (`first`) or behind
one of its parts, with the closing at its end. -/
inductive Part where
  | value (v : Value)
  | elements (first : Bool) (vs : List Value)
  | members (first : Bool) (ms : List (String × Value))

/-- What stands before a part of a bracket: white space, and a comma unless the part is the first. -/
inductive Gap : Bool → Bytes → Prop
  | first {bs : Bytes} (h : Blank bs) : Gap true bs
  | next {before after : Bytes} (hbefore : Blank before) (hafter : Blank after) :
      Gap false (before ++ 0x2C :: after)

inductive Spells : Part → Bytes → Prop
  | wordNull : Spells (.value .null) (ascii "null")
  | wordTrue : Spells (.value (.boolean true)) (ascii "true")
  | wordFalse : Spells (.value (.boolean false)) (ascii "false")
  | number {bs : Bytes} (h : SpellsNumber bs) : Spells (.value (.number bs)) bs
  | text {s : String} {bs : Bytes} (h : SpellsText s bs) : Spells (.value (.text s)) bs
  | list {vs : List Value} {bs : Bytes} (h : Spells (.elements true vs) bs) :
      Spells (.value (.list vs)) (0x5B :: bs)
  | object {ms : List (String × Value)} {bs : Bytes} (h : Spells (.members true ms) bs) :
      Spells (.value (.object ms)) (0x7B :: bs)
  | listEnd {first : Bool} {blank : Bytes} (hblank : Blank blank) :
      Spells (.elements first []) (blank ++ [0x5D])
  | element {first : Bool} {gap bs rest : Bytes} {v : Value} {vs : List Value} (hgap : Gap first gap)
      (hv : Spells (.value v) bs) (hrest : Spells (.elements false vs) rest) :
      Spells (.elements first (v :: vs)) (gap ++ (bs ++ rest))
  | objectEnd {first : Bool} {blank : Bytes} (hblank : Blank blank) :
      Spells (.members first []) (blank ++ [0x7D])
  | member {first : Bool} {gap key before after bs rest : Bytes} {name : String} {v : Value}
      {ms : List (String × Value)} (hgap : Gap first gap) (hkey : SpellsText name key)
      (hbefore : Blank before) (hafter : Blank after) (hv : Spells (.value v) bs)
      (hrest : Spells (.members false ms) rest) :
      Spells (.members first ((name, v) :: ms))
        (gap ++ (key ++ (before ++ 0x3A :: (after ++ (bs ++ rest)))))

/-! ## First bytes -/

variable {v : Value} {bs blank rest : Bytes} {b : UInt8}

/-- The bytes that a value can begin with. -/
def Value.Opens : Value → UInt8 → Prop
  | null, b => b = 0x6E
  | boolean true, b => b = 0x74
  | boolean false, b => b = 0x66
  | number _, b => b = 0x2D ∨ isDigit b = true
  | text _, b => b = 0x22
  | list _, b => b = 0x5B
  | object _, b => b = 0x7B

theorem SpellsInteger.opening (h : SpellsInteger bs) : ∃ b tail, bs = b :: tail ∧ isDigit b = true := by
  rcases h with rfl | ⟨⟨hne, hall⟩, -⟩
  · exact ⟨0x30, [], rfl, by decide⟩
  · obtain ⟨b, tail, rfl⟩ := List.exists_cons_of_ne_nil hne
    exact ⟨b, tail, rfl, hall b List.mem_cons_self⟩

theorem Spells.opening (h : Spells (.value v) bs) : ∃ b tail, bs = b :: tail ∧ v.Opens b := by
  cases h with
  | wordNull => exact ⟨0x6E, ascii "ull", rfl, rfl⟩
  | wordTrue => exact ⟨0x74, ascii "rue", rfl, rfl⟩
  | wordFalse => exact ⟨0x66, ascii "alse", rfl, rfl⟩
  | number h =>
    cases h with
    | signed hsign hwhole _ _ =>
      rcases hsign with rfl | rfl
      · obtain ⟨b, tail, rfl, hb⟩ := hwhole.opening
        exact ⟨b, _, rfl, .inr hb⟩
      · exact ⟨0x2D, _, rfl, .inl rfl⟩
  | text h =>
    cases h with
    | quoted h => exact ⟨0x22, _, rfl, rfl⟩
  | list h => exact ⟨0x5B, _, rfl, rfl⟩
  | object h => exact ⟨0x7B, _, rfl, rfl⟩

theorem ne_of_isDigit {c : UInt8} (h : isDigit b = true) (hc : isDigit c = false) : b ≠ c := by
  rintro rfl
  rw [h] at hc
  cases hc

/-- No value begins with another byte than a digit, a minus, a quote, a bracket or a letter of a word. -/
theorem Value.Opens.ne (h : v.Opens b) {c : UInt8} (hdigit : isDigit c = false)
    (hc : c ∉ ([0x2D, 0x22, 0x5B, 0x7B, 0x6E, 0x74, 0x66] : Bytes)) : b ≠ c := by
  rintro rfl
  cases v with
  | boolean value => cases value <;> cases h <;> exact absurd hc (by decide)
  | number digits =>
    rcases h with rfl | h
    · exact absurd hc (by decide)
    · exact ne_of_isDigit h hdigit rfl
  | null | text s | list vs | object ms =>
    cases h
    exact absurd hc (by decide)

theorem Value.Opens.not_blank (h : v.Opens b) : isBlank b = false := by
  have hne {c : UInt8} (hdigit : isDigit c = false)
      (hc : c ∉ ([0x2D, 0x22, 0x5B, 0x7B, 0x6E, 0x74, 0x66] : Bytes)) : (b == c) = false :=
    beq_false_of_ne (h.ne hdigit hc)
  simp only [isBlank, Bool.or_eq_false_iff]
  exact ⟨⟨⟨hne (by decide) (by decide), hne (by decide) (by decide)⟩,
    hne (by decide) (by decide)⟩, hne (by decide) (by decide)⟩

theorem skipBlanks_blank (h : Blank blank) (rest : Bytes) :
    skipBlanks (blank ++ rest) = skipBlanks rest :=
  List.dropWhile_append_of_pos h

/-- White space before a value. -/
theorem skipBlanks_value (hblank : Blank blank) (h : Spells (.value v) bs) (rest : Bytes) :
    skipBlanks (blank ++ (bs ++ rest)) = bs ++ rest := by
  obtain ⟨b, tail, rfl, hb⟩ := h.opening
  rw [skipBlanks_blank hblank, List.cons_append, skipBlanks_cons hb.not_blank]

/-! ## Where a number ends -/

/-- Nothing here goes on a number. -/
def Ends (bs : Bytes) : Prop :=
  ∀ b ∈ bs.head?, isDigit b = false ∧ b ≠ 0x2E ∧ isExponentMark b = false

theorem ends_cons (hdigit : isDigit b = false) (hpoint : b ≠ 0x2E)
    (hmark : isExponentMark b = false) (rest : Bytes) : Ends (b :: rest) := by
  intro c hc
  cases hc
  exact ⟨hdigit, hpoint, hmark⟩

/-- White space ends a number, and so does what may stand behind it. -/
theorem ends_blank (h : Blank blank) (hrest : Ends rest) : Ends (blank ++ rest) := by
  cases blank with
  | nil => exact hrest
  | cons b blank =>
    have hb := h b List.mem_cons_self
    simp only [isBlank, Bool.or_eq_true, beq_iff_eq] at hb
    rcases hb with ((rfl | rfl) | rfl) | rfl <;>
      exact ends_cons (by decide) (by decide) (by decide) _

theorem Gap.ends {gap : Bytes} (h : Gap false gap) (rest : Bytes) : Ends (gap ++ rest) := by
  cases h with
  | next hbefore hafter =>
    rw [List.append_assoc]
    exact ends_blank hbefore (ends_cons (by decide) (by decide) (by decide) _)

/-- What stands behind a part of a list cannot go on a number. -/
theorem Spells.ends_elements {vs : List Value} (h : Spells (.elements false vs) bs) (rest : Bytes) :
    Ends (bs ++ rest) := by
  cases h with
  | listEnd hblank =>
    rw [List.append_assoc]
    exact ends_blank hblank (ends_cons (by decide) (by decide) (by decide) _)
  | element hgap _ _ =>
    rw [List.append_assoc]
    exact hgap.ends _

/-- What stands behind a member of an object cannot either. -/
theorem Spells.ends_members {ms : List (String × Value)} (h : Spells (.members false ms) bs)
    (rest : Bytes) : Ends (bs ++ rest) := by
  cases h with
  | objectEnd hblank =>
    rw [List.append_assoc]
    exact ends_blank hblank (ends_cons (by decide) (by decide) (by decide) _)
  | member hgap _ _ _ _ _ =>
    rw [List.append_assoc]
    exact hgap.ends _

end CommandLink.Json
