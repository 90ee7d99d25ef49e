import CommandLink.Proofs.Json.Entries
import CommandLink.Proofs.Json.Skipping
/-!
# What readers make of a spelled value

A reader that wants a certain shape gives the same for every spelling of a value, and fails for every
spelling of a value of another shape. What a value means to a reader is said of the value alone.

Results:
* `text_takes`, `table_takes`, `variant_takes`: texts, tables of texts and variants.
* `members_takes`: the members of a record, in the order in which they stand.
* `parse_takes`: a whole text.
-/
namespace CommandLink.Json

/-- Reading gives what is meant and goes on behind it, or fails if nothing is meant. -/
def Yields {α : Type} (x : Except Stop (α × Bytes)) (meant : Option α) (rest : Bytes) : Prop :=
  match meant with
  | some a => x = .ok (a, rest)
  | none => ∃ stop, x = .error stop

/-- A reader takes each value for what it means, however it is spelled. -/
def Takes {α : Type} (r : Reader α) (meaning : Value → Option α) : Prop :=
  ∀ v bs, Spells (.value v) bs → ∀ blank rest, Blank blank → Ends rest →
    Yields (r (blank ++ (bs ++ rest))) (meaning v) rest

section Yields
variable {α β : Type} {x : Except Stop (α × Bytes)} {f : α × Bytes → Except Stop (β × Bytes)}
  {meant : Option α} {rest rest' : Bytes}

theorem Yields.bind {g : α → Option β} (h : Yields x meant rest)
    (hf : ∀ a, Yields (f (a, rest)) (g a) rest') : Yields (x >>= f) (meant.bind g) rest' := by
  cases meant with
  | some a =>
    cases h
    exact hf a
  | none =>
    obtain ⟨stop, rfl⟩ := h
    exact ⟨stop, rfl⟩

theorem Yields.map (h : Yields x meant rest) (g : α → β) :
    Yields (x >>= fun p => .ok (g p.1, p.2)) (meant.map g) rest := by
  cases meant with
  | some a =>
    cases h
    rfl
  | none =>
    obtain ⟨stop, rfl⟩ := h
    exact ⟨stop, rfl⟩

theorem Yields.seen (h : Yields x meant rest) (view : α → β) :
    Yields (seen view x) (meant.map view) rest := by
  cases meant with
  | some a =>
    cases h
    rfl
  | none =>
    obtain ⟨stop, rfl⟩ := h
    exact ⟨stop, rfl⟩

theorem Yields.fails {stop : Stop} (h : x = .error stop) : Yields x none rest := ⟨stop, h⟩

/-- Behind what was read of an object stands its closing brace. -/
theorem Yields.enclosed (h : Yields x meant (0x7D :: rest)) :
    Yields (enclosed .object x) meant rest := by
  cases meant with
  | some a =>
    cases h
    show Json.enclosed .object (.ok (a, 0x7D :: rest)) = .ok (a, rest)
    rw [Json.enclosed, close_brace]
  | none =>
    obtain ⟨stop, rfl⟩ := h
    rw [Json.enclosed]
    split <;> exact ⟨_, rfl⟩

end Yields

variable {v : Value} {bs blank gap key rest : Bytes} {b : UInt8} {first : Bool} {name : String}

/-- Some values begin with a byte of their own. -/
theorem Value.Opens.kind (h : v.Opens b) : (b = 0x22 → ∃ s, v = .text s)
    ∧ (b = 0x7B → ∃ ms, v = .object ms) ∧ (b = 0x6E → v = .null) := by
  cases v with
  | boolean value => cases value <;> cases h <;> exact ⟨nofun, nofun, nofun⟩
  | number digits =>
    rcases h with rfl | h
    · exact ⟨nofun, nofun, nofun⟩
    · exact ⟨fun hb => absurd hb (ne_of_isDigit h (by decide)),
        fun hb => absurd hb (ne_of_isDigit h (by decide)),
        fun hb => absurd hb (ne_of_isDigit h (by decide))⟩
  | null => cases h; exact ⟨nofun, nofun, fun _ => rfl⟩
  | text s => cases h; exact ⟨fun _ => ⟨s, rfl⟩, nofun, nofun⟩
  | list vs => cases h; exact ⟨nofun, nofun, nofun⟩
  | object ms => cases h; exact ⟨nofun, fun _ => ⟨ms, rfl⟩, nofun⟩

/-! ## Texts -/

/-- A value as a text. -/
def Value.text? : Value → Option String
  | text s => some s
  | _ => none

theorem text_spelled {s : String} (wanted : String) (hblank : Blank blank) (h : SpellsText s bs)
    (rest : Bytes) : text wanted (blank ++ (bs ++ rest)) = .ok (s, rest) := by
  rw [text, skipBlanks_value hblank (.text h)]
  obtain ⟨inner, rfl, hread⟩ := h.read
  exact (hread rest).1

theorem text_takes (wanted : String) : Takes (text wanted) Value.text? := by
  intro v bs h blank rest hblank _
  obtain ⟨b, tail, rfl, hb⟩ := h.opening
  by_cases hquote : b = 0x22
  · obtain ⟨s, rfl⟩ := hb.kind.1 hquote
    cases h with
    | text h => exact text_spelled wanted hblank h rest
  · rw [text, skipBlanks_value hblank h]
    have hother : v.text? = none := by
      cases v with
      | text s => exact absurd hb hquote
      | null | boolean _ | number _ | list _ | object _ => rfl
    rw [hother, List.cons_append]
    exact .fails (if_neg hquote)

/-! ## Members -/

theorem nextKey_member (hgap : Gap first gap) (hkey : SpellsText name key) (rest : Bytes) :
    nextKey first (gap ++ (key ++ rest)) = .ok (some name, rest) := by
  obtain ⟨inner, rfl, hread⟩ := hkey.read
  have hname := (hread rest).1
  have hquote (tail : Bytes) : skipBlanks (0x22 :: tail) = 0x22 :: tail :=
    skipBlanks_cons (by decide) tail
  have hcomma (tail : Bytes) : skipBlanks (0x2C :: tail) = 0x2C :: tail :=
    skipBlanks_cons (by decide) tail
  cases hgap with
  | first hgap =>
    rw [nextKey, skipBlanks_blank hgap, List.cons_append, hquote]
    dsimp only
    rw [if_neg (by decide), if_pos rfl, if_pos rfl, hname]
    rfl
  | next hbefore hafter =>
    rw [nextKey, List.append_assoc, List.cons_append, skipBlanks_blank hbefore, hcomma]
    dsimp only
    rw [if_neg (by decide), if_neg (by decide), if_pos rfl, skipBlanks_blank hafter,
      List.cons_append, hquote]
    dsimp only
    rw [if_pos rfl, hname]
    rfl

theorem nextKey_closing (first : Bool) (hblank : Blank blank) (rest : Bytes) :
    nextKey first (blank ++ 0x7D :: rest) = .ok (none, 0x7D :: rest) := by
  rw [nextKey, skipBlanks_blank hblank, ← nextKey_end first rest, nextKey]

theorem colon_spelled (hblank : Blank blank) (rest : Bytes) :
    colon (blank ++ 0x3A :: rest) = .ok rest := by
  rw [colon, skipBlanks_blank hblank, ← colon_colon rest, colon]

/-! ## Tables of texts -/

/-- Members as texts under names, if all of them are texts. -/
def textsOf (ms : List (String × Value)) : Option (List (String × String)) :=
  ms.mapM fun m => m.2.text?.map fun s => (m.1, s)

/-- A value as a table of texts: an object of texts, of which the last under a name counts. -/
def Value.table? : Value → Option (Table String)
  | object ms => (textsOf ms).map Table.ofList
  | _ => none

theorem textsOf_cons (name : String) (v : Value) (ms : List (String × Value)) :
    textsOf ((name, v) :: ms)
      = v.text?.bind fun s => (textsOf ms).map fun es => (name, s) :: es := by
  rw [textsOf, List.mapM_cons]
  cases v.text? with
  | none => rfl
  | some s =>
    show ((textsOf ms).bind fun es => some ((name, s) :: es)) = _
    cases textsOf ms <;> rfl

/-- A value as the members of an object of texts, in their order. -/
def Value.texts? : Value → Option (List (String × String))
  | object ms => textsOf ms
  | _ => none

theorem Value.table?_eq_map (v : Value) : v.table? = v.texts?.map Table.ofList := by
  cases v <;> rfl

theorem textsOnto_takes {ms : List (String × Value)} (h : Spells (.members first ms) bs) {n : Nat}
    (hn : ms.length < n) (before : List (String × String)) (rest : Bytes) :
    Yields (textsOnto n first before (bs ++ rest)) ((textsOf ms).map fun es => before ++ es)
      (0x7D :: rest) := by
  induction ms generalizing first bs n before with
  | nil =>
    obtain ⟨n, rfl⟩ : ∃ m, n = m + 1 := ⟨n - 1, by rw [List.length_nil] at hn; omega⟩
    cases h with
    | objectEnd hblank =>
      rw [List.append_assoc, List.singleton_append, textsOnto, nextKey_closing first hblank]
      exact congrArg (fun es => Except.ok (es, 0x7D :: rest)) (List.append_nil before).symm
  | cons m ms ih =>
    obtain ⟨n, rfl⟩ : ∃ m, n = m + 1 := ⟨n - 1, by rw [List.length_cons] at hn; omega⟩
    cases h with
    | @member _ gap key blank blank' vs tail name v _ hgap hkey hblank hblank' hv hrest =>
      have hvalue := text_takes "a string" v vs hv blank' (tail ++ rest) hblank'
        (hrest.ends_members rest)
      rw [textsOf_cons, Option.map_bind]
      simp only [List.append_assoc, List.cons_append, textsOnto, nextKey_member hgap hkey,
        colon_spelled hblank, bind, Except.bind]
      refine hvalue.bind fun s => ?_
      have htail := ih hrest (n := n) (by rw [List.length_cons] at hn; omega) (before ++ [(name, s)])
      rw [Function.comp_apply, Option.map_map]
      simpa only [Function.comp_def, List.append_assoc, List.singleton_append] using htail

theorem length_members_le {ms : List (String × Value)} (h : Spells (.members first ms) bs) :
    ms.length ≤ bs.length := by
  induction ms generalizing first bs with
  | nil => exact Nat.zero_le _
  | cons m ms ih =>
    cases h with
    | member hgap hkey hbefore hafter hv hrest =>
      have := ih hrest
      simp only [List.length_append, List.length_cons]
      omega

theorem texts_takes : Takes texts Value.texts? := by
  intro v bs h blank rest hblank _
  rw [texts, skipBlanks_value hblank h]
  obtain ⟨b, tail, rfl, hb⟩ := h.opening
  by_cases hbrace : b = 0x7B
  · obtain ⟨ms, rfl⟩ := hb.kind.2.1 hbrace
    cases h with
    | object h =>
      have hlen := length_members_le h
      have hmembers := textsOnto_takes h (n := (tail ++ rest).length + 1)
        (by rw [List.length_append]; omega) [] rest
      simp only [List.nil_append, Option.map_id'] at hmembers
      rw [List.cons_append]
      dsimp only
      rw [if_pos rfl]
      exact hmembers.enclosed
  · have hother : v.texts? = none := by
      cases v with
      | object ms => exact absurd hb hbrace
      | null | boolean _ | number _ | list _ | text _ => rfl
    rw [hother, List.cons_append]
    exact .fails (if_neg hbrace)

theorem table_takes : Takes table Value.table? := by
  intro v bs h blank rest hblank hrest
  rw [table_texts, v.table?_eq_map]
  exact (texts_takes v bs h blank rest hblank hrest).seen Table.ofList

/-! ## Variants -/

/-- A value as a variant: its name, or an object of nothing but the name, mapped to `null`. -/
def Value.variant? {α : Type} (known : List (String × α)) : Value → Option α
  | text name => known.lookup name
  | object [(name, null)] => known.lookup name
  | _ => none

/-- A value as the only one of its kind. -/
def Value.unit? : Value → Option Unit
  | null => some ()
  | _ => none

theorem unit_takes : Takes unit Value.unit? := by
  intro v bs h blank rest hblank _
  rw [unit, skipBlanks_value hblank h]
  obtain ⟨b, tail, rfl, hb⟩ := h.opening
  by_cases hnull : b = 0x6E
  · cases hb.kind.2.2 hnull
    cases h with
    | wordNull =>
      exact congrArg (Except.map fun rest => ((), rest)) (word_self (ascii "ull") rest)
  · cases v with
    | null => exact absurd hb hnull
    | boolean _ | number _ | list _ | text _ | object _ => exact .fails (if_neg hnull)

theorem variantName_spelled {α : Type} (known : List (String × α)) (wanted : String)
    (h : SpellsText name key) (rest : Bytes) :
    Yields (variantName known wanted (key ++ rest)) (known.lookup name) rest := by
  have htext : text wanted (key ++ rest) = .ok (name, rest) :=
    text_spelled wanted .nil h rest
  unfold variantName
  rw [htext]
  dsimp only [bind, Except.bind]
  cases known.lookup name with
  | none => exact ⟨_, rfl⟩
  | some a => rfl

theorem variantKey_spelled {α : Type} (known : List (String × α)) (hblank : Blank blank)
    (h : SpellsText name key) (rest : Bytes) :
    Yields (variantKey known (blank ++ (key ++ rest))) (known.lookup name) rest := by
  have hname := variantName_spelled known "variant identifier" h rest
  rw [variantKey, skipBlanks_value hblank (.text h)]
  obtain ⟨inner, rfl, -⟩ := h.read
  rw [List.cons_append] at hname ⊢
  dsimp only
  rwa [if_pos rfl]

/-- What an object with a member first means as a variant. -/
theorem variant?_member {α : Type} (known : List (String × α)) (name : String) (v : Value)
    (ms : List (String × Value)) : Value.variant? known (.object ((name, v) :: ms))
      = (known.lookup name).bind fun a => v.unit?.bind fun _ =>
        if ms = [] then some a else none := by
  cases ms with
  | nil => cases v <;> cases hname : known.lookup name <;> simp [Value.variant?, Value.unit?, hname]
  | cons m ms => cases v <;> cases known.lookup name <;> rfl

theorem variantObject_takes {α : Type} (known : List (String × α)) {ms : List (String × Value)}
    (h : Spells (.members true ms) bs) (rest : Bytes) :
    Yields (do
      let (a, rest) ← variantKey known (bs ++ rest)
      let rest ← colon rest
      let ((), rest) ← unit rest
      match skipBlanks rest with
      | [] => .error (.here .endInObject [])
      | c :: rest' => if c = 0x7D then .ok (a, rest') else .error (.here .expectedValue (c :: rest')))
      (Value.variant? known (.object ms)) rest := by
  cases h with
  | objectEnd hblank =>
    rw [List.append_assoc, variantKey, skipBlanks_blank hblank]
    exact ⟨_, rfl⟩
  | @member _ gap key before after vs tail name v ms hgap hkey hbefore hafter hv hrest =>
    cases hgap with
    | first hgap =>
      simp only [List.append_assoc, List.cons_append]
      rw [variant?_member]
      refine (variantKey_spelled known hgap hkey _).bind fun a => ?_
      rw [colon_spelled hbefore]
      refine (unit_takes v vs hv after (tail ++ rest) hafter (hrest.ends_members rest)).bind fun _ => ?_
      cases hrest with
      | objectEnd hblank =>
        rw [List.append_assoc, skipBlanks_blank hblank]
        rfl
      | member hgap _ _ _ _ _ =>
        cases hgap with
        | next hbefore hafter =>
          rw [List.append_assoc, List.append_assoc, skipBlanks_blank hbefore, List.cons_append,
            skipBlanks_cons (by decide)]
          exact ⟨_, rfl⟩

theorem variant_takes {α : Type} (known : List (String × α)) :
    Takes (variant known) (Value.variant? known) := by
  intro v bs h blank rest hblank _
  rw [variant, skipBlanks_value hblank h]
  obtain ⟨b, tail, rfl, hb⟩ := h.opening
  by_cases hquote : b = 0x22
  · obtain ⟨s, rfl⟩ := hb.kind.1 hquote
    cases h with
    | text h =>
      rw [List.cons_append]
      dsimp only
      rw [if_pos hquote]
      exact variantName_spelled known "variant identifier" h rest
  · by_cases hbrace : b = 0x7B
    · obtain ⟨ms, rfl⟩ := hb.kind.2.1 hbrace
      cases h with
      | object h =>
        rw [List.cons_append]
        dsimp only
        rw [if_neg hquote, if_pos rfl]
        exact variantObject_takes known h rest
    · have hother : v.variant? known = none := by
        cases v with
        | text s => exact absurd hb hquote
        | object ms => exact absurd hb hbrace
        | null | boolean _ | number _ | list _ => rfl
      rw [hother, List.cons_append]
      dsimp only
      rw [if_neg hquote, if_neg hbrace]
      exact ⟨_, rfl⟩

/-! ## Records -/

namespace Schema
variable {σ α : Type} {s : Schema σ α} {d : σ} {meaning : String → σ → Value → Option σ}

/-- What becomes of a draft by one member: a field takes it, unless it is set already, and a member that
is no field changes nothing. -/
def take (s : Schema σ α) (meaning : String → σ → Value → Option σ) (d : σ) (m : String × Value) :
    Option σ :=
  match s.field? m.1 with
  | none => some d
  | some f => if f.isSet d then none else meaning f.name d m.2

theorem members_takes (hfields : ∀ f ∈ s.fields, ∀ d, Takes (f.read d) (meaning f.name d))
    {ms : List (String × Value)} (h : Spells (.members first ms) bs) {n : Nat} (hn : ms.length < n)
    (d : σ) (rest : Bytes) :
    Yields (s.members n first d (bs ++ rest)) (ms.foldlM (s.take meaning) d) (0x7D :: rest) := by
  induction ms generalizing first bs n d with
  | nil =>
    obtain ⟨n, rfl⟩ : ∃ m, n = m + 1 := ⟨n - 1, by rw [List.length_nil] at hn; omega⟩
    cases h with
    | objectEnd hblank =>
      rw [List.append_assoc, List.singleton_append, members, nextKey_closing first hblank]
      rfl
  | cons m ms ih =>
    obtain ⟨n, rfl⟩ : ∃ m, n = m + 1 := ⟨n - 1, by rw [List.length_cons] at hn; omega⟩
    cases h with
    | @member _ gap key before after vs tail name v _ hgap hkey hbefore hafter hv hrest =>
      have hends := hrest.ends_members rest
      have hothers (d : σ) := ih hrest (n := n) (by rw [List.length_cons] at hn; omega) d
      simp only [List.append_assoc, List.cons_append, members, nextKey_member hgap hkey, bind,
        Except.bind, List.foldlM_cons, take]
      cases hfield : s.field? name with
      | none =>
        simp only [colon_spelled hbefore, skipValue_spelled hafter hv hends]
        exact hothers d
      | some f =>
        dsimp only
        by_cases hset : f.isSet d = true
        · rw [if_pos hset, if_pos hset]
          exact ⟨_, rfl⟩
        · rw [if_neg hset, if_neg hset]
          simp only [colon_spelled hbefore]
          have hmem : f ∈ s.fields := List.mem_of_find?_eq_some hfield
          exact (hfields f hmem d v vs hv after (tail ++ rest) hafter hends).bind hothers

/-- A record that is written as an object. -/
theorem read_takes (hfields : ∀ f ∈ s.fields, ∀ d, Takes (f.read d) (meaning f.name d))
    (hcomplete : ∀ d rest, Yields (s.complete d rest) (s.finish d) rest) {ms : List (String × Value)}
    (h : Spells (.value (.object ms)) bs) (hblank : Blank blank) (rest : Bytes) :
    Yields (s.read (blank ++ (bs ++ rest)))
      ((ms.foldlM (s.take meaning) s.start).bind s.finish) rest := by
  rw [read, skipBlanks_value hblank h]
  cases h with
  | @object _ inner h =>
    have hlen := length_members_le h
    rw [List.cons_append]
    dsimp only
    rw [if_pos rfl]
    refine Yields.enclosed ?_
    exact (members_takes hfields h (by rw [List.length_append]; omega) s.start rest).bind
      fun d => hcomplete d (0x7D :: rest)

end Schema

/-! ## Whole texts -/

/-- A text that holds one value, with white space around it. -/
def Holds (whole : Bytes) (v : Value) : Prop :=
  ∃ before bs after, Blank before ∧ Spells (.value v) bs ∧ Blank after
    ∧ whole = before ++ (bs ++ after)

theorem parse_yields {α : Type} {r : Reader α} {whole : Bytes} {meant : Option α}
    (h : Yields (r whole) meant blank) (hblank : Blank blank) (a : α) :
    parse r whole = .ok a ↔ meant = some a := by
  cases meant with
  | none =>
    obtain ⟨stop, hstop⟩ := h
    rw [parse, hstop]
    constructor
    · intro h
      cases h
    · intro h
      cases h
  | some b =>
    have hrest : skipBlanks blank = [] := by
      rw [← List.append_nil blank, skipBlanks_blank hblank]
      rfl
    have hread : r whole = .ok (b, blank) := h
    rw [parse, hread]
    dsimp only
    rw [hrest]
    simp only [Except.ok.injEq, Option.some.injEq]

theorem parse_takes {α : Type} {r : Reader α} {meaning : Value → Option α} (hr : Takes r meaning)
    {whole : Bytes} {v : Value} (h : Holds whole v) (a : α) :
    parse r whole = .ok a ↔ meaning v = some a := by
  obtain ⟨before, bs, after, hbefore, hspells, hafter, rfl⟩ := h
  have hends : Ends after := by
    rw [← List.append_nil after]
    exact ends_blank hafter nofun
  exact parse_yields (hr v bs hspells before after hbefore hends) hafter a

end CommandLink.Json
