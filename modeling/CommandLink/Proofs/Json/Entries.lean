import CommandLink.Proofs.Json.Grammar
import CommandLink.Proofs.Json.Members
import Mathlib.Data.List.Forall2
/-!
# Tables as they stand in a text

A table of texts forgets how it was filled: members under one name become one entry, and the order is
that of the names. Here the members are read as they stand, one behind the other, and the reader of
tables gives what they make when they are set in that order. The same goes for a record with a table
among its fields. What is written of a record is an object, in one of its spellings.

Results:
* `table_texts`: a table is made of the members that stand in the text.
* `Schema.read_seen`: records of which one keeps more than the other are read alike.
* `spells_writeObject`: a written object spells its members.
-/
namespace CommandLink.Json

/-! ## What is read, seen otherwise -/

/-- What was read, with another view of the value. -/
def seen {α β : Type} (view : α → β) (x : Except Stop (α × Bytes)) : Except Stop (β × Bytes) :=
  x.map (Prod.map view id)

section Seen
variable {α β γ : Type} {view : α → β}

@[simp] theorem seen_ok (a : α) (rest : Bytes) : seen view (.ok (a, rest)) = .ok (view a, rest) := rfl

@[simp] theorem seen_error (s : Stop) : seen view (.error s) = .error s := rfl

theorem seen_bind (x : Except Stop (α × Bytes)) (f : β × Bytes → Except Stop (γ × Bytes)) :
    (seen view x >>= f) = x >>= fun p => f (view p.1, p.2) := by
  cases x <;> rfl

theorem bind_seen (x : Except Stop γ) (f : γ → Except Stop (α × Bytes)) :
    (x >>= fun c => seen view (f c)) = seen view (x >>= f) := by
  cases x <;> rfl

theorem enclosed_seen (b : Bracket) (x : Except Stop (α × Bytes)) :
    enclosed b (seen view x) = seen view (enclosed b x) := by
  rcases x with s | ⟨a, rest⟩
  · simp only [seen_error, enclosed]
    split <;> rfl
  · simp only [seen_ok, enclosed]
    split <;> rfl

end Seen

/-! ## The members of a table -/

/-- The members of an object of texts as they stand, behind those before. -/
def textsOnto : Nat → Bool → List (String × String) → Reader (List (String × String))
  | 0, _, es, bs => .ok (es, bs)
  | fuel + 1, first, es, bs => do
    match ← nextKey first bs with
    | (none, rest) => .ok (es, rest)
    | (some k, rest) =>
      let rest ← colon rest
      let (v, rest) ← text "a string" rest
      textsOnto fuel false (es ++ [(k, v)]) rest

/-- An object of texts, all its members in their order. -/
def texts : Reader (List (String × String)) := fun bs =>
  match skipBlanks bs with
  | [] => .error (.atNext .endInValue [])
  | b :: rest =>
    if b = 0x7B then enclosed .object (textsOnto (rest.length + 1) true [] rest)
    else .error (mismatch "a map" (b :: rest))

theorem ofList_concat (es : List (String × String)) (k v : String) :
    Table.ofList (es ++ [(k, v)]) = (Table.ofList es).insert k v := by
  rw [Table.ofList, List.foldl_append]
  rfl

theorem tableOnto_textsOnto (n : Nat) (first : Bool) (es : List (String × String)) (bs : Bytes) :
    tableOnto n first (Table.ofList es) bs = seen Table.ofList (textsOnto n first es bs) := by
  induction n generalizing first es bs with
  | zero => rfl
  | succ n ih =>
    rw [tableOnto, textsOnto, ← bind_seen]
    refine bind_congr fun p => ?_
    obtain ⟨key, rest⟩ := p
    cases key with
    | none => rfl
    | some k =>
      dsimp only
      rw [← bind_seen]
      refine bind_congr fun rest => ?_
      rw [← bind_seen]
      refine bind_congr fun p => ?_
      rw [← ofList_concat]
      exact ih false _ _

/-- A table is read as its members are, set one after another. -/
theorem table_texts (bs : Bytes) : table bs = seen Table.ofList (texts bs) := by
  rw [table, texts]
  cases skipBlanks bs with
  | nil => rfl
  | cons b rest =>
    dsimp only
    split
    · rw [← enclosed_seen, ← tableOnto_textsOnto]
      rfl
    · rfl

/-! ## Records of which one keeps more -/

section Records
variable {σ τ α β : Type}

/-- A field of a draft that keeps more, `fine`, is the same one in what the view leaves of it. -/
structure Field.Sees (view : τ → σ) (f : Field σ) (fine : Field τ) : Prop where
  name : f.name = fine.name
  optional : f.optional = fine.optional
  isSet : ∀ d, f.isSet (view d) = fine.isSet d
  read : ∀ d bs, f.read (view d) bs = seen view (fine.read d bs)

/-- A record whose drafts and values keep more, `fine`, is the same one in what the views leave. -/
structure Schema.Sees (view : τ → σ) (viewValue : β → α) (s : Schema σ α) (fine : Schema τ β) :
    Prop where
  name : s.name = fine.name
  start : s.start = view fine.start
  fields : List.Forall₂ (Field.Sees view) s.fields fine.fields
  finish : ∀ d, s.finish (view d) = (fine.finish d).map viewValue

namespace Schema
variable {view : τ → σ} {viewValue : β → α} {s : Schema σ α} {fine : Schema τ β}

theorem find?_sees {fs : List (Field σ)} {fines : List (Field τ)} {p : Field σ → Bool}
    {q : Field τ → Bool} (h : List.Forall₂ (Field.Sees view) fs fines)
    (hpq : ∀ f fine, f.Sees view fine → p f = q fine) :
    Option.Rel (Field.Sees view) (fs.find? p) (fines.find? q) := by
  induction h with
  | nil => exact .none
  | @cons f fine fs fines hf _ ih =>
    rw [List.find?_cons, List.find?_cons, hpq f fine hf]
    cases q fine with
    | true => exact .some hf
    | false => exact ih

theorem complete_seen (h : s.Sees view viewValue fine) (d : τ) (rest : Bytes) :
    s.complete (view d) rest = seen viewValue (fine.complete d rest) := by
  have hmissing : Option.Rel (Field.Sees view) (s.missing? (view d)) (fine.missing? d) :=
    find?_sees h.fields fun f fine hf => by rw [hf.optional, hf.isSet]
  rw [complete, complete, h.finish]
  generalize s.missing? (view d) = lacking at hmissing ⊢
  generalize fine.missing? d = lackingFine at hmissing ⊢
  cases hmissing with
  | some hf =>
    dsimp only
    rw [hf.name, seen_error]
  | none => cases fine.finish d <;> rfl

theorem members_seen (h : s.Sees view viewValue fine) (n : Nat) (first : Bool) (d : τ) (bs : Bytes) :
    s.members n first (view d) bs = seen view (fine.members n first d bs) := by
  induction n generalizing first d bs with
  | zero => rfl
  | succ n ih =>
    rw [members, members, ← bind_seen]
    refine bind_congr fun p => ?_
    obtain ⟨key, rest⟩ := p
    cases key with
    | none => rfl
    | some k =>
      have hfield : Option.Rel (Field.Sees view) (s.field? k) (fine.field? k) :=
        find?_sees h.fields fun f fine hf => by rw [hf.name]
      dsimp only
      generalize s.field? k = found at hfield ⊢
      generalize fine.field? k = foundFine at hfield ⊢
      cases hfield with
      | none =>
        dsimp only
        rw [← bind_seen]
        refine bind_congr fun rest => ?_
        rw [← bind_seen]
        exact bind_congr fun rest => ih false d rest
      | some hf =>
        dsimp only
        rw [hf.isSet, hf.name]
        split
        · rfl
        · rw [← bind_seen]
          refine bind_congr fun rest => ?_
          rw [hf.read, seen_bind, ← bind_seen]
          exact bind_congr fun p => ih false p.1 p.2

theorem elements_seen (h : s.Sees view viewValue fine) {fs : List (Field σ)}
    {fines : List (Field τ)} (hfs : List.Forall₂ (Field.Sees view) fs fines) (i : Nat) (d : τ)
    (bs : Bytes) : s.elements fs i (view d) bs = seen view (fine.elements fines i d bs) := by
  have hlength : s.wantedLength = fine.wantedLength := by
    rw [wantedLength, wantedLength, wanted, wanted, h.name, h.fields.length_eq]
  induction hfs generalizing i d bs with
  | nil => rfl
  | cons hf _ ih =>
    rw [elements, elements, ← bind_seen]
    refine bind_congr fun p => ?_
    obtain ⟨another, rest⟩ := p
    cases another with
    | true =>
      dsimp only
      rw [hf.read, seen_bind, ← bind_seen]
      exact bind_congr fun p => ih (i + 1) p.1 p.2
    | false =>
      dsimp only
      rw [hf.optional, hlength]
      split
      · exact ih i d rest
      · rfl

/-- Both are read alike, from any bytes, and the one shows what the view leaves of the other. -/
theorem read_seen (h : s.Sees view viewValue fine) (bs : Bytes) :
    s.read bs = seen viewValue (fine.read bs) := by
  have hcomplete (p : τ × Bytes) :
      s.complete (view p.1) p.2 = seen viewValue (fine.complete p.1 p.2) :=
    complete_seen h p.1 p.2
  rw [read, read]
  cases skipBlanks bs with
  | nil => rfl
  | cons b rest =>
    dsimp only
    split
    · rw [← enclosed_seen, h.start, members_seen h, seen_bind, ← bind_seen]
      exact congrArg (enclosed .object) (bind_congr hcomplete)
    · split
      · rw [← enclosed_seen, h.start, elements_seen h h.fields, seen_bind, ← bind_seen]
        exact congrArg (enclosed .list) (bind_congr hcomplete)
      · rw [wanted, wanted, h.name]
        rfl

end Schema

theorem parse_seen {r : Reader α} {fine : Reader β} {viewValue : β → α} {whole : Bytes}
    (h : r whole = seen viewValue (fine whole)) :
    parse r whole = (parse fine whole).map viewValue := by
  rw [parse, parse, h]
  rcases fine whole with s | ⟨b, rest⟩
  · rfl
  · simp only [seen_ok]
    split <;> rfl

end Records

/-! ## Written objects -/

/-- The members of an object whose values are written as they are spelled. -/
inductive Written : List (String × Value) → List (String × Bytes) → Prop
  | nil : Written [] []
  | cons {name : String} {v : Value} {bs : Bytes} {ms : List (String × Value)}
      {written : List (String × Bytes)} (head : Spells (.value v) bs) (tail : Written ms written) :
      Written ((name, v) :: ms) ((name, bs) :: written)

theorem spells_writeBehind {ms : List (String × Value)} {written : List (String × Bytes)}
    (h : Written ms written) : Spells (.members false ms) (writeBehind written ++ [0x7D]) := by
  induction h with
  | nil => exact .objectEnd .nil
  | @cons name v bs ms written head tail ih =>
    have hmember := Spells.member (.next .nil .nil) (spellsText_writeText name) .nil .nil head ih
    simpa only [writeBehind, List.flatMap_cons, writeMember, List.append_assoc, List.cons_append,
      List.nil_append] using hmember

/-- An object is written in one of its spellings. -/
theorem spells_writeObject {ms : List (String × Value)} {written : List (String × Bytes)}
    (h : Written ms written) : Spells (.value (.object ms)) (writeObject written) := by
  cases h with
  | nil => exact .object (.objectEnd .nil)
  | @cons name v bs ms written head tail =>
    have hmember := Spells.member (.first .nil) (spellsText_writeText name) .nil .nil head
      (spells_writeBehind tail)
    rw [← List.append_nil (writeObject _), writeObject_cons]
    simpa only [writeMember, List.append_assoc, List.cons_append, List.nil_append] using
      Spells.object hmember

theorem spells_writeTable (t : Table String) :
    Spells (.value (.object (t.entries.map fun e => (e.1, .text e.2)))) (writeTable t) := by
  refine spells_writeObject ?_
  induction t.entries with
  | nil => exact .nil
  | cons e es ih => exact .cons (.text (spellsText_writeText e.2)) ih

end CommandLink.Json
