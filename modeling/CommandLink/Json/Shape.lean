import CommandLink.Json.Skip
import CommandLink.Table
/-!
# Reading values of a wanted shape

Texts, numbers, tables of texts, variants and records, read where they are expected. A record may
be written as an object, where members nobody knows are skipped, or as the list of its fields in
order. When the inside of a bracket fails without a place, the closing bracket is still tried, and
the place is behind what that has read.

Results:
* `Schema.field?_name`: the field found under a name bears that name.
-/
namespace CommandLink.Json

/-- The stop at a value of another kind than wanted. The value is read as far as it takes to name
it, of a bracket nothing. -/
def mismatch (wanted : String) (bs : Bytes) : Stop :=
  let behind (found : Found) : Except Stop Bytes → Stop
    | .error s => s
    | .ok rest => .here (.wrongType found wanted) rest
  match bs with
  | [] => .atNext .expectedValue []
  | b :: rest =>
    if b = 0x6E then behind .null (word (ascii "ull") rest)
    else if b = 0x74 then behind (.boolean true) (word (ascii "rue") rest)
    else if b = 0x66 then behind (.boolean false) (word (ascii "alse") rest)
    else if b = 0x2D ∨ isDigit b then
      match number (b == 0x2D) (if b = 0x2D then rest else b :: rest) with
      | .error s => s
      | .ok (n, rest) => .here (.wrongType n.found wanted) rest
    else if b = 0x22 then
      match string rest with
      | .error s => s
      | .ok (s, rest) => .here (.wrongType (.text s) wanted) rest
    else if b = 0x5B then .here (.wrongType .sequence wanted) (b :: rest)
    else if b = 0x7B then .here (.wrongType .map wanted) (b :: rest)
    else .atNext .expectedValue (b :: rest)

/-- A text; `wanted` names it in a fault. -/
def text (wanted : String) : Reader String := fun bs =>
  match skipBlanks bs with
  | [] => .error (.atNext .endInValue [])
  | b :: rest => if b = 0x22 then string rest else .error (mismatch wanted (b :: rest))

/-- A text, or `null` for none. -/
def optionalText (wanted : String) : Reader (Option String) := fun bs =>
  match skipBlanks bs with
  | 0x6E :: rest => (word (ascii "ull") rest).map (none, ·)
  | bs => (text wanted bs).map fun (s, rest) => (some s, rest)

/-- A natural number of 64 bits. -/
def natural (wanted : String) : Reader Nat := fun bs =>
  match skipBlanks bs with
  | [] => .error (.atNext .endInValue [])
  | b :: rest =>
    if b = 0x2D ∨ isDigit b then
      match number (b == 0x2D) (if b = 0x2D then rest else b :: rest) with
      | .error s => .error s
      | .ok (.whole n, rest) => .ok (n, rest)
      | .ok (.negative n, rest) => .error (.here (.wrongValue (.integer (-n)) wanted) rest)
      | .ok (.fraction x, rest) => .error (.here (.wrongType (.fraction x) wanted) rest)
    else .error (mismatch wanted (b :: rest))

/-- The only value of its kind, written `null`. -/
def unit : Reader Unit := fun bs =>
  match skipBlanks bs with
  | [] => .error (.atNext .endInValue [])
  | b :: rest =>
    if b = 0x6E then (word (ascii "ull") rest).map ((), ·) else .error (mismatch "unit" (b :: rest))

/-- The name of a variant, looked up among the known ones. -/
def variantName {α : Type} (known : List (String × α)) (wanted : String) : Reader α := fun bs => do
  let (name, rest) ← text wanted bs
  match known.lookup name with
  | some a => .ok (a, rest)
  | none => .error (.here (.unknownVariant name (known.map Prod.fst)) rest)

/-- The colon behind a key. -/
def colon (bs : Bytes) : Except Stop Bytes :=
  match skipBlanks bs with
  | [] => .error (.atNext .endInObject [])
  | b :: rest => if b = 0x3A then .ok rest else .error (.atNext .expectedColon (b :: rest))

/-- The key that names a variant inside an object. An object without one lacks a value. -/
def variantKey {α : Type} (known : List (String × α)) : Reader α := fun bs =>
  match skipBlanks bs with
  | [] => .error (.atNext .endInObject [])
  | b :: rest =>
    if b = 0x22 then variantName known "variant identifier" (b :: rest)
    else if b = 0x7D then .error (.atNext .expectedValue (b :: rest))
    else .error (.atNext .keyNotString (b :: rest))

/-- A variant: its name alone, or an object that maps the name to `null`. -/
def variant {α : Type} (known : List (String × α)) : Reader α := fun bs =>
  match skipBlanks bs with
  | [] => .error (.atNext .endInValue [])
  | b :: rest =>
    if b = 0x22 then variantName known "variant identifier" (b :: rest)
    else if b = 0x7B then do
      let (a, rest) ← variantKey known rest
      let rest ← colon rest
      let ((), rest) ← unit rest
      match skipBlanks rest with
      | [] => .error (.here .endInObject [])
      | c :: rest' => if c = 0x7D then .ok (a, rest') else .error (.here .expectedValue (c :: rest'))
    else .error (.atNext .expectedValue (b :: rest))

/-- What the closing bracket comes to: a stop if it is not there, and what is left of the text in
either case. A list has its comma read first. -/
def close : Bracket → Bytes → Option Stop × Bytes
  | .object, bs =>
    match skipBlanks bs with
    | [] => (some (.atNext .endInObject []), [])
    | b :: rest =>
      if b = 0x7D then (none, rest)
      else if b = 0x2C then (some (.atNext .trailingComma (b :: rest)), b :: rest)
      else (some (.atNext .trailingCharacters (b :: rest)), b :: rest)
  | .list, bs =>
    match skipBlanks bs with
    | [] => (some (.atNext .endInList []), [])
    | b :: rest =>
      if b = 0x5D then (none, rest)
      else if b = 0x2C then
        match skipBlanks rest with
        | 0x5D :: rest' => (some (.atNext .trailingComma (0x5D :: rest')), 0x5D :: rest')
        | rest' => (some (.atNext .trailingCharacters rest'), rest')
      else (some (.atNext .trailingCharacters (b :: rest)), b :: rest)

/-- The inside of a bracket with the closing bracket behind it. -/
def enclosed {α : Type} (b : Bracket) : Except Stop (α × Bytes) → Except Stop (α × Bytes)
  | .ok (a, rest) =>
    match close b rest with
    | (none, rest) => .ok (a, rest)
    | (some s, _) => .error s
  | .error s => if s.placed then .error s else .error (.here s.fault (close b s.left).2)

/-- The next key of an object, if there is one, behind the comma that must precede all but the
first. -/
def nextKey (first : Bool) (bs : Bytes) : Except Stop (Option String × Bytes) :=
  let keyed : Bytes → Except Stop (Option String × Bytes)
    | rest => (string rest).map fun (k, rest) => (some k, rest)
  match skipBlanks bs with
  | [] => .error (.atNext .endInObject [])
  | b :: rest =>
    if b = 0x7D then .ok (none, b :: rest)
    else if first then
      if b = 0x22 then keyed rest else .error (.atNext .keyNotString (b :: rest))
    else if b = 0x2C then
      match skipBlanks rest with
      | [] => .error (.atNext .endInValue [])
      | c :: rest' =>
        if c = 0x22 then keyed rest'
        else if c = 0x7D then .error (.atNext .trailingComma (c :: rest'))
        else .error (.atNext .keyNotString (c :: rest'))
    else .error (.atNext .expectedCommaOrBrace (b :: rest))

/-- Whether a list has another element, and the bytes at which it starts. -/
def nextElement (first : Bool) (bs : Bytes) : Except Stop (Bool × Bytes) :=
  match skipBlanks bs with
  | [] => .error (.atNext .endInList [])
  | b :: rest =>
    if b = 0x5D then .ok (false, b :: rest)
    else if first then .ok (true, b :: rest)
    else if b = 0x2C then
      match skipBlanks rest with
      | [] => .error (.atNext .endInValue [])
      | c :: rest' =>
        if c = 0x5D then .error (.atNext .trailingComma (c :: rest')) else .ok (true, c :: rest')
    else .error (.atNext .expectedCommaOrBracket (b :: rest))

/-- The members of an object of texts, onto those before. -/
def tableOnto : Nat → Bool → Table String → Reader (Table String)
  | 0, _, t, bs => .ok (t, bs)
  | fuel + 1, first, t, bs => do
    match ← nextKey first bs with
    | (none, rest) => .ok (t, rest)
    | (some k, rest) =>
      let rest ← colon rest
      let (v, rest) ← text "a string" rest
      tableOnto fuel false (t.insert k v) rest

/-- An object of texts. Of members with one key the last counts. -/
def table : Reader (Table String) := fun bs =>
  match skipBlanks bs with
  | [] => .error (.atNext .endInValue [])
  | b :: rest =>
    if b = 0x7B then enclosed .object (tableOnto (rest.length + 1) true .empty rest)
    else .error (mismatch "a map" (b :: rest))

/-- A field of a record that is read into a draft `σ`. -/
structure Field (σ : Type) where
  name : String
  /-- Whether the record does without it. -/
  optional : Bool
  isSet : σ → Bool
  read : σ → Reader σ

/-- A record: its fields in order, and how a draft of them becomes a value. -/
structure Schema (σ α : Type) where
  name : String
  start : σ
  fields : List (Field σ)
  finish : σ → Option α

namespace Schema
variable {σ α : Type}

def field? (s : Schema σ α) (name : String) : Option (Field σ) :=
  s.fields.find? fun f => f.name == name

theorem field?_name {s : Schema σ α} {name : String} {f : Field σ} (h : s.field? name = some f) :
    f.name = name := by
  simpa using List.find?_some h

/-- The record's name in a fault. -/
def wanted (s : Schema σ α) : String := "struct " ++ s.name

/-- The number of fields a list form can have, as a fault tells it. -/
def wantedLength (s : Schema σ α) : String :=
  s.wanted ++ " with " ++ Text.decimal s.fields.length
    ++ (if s.fields.length = 1 then " element" else " elements")

/-- The first field that the record cannot do without and that is not set. -/
def missing? (s : Schema σ α) (d : σ) : Option (Field σ) :=
  s.fields.find? fun f => !f.optional && !f.isSet d

/-- The value of a draft, unless a field is missing. -/
def complete (s : Schema σ α) (d : σ) (rest : Bytes) : Except Stop (α × Bytes) :=
  match s.missing? d, s.finish d with
  | some f, _ => .error (.pending (.missingField f.name) rest)
  | none, some a => .ok (a, rest)
  | none, none => .error (.pending .expectedValue rest)

/-- The members of an object, in any order; a field may come only once. -/
def members (s : Schema σ α) : Nat → Bool → σ → Reader σ
  | 0, _, d, bs => .ok (d, bs)
  | fuel + 1, first, d, bs => do
    match ← nextKey first bs with
    | (none, rest) => .ok (d, rest)
    | (some k, rest) =>
      match s.field? k with
      | some f =>
        if f.isSet d then .error (.pending (.duplicateField f.name) rest)
        else
          let rest ← colon rest
          let (d, rest) ← f.read d rest
          members s fuel false d rest
      | none =>
        let rest ← colon rest
        let rest ← skipValue rest
        members s fuel false d rest

/-- The elements of a list, one for each field in order; optional fields may be left out at the
end. -/
def elements (s : Schema σ α) : List (Field σ) → Nat → σ → Reader σ
  | [], _, d, bs => .ok (d, bs)
  | f :: fs, index, d, bs => do
    match ← nextElement (index == 0) bs with
    | (true, rest) =>
      let (d, rest) ← f.read d rest
      elements s fs (index + 1) d rest
    | (false, rest) =>
      if f.optional then elements s fs index d rest
      else .error (.pending (.wrongLength index s.wantedLength) rest)

/-- Reads a record in either form. -/
def read (s : Schema σ α) : Reader α := fun bs =>
  match skipBlanks bs with
  | [] => .error (.atNext .endInValue [])
  | b :: rest =>
    if b = 0x7B then
      enclosed .object (do
        let (d, rest) ← s.members (rest.length + 1) true s.start rest
        s.complete d rest)
    else if b = 0x5B then
      enclosed .list (do
        let (d, rest) ← s.elements s.fields 0 s.start rest
        s.complete d rest)
    else .error (mismatch s.wanted (b :: rest))

end Schema

/-- The error of a stop: its place is what of the whole text was read. -/
def Stop.error (s : Stop) (whole : Bytes) : Error :=
  ⟨s.fault,
    if s.placed then some (Position.after (whole.take (whole.length - s.left.length))) else none⟩

/-- Reads a whole text: one value, and nothing but blanks behind it. -/
def parse {α : Type} (r : Reader α) (whole : Bytes) : Except Error α :=
  match r whole with
  | .error s => .error (s.error whole)
  | .ok (a, rest) =>
    match skipBlanks rest with
    | [] => .ok a
    | rest => .error ((Stop.atNext .trailingCharacters rest).error whole)

end CommandLink.Json
