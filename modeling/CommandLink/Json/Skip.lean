import CommandLink.Json.Number
/-!
# Skipping a JSON value

A value nobody asked for is read over. Its form is checked, nested to any depth, with the open
brackets on a stack.

Results:
* `Bracket.closing_ne`: the two closing brackets differ.
-/
namespace CommandLink.Json

inductive Bracket where
  | list
  | object
  deriving Repr, BEq, DecidableEq

def Bracket.closing : Bracket → UInt8
  | .list => 0x5D
  | .object => 0x7D

/-- The fault of a text that ends inside a bracket. -/
def Bracket.unended : Bracket → Fault
  | .list => .endInList
  | .object => .endInObject

/-- The fault of something that neither continues nor closes a bracket. -/
def Bracket.unseparated : Bracket → Fault
  | .list => .expectedCommaOrBracket
  | .object => .expectedCommaOrBrace

theorem Bracket.closing_ne : Bracket.list.closing ≠ Bracket.object.closing := by decide

/-- A key and its colon, read over. -/
def skipKey (bs : Bytes) : Except Stop Bytes :=
  match skipBlanks bs with
  | [] => .error (.atNext .endInObject [])
  | b :: rest =>
    if b = 0x22 then
      match skipString rest with
      | .error e => .error e
      | .ok rest =>
        match skipBlanks rest with
        | [] => .error (.atNext .endInObject [])
        | c :: rest' => if c = 0x3A then .ok rest' else .error (.atNext .expectedColon (c :: rest'))
    else .error (.atNext .keyNotString (b :: rest))

/-- The beginning of a value: a whole value without brackets, or an opening bracket. -/
def skipOpening (bs : Bytes) : Except Stop (Option Bracket × Bytes) :=
  match skipBlanks bs with
  | [] => .error (.atNext .endInValue [])
  | b :: rest =>
    if b = 0x6E then (word (ascii "ull") rest).map (none, ·)
    else if b = 0x74 then (word (ascii "rue") rest).map (none, ·)
    else if b = 0x66 then (word (ascii "alse") rest).map (none, ·)
    else if b = 0x2D then (skipNumber rest).map (none, ·)
    else if isDigit b then (skipNumber (b :: rest)).map (none, ·)
    else if b = 0x22 then (skipString rest).map (none, ·)
    else if b = 0x5B then .ok (some .list, rest)
    else if b = 0x7B then .ok (some .object, rest)
    else .error (.atNext .expectedValue (b :: rest))

/-- Where skipping stands: before a value, or inside the innermost bracket, where a comma is in
order only after a value. -/
inductive Place where
  | value
  | inside (commaAllowed : Bool)
  deriving Repr, BEq, DecidableEq

/-- Reads on until the outermost value has ended. `opened` holds the open brackets, innermost first. -/
def skipOn : Nat → Place → List Bracket → Bytes → Except Stop Bytes
  | 0, _, _, bs => .error (.here .endInValue bs)
  | fuel + 1, .value, opened, bs =>
    match skipOpening bs with
    | .error e => .error e
    | .ok (some b, rest) => skipOn fuel (.inside false) (b :: opened) rest
    | .ok (none, rest) =>
      match opened with
      | [] => .ok rest
      | _ => skipOn fuel (.inside true) opened rest
  | _ + 1, .inside _, [], bs => .ok bs
  | fuel + 1, .inside commaAllowed, b :: opened, bs =>
    let next (bs : Bytes) : Except Stop Bytes :=
      match b with
      | .list => .ok bs
      | .object => skipKey bs
    match skipBlanks bs with
    | [] => .error (.atNext b.unended [])
    | c :: rest =>
      if c = 0x2C ∧ commaAllowed = true then
        match next rest with
        | .error e => .error e
        | .ok rest => skipOn fuel .value (b :: opened) rest
      else if c = b.closing then
        match opened with
        | [] => .ok rest
        | _ => skipOn fuel (.inside true) opened rest
      else if commaAllowed then .error (.atNext b.unseparated (c :: rest))
      else
        match next (c :: rest) with
        | .error e => .error e
        | .ok rest => skipOn fuel .value (b :: opened) rest

/-- The rest behind one value of any kind. Each byte is good for at most two stages. -/
def skipValue (bs : Bytes) : Except Stop Bytes :=
  skipOn (2 * bs.length + 2) .value [] bs

end CommandLink.Json
