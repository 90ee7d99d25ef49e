import CommandLink.Text.Numeral
import CommandLink.Text.Quoted
import CommandLink.Text.Shortest
import CommandLink.Bytes
/-!
# Faults of a JSON text

What can be wrong with a JSON text, or with the value it holds when a value of some other shape is
wanted, and where. A position is the bytes read so far: its line is one more than the line feeds
among them, its column the bytes after the last of these.

Results:
* `Position.after_nil`, `Position.line_after_append`: positions start at line 1 and only move on.
-/
namespace CommandLink.Json

/-- A value as it is named when another one was wanted. -/
inductive Found where
  | null
  | boolean (b : Bool)
  | integer (n : Int)
  | fraction (x : Float)
  | text (s : String)
  | map
  | sequence
  deriving Repr, BEq

inductive Fault where
  | endInValue
  | endInList
  | endInObject
  | endInString
  | expectedValue
  | expectedIdent
  | expectedColon
  | expectedCommaOrBrace
  | expectedCommaOrBracket
  | keyNotString
  | trailingComma
  | trailingCharacters
  | badEscape
  | badNumber
  | numberOutOfRange
  | badCodePoint
  | loneSurrogate
  | shortSurrogate
  | controlCharacter
  | wrongType (found : Found) (wanted : String)
  | wrongValue (found : Found) (wanted : String)
  | wrongLength (length : Nat) (wanted : String)
  | missingField (name : String)
  | duplicateField (name : String)
  | unknownVariant (name : String) (known : List String)
  | refused (reason : String)
  deriving Repr, BEq

/-- When the digits of a fraction are written out with a point, and when with an exponent. -/
structure FractionFormat where
  /-- The least exponent of the first digit that is written out. -/
  least : Int
  /-- The greatest exponent of the first digit that is written out. -/
  greatest : Int

/-- Fractions from `10^-5` to below `10^16` are written out. -/
def fractionFormat : FractionFormat := ⟨-5, 15⟩

/-- Digits with a point after the first `n` of them, filled up with zeros. -/
def pointAfter (ds : List Char) (n : Int) : List Char :=
  if n ≤ 0 then '0' :: '.' :: List.replicate (-n).toNat '0' ++ ds
  else if ds.length ≤ n.toNat then ds ++ List.replicate (n.toNat - ds.length) '0' ++ ['.', '0']
  else ds.take n.toNat ++ '.' :: ds.drop n.toNat

/-- A fraction by its shortest digits; at least one digit stands after a written-out point. -/
def showFraction (x : Float) : String :=
  let (negative, m, q, lowest) := Text.Shortest.parts x
  let sign := if negative then ['-'] else []
  if m = 0 then String.ofList (sign ++ ['0', '.', '0'])
  else
    let d := Text.Shortest.shortest m q lowest
    let ds := Nat.toDigits 10 d.digits
    let e := d.exponent + ds.length - 1
    if fractionFormat.least ≤ e ∧ e ≤ fractionFormat.greatest then
      String.ofList (sign ++ pointAfter ds (e + 1))
    else
      let tail := match ds with
        | [d] => [d]
        | d :: rest => d :: '.' :: rest
        | [] => []
      let power := if e < 0 then '-' :: Nat.toDigits 10 (-e).toNat else '+' :: Nat.toDigits 10 e.toNat
      String.ofList (sign ++ tail ++ 'e' :: power)

/-- An integer in decimal digits, with a sign if it is negative. -/
def showInteger (n : Int) : String :=
  if n < 0 then "-" ++ Text.decimal n.natAbs else Text.decimal n.natAbs

def Found.describe : Found → String
  | .null => "null"
  | .boolean b => "boolean `" ++ (if b then "true" else "false") ++ "`"
  | .integer n => "integer `" ++ showInteger n ++ "`"
  | .fraction x => "floating point `" ++ showFraction x ++ "`"
  | .text s => "string " ++ Text.quoted s
  | .map => "map"
  | .sequence => "sequence"

/-- Names in backquotes: one alone, two with `or`, more as a list to choose from. -/
def choices : List String → String
  | [] => "there are no variants"
  | [a] => "expected `" ++ a ++ "`"
  | [a, b] => "expected `" ++ a ++ "` or `" ++ b ++ "`"
  | names => "expected one of " ++ String.intercalate ", " (names.map fun n => "`" ++ n ++ "`")

def Fault.message : Fault → String
  | .endInValue => "EOF while parsing a value"
  | .endInList => "EOF while parsing a list"
  | .endInObject => "EOF while parsing an object"
  | .endInString => "EOF while parsing a string"
  | .expectedValue => "expected value"
  | .expectedIdent => "expected ident"
  | .expectedColon => "expected `:`"
  | .expectedCommaOrBrace => "expected `,` or `\x7d`"
  | .expectedCommaOrBracket => "expected `,` or `]`"
  | .keyNotString => "key must be a string"
  | .trailingComma => "trailing comma"
  | .trailingCharacters => "trailing characters"
  | .badEscape => "invalid escape"
  | .badNumber => "invalid number"
  | .numberOutOfRange => "number out of range"
  | .badCodePoint => "invalid unicode code point"
  | .loneSurrogate => "lone leading surrogate in hex escape"
  | .shortSurrogate => "unexpected end of hex escape"
  | .controlCharacter => "control character (\\u0000-\\u001F) found while parsing a string"
  | .wrongType found wanted => "invalid type: " ++ found.describe ++ ", expected " ++ wanted
  | .wrongValue found wanted => "invalid value: " ++ found.describe ++ ", expected " ++ wanted
  | .wrongLength n wanted => "invalid length " ++ Text.decimal n ++ ", expected " ++ wanted
  | .missingField name => "missing field `" ++ name ++ "`"
  | .duplicateField name => "duplicate field `" ++ name ++ "`"
  | .unknownVariant name known => "unknown variant `" ++ name ++ "`, " ++ choices known
  | .refused reason => reason

/-- A place in a text, by lines from 1 and bytes since the start of the line. -/
structure Position where
  line : Nat
  column : Nat
  deriving Repr, BEq, DecidableEq

namespace Position

/-- The position one byte further on. -/
def advance (p : Position) (b : UInt8) : Position :=
  if b = 0x0A then ⟨p.line + 1, 0⟩ else ⟨p.line, p.column + 1⟩

/-- The position behind some bytes read from the start of a text. -/
def after (read : Bytes) : Position :=
  read.foldl advance ⟨1, 0⟩

theorem after_nil : after [] = ⟨1, 0⟩ := rfl

theorem line_after_append (a b : Bytes) : (after a).line ≤ (after (a ++ b)).line := by
  rw [after, after, List.foldl_append]
  generalize List.foldl advance ⟨1, 0⟩ a = p
  induction b generalizing p with
  | nil => exact Nat.le_refl _
  | cons c b ih =>
    refine Nat.le_trans ?_ (ih (advance p c))
    simp only [advance]
    split
    · exact Nat.le_succ _
    · exact Nat.le_refl _

end Position

/-- A fault of a text, at a position unless the text as a whole is meant. -/
structure Error where
  fault : Fault
  position : Option Position
  deriving Repr, BEq

def Error.message (e : Error) : String :=
  match e.position with
  | none => e.fault.message
  | some p => e.fault.message ++ " at line " ++ Text.decimal p.line ++ " column " ++ Text.decimal p.column

end CommandLink.Json
