import CommandLink.Table
import CommandLink.Text.Utf8
/-!
# Written JSON

The one form in which JSON is written: without blanks, members in the order given, and in strings
only quotes, backslashes and control characters escaped, the latter by their letter where they have
one.

Results:
* `writeChar_plain`: a character that needs no escape is written as its own UTF-8 bytes.
-/
namespace CommandLink.Json

/-- A digit to base 16, in lower case. -/
def hexDigit (n : Nat) : UInt8 :=
  if n < 10 then UInt8.ofNat (0x30 + n) else UInt8.ofNat (0x61 + (n - 10))

/-- The bytes of one character inside a string. -/
def writeChar (c : Char) : Bytes :=
  if c = '"' then [0x5C, 0x22]
  else if c = '\\' then [0x5C, 0x5C]
  else if c = '\x08' then [0x5C, 0x62]
  else if c = '\t' then [0x5C, 0x74]
  else if c = '\n' then [0x5C, 0x6E]
  else if c = '\x0c' then [0x5C, 0x66]
  else if c = '\r' then [0x5C, 0x72]
  else if c.toNat < 0x20 then
    [0x5C, 0x75, 0x30, 0x30, hexDigit (c.toNat / 16), hexDigit (c.toNat % 16)]
  else String.utf8EncodeChar c

def writeText (s : String) : Bytes :=
  0x22 :: s.toList.flatMap writeChar ++ [0x22]

/-- Parts with commas between them. -/
def commaSeparated : List Bytes → Bytes
  | [] => []
  | [p] => p
  | p :: ps => p ++ 0x2C :: commaSeparated ps

/-- An object of members with written values. -/
def writeObject (members : List (String × Bytes)) : Bytes :=
  0x7B :: commaSeparated (members.map fun m => writeText m.1 ++ 0x3A :: m.2) ++ [0x7D]

def writeTable (t : Table String) : Bytes :=
  writeObject (t.entries.map fun e => (e.1, writeText e.2))

theorem writeChar_plain {c : Char} (hq : c ≠ '"') (hb : c ≠ '\\') (hc : 0x20 ≤ c.toNat) :
    writeChar c = String.utf8EncodeChar c := by
  have h1 : c ≠ '\x08' := by rintro rfl; exact absurd hc (by decide)
  have h2 : c ≠ '\t' := by rintro rfl; exact absurd hc (by decide)
  have h3 : c ≠ '\n' := by rintro rfl; exact absurd hc (by decide)
  have h4 : c ≠ '\x0c' := by rintro rfl; exact absurd hc (by decide)
  have h5 : c ≠ '\r' := by rintro rfl; exact absurd hc (by decide)
  simp [writeChar, hq, hb, h1, h2, h3, h4, h5, Nat.not_lt.2 hc]

end CommandLink.Json
