import CommandLink.Text.Printable
/-!
# Quoted text

A text between double quotes, with everything escaped that would be invisible or ambiguous. It is
how a name or a value is shown inside a message.

Results:
* `escape_of_plain`: a printable character that is no quote or backslash and extends no grapheme
  stands for itself.
-/
namespace CommandLink.Text

/-- The digits of a number to base 16, in lower case. -/
def hexDigits (n : Nat) : List Char :=
  Nat.toDigits 16 n

/-- One character inside quotes: the usual short escapes, the code point of what cannot be shown
or would merge with its neighbour, and all else as it is. An apostrophe is left alone. -/
def escape (c : Char) : List Char :=
  if c = '\x00' then ['\\', '0']
  else if c = '\t' then ['\\', 't']
  else if c = '\n' then ['\\', 'n']
  else if c = '\r' then ['\\', 'r']
  else if c = '"' ∨ c = '\\' then ['\\', c]
  else if extendsGrapheme c || !isPrintable c then ['\\', 'u', '\x7b'] ++ hexDigits c.toNat ++ ['\x7d']
  else [c]

def quoted (s : String) : String :=
  String.ofList ('"' :: s.toList.flatMap escape ++ ['"'])

theorem escape_of_plain {c : Char} (hq : c ≠ '"') (hb : c ≠ '\\')
    (hp : isPrintable c = true) (hg : extendsGrapheme c = false)
    (hc : 0x20 ≤ c.toNat) : escape c = [c] := by
  have h0 : c ≠ '\x00' := by rintro rfl; exact absurd hc (by decide)
  have h1 : c ≠ '\t' := by rintro rfl; exact absurd hc (by decide)
  have h2 : c ≠ '\n' := by rintro rfl; exact absurd hc (by decide)
  have h3 : c ≠ '\r' := by rintro rfl; exact absurd hc (by decide)
  simp [escape, h0, h1, h2, h3, hq, hb, hp, hg]

end CommandLink.Text
