import CommandLink.Json.Fault
import CommandLink.Text.Utf8
/-!
# Lexemes of JSON

White space, fixed words and strings, each read off the front of the bytes that remain. A reader
gives its value and the rest, or stops. A stop remembers which bytes were left, from which the
position in the text follows.

Results:
* `hex4_length`, `lowHalf_length`, `escape_length`: how much an escape uses up, at least one byte, so
  that reading a string ends.
-/
namespace CommandLink.Json

/-- Why reading stopped, and the bytes left behind the place to blame. A fault that is not yet
`placed` gets its place when the value around it is given up. -/
structure Stop where
  fault : Fault
  left : Bytes
  placed : Bool
  deriving Repr, BEq

/-- Reading a value off the front of some bytes. -/
abbrev Reader (α : Type) := Bytes → Except Stop (α × Bytes)

/-- A fault behind the bytes read so far. -/
def Stop.here (f : Fault) (rest : Bytes) : Stop := ⟨f, rest, true⟩

/-- A fault of the next byte, which is looked at but not read; at the end, of the end. -/
def Stop.atNext (f : Fault) (rest : Bytes) : Stop := ⟨f, rest.tail, true⟩

/-- A fault of a value as a whole, whose place is not settled yet. -/
def Stop.pending (f : Fault) (rest : Bytes) : Stop := ⟨f, rest, false⟩

/-- Space, tab, line feed, carriage return. -/
def isBlank (b : UInt8) : Bool :=
  b == 0x20 || b == 0x09 || b == 0x0A || b == 0x0D

def skipBlanks (bs : Bytes) : Bytes :=
  bs.dropWhile isBlank

/-- The bytes of an ASCII word. -/
def ascii (s : String) : Bytes :=
  s.toList.map fun c => UInt8.ofNat c.toNat

/-- The rest of a fixed word. -/
def word : Bytes → Bytes → Except Stop Bytes
  | [], bs => .ok bs
  | _ :: _, [] => .error (.here .endInValue [])
  | w :: ws, b :: bs => if b = w then word ws bs else .error (.here .expectedIdent bs)

/-- The value of a hexadecimal digit. -/
def hexValue (b : UInt8) : Option Nat :=
  if 0x30 ≤ b ∧ b ≤ 0x39 then some (b.toNat - 0x30)
  else if 0x41 ≤ b ∧ b ≤ 0x46 then some (b.toNat - 0x41 + 10)
  else if 0x61 ≤ b ∧ b ≤ 0x66 then some (b.toNat - 0x61 + 10)
  else none

/-- The number of four hexadecimal digits. Four bytes are taken before they are judged. -/
def hex4 : Reader Nat
  | a :: b :: c :: d :: rest =>
    match hexValue a, hexValue b, hexValue c, hexValue d with
    | some a, some b, some c, some d => .ok (((a * 16 + b) * 16 + c) * 16 + d, rest)
    | _, _, _, _ => .error (.here .badEscape rest)
  | _ => .error (.here .endInString [])

/-- A UTF-16 unit that must be followed by a low surrogate. -/
def isHighSurrogate (n : Nat) : Bool := decide (0xD800 ≤ n) && decide (n ≤ 0xDBFF)

def isLowSurrogate (n : Nat) : Bool := decide (0xDC00 ≤ n) && decide (n ≤ 0xDFFF)

/-- The code point of a surrogate pair. -/
def paired (high low : Nat) : Nat :=
  0x10000 + (high - 0xD800) * 0x400 + (low - 0xDC00)

/-- What follows a high surrogate: an escape of a low one. Gives the code point of the pair. -/
def lowHalf (high : Nat) : Reader Nat
  | [] => .error (.here .endInString [])
  | b :: rest =>
    if b ≠ 0x5C then .error (.here .shortSurrogate rest)
    else match rest with
      | [] => .error (.here .endInString [])
      | u :: rest' =>
        if u ≠ 0x75 then .error (.here .shortSurrogate rest')
        else match hex4 rest' with
          | .error e => .error e
          | .ok (low, rest'') =>
            if isLowSurrogate low then
              .ok (paired high low, rest'')
            else .error (.here .loneSurrogate rest'')

/-- The bytes of the character with a code point. -/
def spelled (n : Nat) : Bytes :=
  String.utf8EncodeChar (Char.ofNat n)

/-- The byte that a one-letter escape stands for. -/
def letterEscape (b : UInt8) : Option UInt8 :=
  if b = 0x22 ∨ b = 0x5C ∨ b = 0x2F then some b
  else if b = 0x62 then some 0x08
  else if b = 0x66 then some 0x0C
  else if b = 0x6E then some 0x0A
  else if b = 0x72 then some 0x0D
  else if b = 0x74 then some 0x09
  else none

/-- What follows a backslash and a `u`: a character by its UTF-16 units. -/
def unitEscape : Reader Bytes := fun bs => do
  let (n, rest) ← hex4 bs
  if isLowSurrogate n then .error (.here .loneSurrogate rest)
  else if isHighSurrogate n then
    let (n, rest) ← lowHalf n rest
    .ok (spelled n, rest)
  else .ok (spelled n, rest)

/-- What follows a backslash: the bytes it stands for. -/
def escape : Reader Bytes
  | [] => .error (.here .endInString [])
  | b :: rest =>
    if b = 0x75 then unitEscape rest
    else match letterEscape b with
      | some c => .ok ([c], rest)
      | none => .error (.here .badEscape rest)

theorem hex4_length {bs rest : Bytes} {n : Nat} (h : hex4 bs = .ok (n, rest)) :
    rest.length + 4 = bs.length := by
  unfold hex4 at h
  split at h
  · split at h
    · cases h; rfl
    · cases h
  · cases h

theorem lowHalf_length {bs rest : Bytes} {high n : Nat} (h : lowHalf high bs = .ok (n, rest)) :
    rest.length < bs.length := by
  unfold lowHalf at h
  split at h
  · cases h
  · split at h
    · cases h
    · split at h
      · cases h
      · split at h
        · cases h
        · split at h
          · cases h
          · next hx =>
            have := hex4_length hx
            split at h
            · simp only [Except.ok.injEq, Prod.mk.injEq] at h
              obtain ⟨-, rfl⟩ := h
              simp only [List.length_cons]
              omega
            · cases h

theorem unitEscape_length {bs rest out : Bytes} (h : unitEscape bs = .ok (out, rest)) :
    rest.length < bs.length := by
  unfold unitEscape at h
  cases hx : hex4 bs with
  | error e => simp [hx, bind, Except.bind] at h
  | ok p =>
    obtain ⟨n, r⟩ := p
    have := hex4_length hx
    simp only [hx, bind, Except.bind] at h
    split at h
    · cases h
    · split at h
      · cases hl : lowHalf n r with
        | error e => simp [hl] at h
        | ok q =>
          obtain ⟨m, r'⟩ := q
          have := lowHalf_length hl
          simp only [hl] at h
          cases h
          omega
      · cases h
        omega

theorem escape_length {bs rest out : Bytes} (h : escape bs = .ok (out, rest)) :
    rest.length < bs.length := by
  cases bs with
  | nil => cases h
  | cons b r =>
    simp only [escape] at h
    split at h
    · have := unitEscape_length h
      simp only [List.length_cons]
      omega
    · split at h
      · cases h
        simp
      · cases h

/-- The content of a string behind its opening quote, onto the reversed bytes before. -/
def stringOnto (acc : Bytes) (bs : Bytes) : Except Stop (Bytes × Bytes) :=
  match bs with
  | [] => .error (.here .endInString [])
  | b :: rest =>
    if b = 0x22 then .ok (acc.reverse, rest)
    else if b = 0x5C then
      match _h : escape rest with
      | .error e => .error e
      | .ok (out, rest') => stringOnto (out.reverse ++ acc) rest'
    else if b < 0x20 then .error (.here .controlCharacter rest)
    else stringOnto (b :: acc) rest
termination_by bs.length
decreasing_by
  · have := escape_length _h
    simp only [List.length_cons]
    omega
  · simp

/-- A string behind its opening quote, as a text. Broken bytes are found once it is read to its end;
their place is counted back from there, by the bytes of the content from the first broken one on. -/
def string : Reader String := fun bs => do
  let (content, rest) ← stringOnto [] bs
  match Text.Utf8.toText? content with
  | some s => .ok (s, rest)
  | none =>
    let back := rest.length + (Text.Utf8.fromBroken content).length
    .error (.here .badCodePoint (bs.drop (bs.length - back)))

/-- The rest behind a string that is skipped: its escapes are checked for form alone and its
bytes not for UTF-8. A control character is looked at, not read. -/
def skipString (bs : Bytes) : Except Stop Bytes :=
  match bs with
  | [] => .error (.here .endInString [])
  | b :: rest =>
    if b = 0x22 then .ok rest
    else if b = 0x5C then
      match rest with
      | [] => .error (.here .endInString [])
      | e :: rest' =>
        if e = 0x75 then
          match rest' with
          | h0 :: h1 :: h2 :: h3 :: rest'' =>
            match hexValue h0, hexValue h1, hexValue h2, hexValue h3 with
            | some _, some _, some _, some _ => skipString rest''
            | _, _, _, _ => .error (.here .badEscape rest'')
          | _ => .error (.here .endInString [])
        else if (letterEscape e).isSome then skipString rest'
        else .error (.here .badEscape rest')
    else if b < 0x20 then .error (.here .controlCharacter (b :: rest))
    else skipString rest
termination_by bs.length

end CommandLink.Json
