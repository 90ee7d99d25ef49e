import CommandLink.Bytes
/-!
# UTF-8

Texts as bytes. Reading splits bytes into characters and broken stretches, a broken stretch being
as long as a character could still have been completed. From that come the strict reading, which
refuses broken bytes, and the lossy one, which puts U+FFFD for every broken stretch.

Results:
* `ofText_ofList_append`: the bytes of joined texts are the joined bytes.
-/
namespace CommandLink.Text.Utf8

def ofText (s : String) : Bytes :=
  s.toList.flatMap String.utf8EncodeChar

/-- A byte that continues a character. -/
def isTail (b : UInt8) : Bool :=
  decide (0x80 ≤ b) && decide (b ≤ 0xBF)

/-- The range the second byte must lie in after the first one, so that no character has two
spellings and none is a surrogate or beyond U+10FFFF. -/
def secondRange (a : UInt8) : UInt8 × UInt8 :=
  if a = 0xE0 then (0xA0, 0xBF)
  else if a = 0xED then (0x80, 0x9F)
  else if a = 0xF0 then (0x90, 0xBF)
  else if a = 0xF4 then (0x80, 0x8F)
  else (0x80, 0xBF)

def isSecond (a b : UInt8) : Bool :=
  decide ((secondRange a).1 ≤ b) && decide (b ≤ (secondRange a).2)

/-- How many bytes follow the first byte of a character; `none` for a byte that starts none. -/
def tailCount (a : UInt8) : Option Nat :=
  if a < 0x80 then some 0
  else if 0xC2 ≤ a ∧ a ≤ 0xDF then some 1
  else if 0xE0 ≤ a ∧ a ≤ 0xEF then some 2
  else if 0xF0 ≤ a ∧ a ≤ 0xF4 then some 3
  else none

/-- The low six bits of a byte that continues a character. -/
def low6 (b : UInt8) : Nat :=
  b.toNat % 64

/-- Takes up bytes part by part, a part being a character (`some`) or a broken stretch (`none`). -/
@[specialize]
def foldParts {β : Type} (f : β → Option Char → β) (acc : β) : Bytes → β
  | [] => acc
  | a :: rest =>
    match tailCount a with
    | none => foldParts f (f acc none) rest
    | some 0 => foldParts f (f acc (some (Char.ofNat a.toNat))) rest
    | some 1 =>
      match rest with
      | [] => f acc none
      | b :: rest' =>
        if isSecond a b then foldParts f (f acc (some (Char.ofNat (a.toNat % 32 * 64 + low6 b)))) rest'
        else foldParts f (f acc none) (b :: rest')
    | some 2 =>
      match rest with
      | [] => f acc none
      | b :: rest' =>
        if isSecond a b then
          match rest' with
          | [] => f acc none
          | c :: rest'' =>
            if isTail c then
              foldParts f
                (f acc (some (Char.ofNat ((a.toNat % 16 * 64 + low6 b) * 64 + low6 c)))) rest''
            else foldParts f (f acc none) (c :: rest'')
        else foldParts f (f acc none) (b :: rest')
    | some _ =>
      match rest with
      | [] => f acc none
      | b :: rest' =>
        if isSecond a b then
          match rest' with
          | [] => f acc none
          | c :: rest'' =>
            if isTail c then
              match rest'' with
              | [] => f acc none
              | d :: rest''' =>
                if isTail d then
                  foldParts f
                    (f acc (some (Char.ofNat
                      (((a.toNat % 8 * 64 + low6 b) * 64 + low6 c) * 64 + low6 d)))) rest'''
                else foldParts f (f acc none) (d :: rest''')
            else foldParts f (f acc none) (c :: rest'')
        else foldParts f (f acc none) (b :: rest')
termination_by bs => bs.length

/-- The parts of bytes, in order. -/
def split (bs : Bytes) : List (Option Char) :=
  (foldParts (fun parts c => c :: parts) [] bs).reverse

/-- A text with one more character, if there is a text and a character. -/
def pushPart : Option String → Option Char → Option String
  | some s, some c => some (s.push c)
  | _, _ => none

/-- The text that bytes spell, if none of them is broken. -/
def toText? (bs : Bytes) : Option String :=
  foldParts pushPart (some "") bs

/-- The bytes from the first broken one on. -/
def fromBroken (bs : Bytes) : Bytes :=
  let whole := (split bs).takeWhile Option.isSome
  bs.drop ((whole.filterMap id).foldl (fun n c => n + c.utf8Size) 0)

/-- The text that bytes spell, with U+FFFD for every broken stretch. -/
def toTextLossy (bs : Bytes) : String :=
  foldParts (fun s c => s.push (c.getD '\uFFFD')) "" bs

theorem ofText_ofList_append (cs ds : List Char) :
    ofText (String.ofList (cs ++ ds)) = ofText (String.ofList cs) ++ ofText (String.ofList ds) := by
  simp [ofText]

end CommandLink.Text.Utf8
