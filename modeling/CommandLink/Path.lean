/-!
# Paths

A path is a text in which slashes separate names. Joining and taking the parent work on the text
and touch no file: they keep what is left as it was written, and see through empty names and dots
only to find the last name.

Results:
* `joinSegments_segments`: the stretches between the slashes give back the text.
* `components_join`: joining puts the names of a relative path behind those of the base.
-/
namespace CommandLink

structure Path where
  text : String
  deriving Repr, DecidableEq

namespace Path

/-- The stretches between slashes, one more than there are slashes. -/
def segments : List Char → List (List Char)
  | [] => [[]]
  | c :: cs =>
    if c = '/' then [] :: segments cs
    else match segments cs with
      | [] => [[c]]
      | s :: ss => (c :: s) :: ss

/-- Stretches with slashes between them. -/
def joinSegments : List (List Char) → List Char
  | [] => []
  | [s] => s
  | s :: ss => s ++ '/' :: joinSegments ss

theorem segments_ne_nil (cs : List Char) : segments cs ≠ [] := by
  induction cs with
  | nil => simp [segments]
  | cons c cs _ =>
    simp only [segments]
    split
    · simp
    · split <;> simp

theorem joinSegments_cons_ne_nil (s : List Char) {ss : List (List Char)} (h : ss ≠ []) :
    joinSegments (s :: ss) = s ++ '/' :: joinSegments ss := by
  cases ss with
  | nil => exact absurd rfl h
  | cons t ts => rfl

theorem joinSegments_segments (cs : List Char) : joinSegments (segments cs) = cs := by
  induction cs with
  | nil => rfl
  | cons c cs ih =>
    simp only [segments]
    split
    · next h =>
      rw [joinSegments_cons_ne_nil _ (segments_ne_nil cs), ih, h]
      rfl
    · split
      · next h => exact absurd h (segments_ne_nil cs)
      · next s ss h =>
        rw [h] at ih
        cases ss with
        | nil => simp only [joinSegments] at ih ⊢; rw [ih]
        | cons t ts =>
          rw [joinSegments_cons_ne_nil _ (by simp)] at ih ⊢
          rw [← ih]
          rfl

/-- A stretch that names nothing: empty, or a lone dot. -/
def isIdle (s : List Char) : Bool :=
  s == [] || s == ['.']

/-- Starts at the root. -/
def isAbsolute (p : Path) : Bool :=
  p.text.toList.head? == some '/'

/-- Ends in a slash, and so can only mean a directory. -/
def endsInSlash (p : Path) : Bool :=
  p.text.toList.getLast? == some '/'

/-- A path without the slashes at its end, unless there is nothing else in it. -/
def bare (p : Path) : Path :=
  let cs := (p.text.toList.reverse.dropWhile (· == '/')).reverse
  if cs.isEmpty then p else ⟨String.ofList cs⟩

/-- The names along a path, outermost first; `..` counts as a name, the root and dots do not. -/
def components (p : Path) : List String :=
  ((segments p.text.toList).filter fun s => !isIdle s).map String.ofList

/-- A path continued by another one, which stands alone if it is absolute. -/
def join (p q : Path) : Path :=
  if q.isAbsolute then q
  else if p.text.toList.getLast?.all (· == '/') then ⟨p.text ++ q.text⟩
  else ⟨p.text ++ "/" ++ q.text⟩

/-- The part that a parent always keeps: the root, or a leading lone dot. -/
def anchor : List Char → List Char
  | '/' :: _ => ['/']
  | ['.'] => ['.']
  | '.' :: '/' :: _ => ['.']
  | _ => []

/-- Stretches, last first, from the first one on that names something. -/
def dropIdle (ss : List (List Char)) : List (List Char) :=
  ss.dropWhile isIdle

/-- The path without its last name; none if it has no name to lose. -/
def parent? (p : Path) : Option Path :=
  let cs := p.text.toList
  let a := anchor cs
  match dropIdle (segments (cs.drop a.length)).reverse with
  | _ :: above => some ⟨String.ofList (a ++ joinSegments (dropIdle above).reverse)⟩
  | [] => if a = ['.'] then some ⟨""⟩ else none

theorem segments_append (a b : List Char) :
    segments (a ++ '/' :: b) = segments a ++ segments b := by
  induction a with
  | nil => simp [segments]
  | cons c a ih =>
    simp only [List.cons_append, segments]
    split
    · rw [ih]
      rfl
    · rw [ih]
      cases h : segments a with
      | nil => exact absurd h (segments_ne_nil a)
      | cons s ss => rfl

/-- The names among some stretches. -/
def named (ss : List (List Char)) : List String :=
  (ss.filter fun s => !isIdle s).map String.ofList

theorem named_append (a b : List (List Char)) : named (a ++ b) = named a ++ named b := by
  simp [named]

theorem components_join (p q : Path) (h : q.isAbsolute = false) :
    (p.join q).components = p.components ++ q.components := by
  show named (segments (p.join q).text.toList) = named _ ++ named _
  simp only [join, h, Bool.false_eq_true, if_false]
  split
  · next hl =>
    cases hp : p.text.toList.getLast? with
    | none =>
      rw [List.getLast?_eq_none_iff] at hp
      simp [String.toList_append, hp, segments, named, isIdle]
    | some c =>
      rw [hp] at hl
      obtain ⟨a, ha⟩ := List.getLast?_eq_some_iff.1 hp
      have hc : c = '/' := by simpa using hl
      subst hc
      rw [String.toList_append, ha, List.append_assoc, List.singleton_append, segments_append,
        segments_append, named_append, named_append]
      simp [named, segments, isIdle]
  · rw [String.toList_append, String.toList_append, List.append_assoc]
    show named (segments (p.text.toList ++ ('/' :: q.text.toList))) = _
    rw [segments_append, named_append]

end Path
end CommandLink
