import CommandLink.LinkError
/-!
# Endpoint names

The name under which an agent can be reached. It becomes a component of paths, part of a pipe's
name and part of a property key, so it must be a plain name. Every way to obtain one goes through
the same test.

Results:
* `ofText_ok_iff`: a text is taken exactly if it passes the test, and kept as it is.
* `ofText_error`: what is refused is named in the refusal.
-/
namespace CommandLink

/-- What may not stand in a plain name: separators of paths, dots, and what ends a text. -/
def isForbidden (c : Char) : Bool :=
  c == '/' || c == '\\' || c == '\x00' || c == '\n' || c == '.'

/-- Not empty, and nothing forbidden in it. Mirrors `validate`. -/
def isPlainName (s : String) : Bool :=
  !s.isEmpty && !s.toList.any isForbidden

theorem isPlainName_iff {s : String} :
    isPlainName s = true ↔ s ≠ "" ∧ ∀ c ∈ s.toList, isForbidden c = false := by
  simp [isPlainName]

theorem isAbsolute_of_isPlainName {s : String} (h : isPlainName s = true) :
    (Path.mk s).isAbsolute = false := by
  rw [Path.isAbsolute, beq_eq_false_iff_ne]
  intro hhead
  have hallowed := (isPlainName_iff.1 h).2 '/' (List.mem_of_head? hhead)
  exact absurd hallowed (by decide)

structure EndpointName where
  text : String
  plain : isPlainName text = true
  deriving DecidableEq

namespace EndpointName

def ofText? (s : String) : Option EndpointName :=
  if h : isPlainName s = true then some ⟨s, h⟩ else none

/-- Mirrors `EndpointName.new`. -/
def ofText (s : String) : Except LinkError EndpointName :=
  if h : isPlainName s = true then .ok ⟨s, h⟩ else .error (.invalidEndpointName s)

/-- The name of the agent where nothing else is said. -/
def agent : EndpointName := ⟨"agent", by decide⟩

instance : Inhabited EndpointName := ⟨agent⟩

/-- Reads a name as a JSON text. A refused name has no place of its own. -/
def reader : Json.Reader EndpointName := fun bs => do
  let (s, rest) ← Json.text "a string" bs
  match ofText s with
  | .ok e => .ok (e, rest)
  | .error e => .error (.pending (.refused e.message) rest)

def toJson (e : EndpointName) : Bytes :=
  Json.writeText e.text

theorem ext {a b : EndpointName} (h : a.text = b.text) : a = b := by
  cases a
  cases b
  cases h
  rfl

theorem ofText_ok_iff {s : String} {e : EndpointName} :
    ofText s = .ok e ↔ isPlainName s = true ∧ e.text = s := by
  simp only [ofText]
  split
  · next h =>
    refine ⟨fun he => ?_, fun he => ?_⟩
    · cases he
      exact ⟨h, rfl⟩
    · exact congrArg _ (ext he.2.symm)
  · next h => simp [h]

theorem ofText_error {s : String} (h : isPlainName s = false) :
    ofText s = .error (.invalidEndpointName s) := by
  simp [ofText, h]

end EndpointName
end CommandLink
