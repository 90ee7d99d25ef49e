import CommandLink.LinkError
/-!
# Responses

What a receiver answers: a verdict, and a message if there is more to say. As a frame it is one
JSON object.

Results:
* `Verdict.ofName?_name`: a verdict is read back from its name.
-/
namespace CommandLink

inductive Verdict where
  | ok
  | error
  | nok
  | noop
  | authFailed
  | exception
  deriving Repr, BEq, DecidableEq

namespace Verdict

def name : Verdict → String
  | ok => "OK"
  | error => "ERROR"
  | nok => "NOK"
  | noop => "NOOP"
  | authFailed => "AUTH_FAILED"
  | exception => "EXCEPTION"

def all : List Verdict := [ok, error, nok, noop, authFailed, exception]

/-- The verdicts under their names. -/
def named : List (String × Verdict) := all.map fun v => (v.name, v)

def ofName? (s : String) : Option Verdict := named.lookup s

theorem ofName?_name (v : Verdict) : ofName? v.name = some v := by
  cases v <;> decide

end Verdict

structure Response where
  verdict : Verdict
  message : Option String
  deriving Repr, BEq, DecidableEq

namespace Response

/-- A verdict without a message. -/
def bare (v : Verdict) : Response := ⟨v, none⟩

def ok (message : String) : Response := ⟨.ok, some message⟩
def nok (message : String) : Response := ⟨.nok, some message⟩
def error (message : String) : Response := ⟨.error, some message⟩
def exception (message : String) : Response := ⟨.exception, some message⟩

/-- Mirrors `with_message`. -/
def withMessage (r : Response) (message : String) : Response :=
  { r with message := some message }

/-- A response as a person reads it. -/
def display (r : Response) : String :=
  match r.message with
  | none => r.verdict.name
  | some m => r.verdict.name ++ ": " ++ m

/-- The frame of a response. A missing message is left out. Mirrors `encode_response`. -/
def encode (r : Response) : Bytes :=
  let verdict := ("type", Json.writeText r.verdict.name)
  match r.message with
  | none => Json.writeObject [verdict]
  | some m => Json.writeObject [verdict, ("message", Json.writeText m)]

structure Draft where
  verdict : Option Verdict := none
  /-- The outer layer tells whether the member has come, the inner one what it said. -/
  message : Option (Option String) := none

def schema : Json.Schema Draft Response where
  name := "Response"
  start := {}
  fields := [
    { name := "type"
      optional := false
      isSet := fun d => d.verdict.isSome
      read := fun d bs => do
        let (v, rest) ← Json.variant Verdict.named bs
        .ok ({ d with verdict := some v }, rest) },
    { name := "message"
      optional := true
      isSet := fun d => d.message.isSome
      read := fun d bs => do
        let (m, rest) ← Json.optionalText "a string" bs
        .ok ({ d with message := some m }, rest) }]
  finish := fun d => do some ⟨← d.verdict, d.message.getD none⟩

/-- Reads the frame of a response. Mirrors `decode_response`. -/
def decode (bs : Bytes) : Except LinkError Response :=
  match Json.parse schema.read bs with
  | .ok r => .ok r
  | .error e => .error (.malformedFrame e)

end Response
end CommandLink
