import CommandLink.Request
import CommandLink.Response
/-!
# Receivers

A receiver answers the requests that bear its name. It may change the state of its surroundings,
fail, break down or never answer; whatever it does, whoever dispatches to it gets a response or
waits, and nothing worse.

Results:
* `register_ok_iff`, `register_error`: the first receiver under a name stays, a second one is
  refused.
* `dispatch_unknown`, `dispatch_known`: a request reaches the receiver under its name and no other.
-/
namespace CommandLink

/-- What a receiver makes of a request. -/
inductive Reply where
  | response (r : Response)
  /-- It failed, for reasons from the outermost to the innermost. -/
  | failure (reasons : List String)
  /-- It broke down, with a last word if that is a text. -/
  | breakdown (lastWord : Option String)
  | never
  deriving Repr, DecidableEq

namespace Reply

/-- The response that the sender gets, if it gets one. -/
def response? : Reply → Option Response
  | response r => some r
  | failure reasons => some (.exception (String.intercalate ": " reasons))
  | breakdown lastWord =>
    some (.exception ("receiver panicked: " ++ lastWord.getD "unknown panic"))
  | never => none

end Reply

/-- A receiver whose surroundings are in a state `σ`. -/
structure Receiver (σ : Type) where
  name : String
  receive : Request → σ → Reply × σ

/-- Receivers under their names. -/
abbrev Registry (σ : Type) := Table (Receiver σ)

namespace Registry
variable {σ : Type}

/-- Adds a receiver, unless its name is taken. Mirrors `ReceiverRegistry.register`. -/
def register (t : Registry σ) (r : Receiver σ) : Except LinkError (Registry σ) :=
  if t.contains r.name then .error (.duplicateReceiver r.name) else .ok (t.insert r.name r)

/-- Adds receivers one after another, up to the first that is refused. -/
def registerAll (t : Registry σ) (rs : List (Receiver σ)) : Except LinkError (Registry σ) :=
  rs.foldlM register t

/-- Hands a request to the receiver under its name. Gives the response, if there is to be one, and
the state afterwards. Mirrors `ReceiverRegistry.dispatch`. -/
def dispatch (t : Registry σ) (r : Request) (s : σ) : Option Response × σ :=
  match t.get? r.receiver with
  | none => (some (.error ("unknown receiver '" ++ r.receiver ++ "'")), s)
  | some receiver =>
    let (reply, s) := receiver.receive r s
    (reply.response?, s)

theorem register_ok_iff {t t' : Registry σ} {r : Receiver σ} :
    t.register r = .ok t' ↔ t.get? r.name = none ∧ t' = t.insert r.name r := by
  by_cases h : t.contains r.name = true
  · have hs : (t.get? r.name).isSome = true := h
    simp only [register, h, if_true]
    constructor
    · intro e
      cases e
    · intro e
      rw [e.1] at hs
      cases hs
  · have hn : t.get? r.name = none := Option.not_isSome_iff_eq_none.1 h
    simp [register, h, hn, eq_comm]

theorem register_error {t : Registry σ} {r : Receiver σ} (h : (t.get? r.name).isSome = true) :
    t.register r = .error (.duplicateReceiver r.name) := by
  simp [register, Table.contains, h]

theorem dispatch_unknown {t : Registry σ} {r : Request} (h : t.get? r.receiver = none) (s : σ) :
    t.dispatch r s = (some (.error ("unknown receiver '" ++ r.receiver ++ "'")), s) := by
  simp [dispatch, h]

theorem dispatch_known {t : Registry σ} {r : Request} {receiver : Receiver σ}
    (h : t.get? r.receiver = some receiver) (s : σ) :
    t.dispatch r s = ((receiver.receive r s).1.response?, (receiver.receive r s).2) := by
  simp [dispatch, h]

end Registry
end CommandLink
