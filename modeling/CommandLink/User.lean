import CommandLink.Endpoint
/-!
# Users

Who runs a program. The user's name becomes a component of paths, so a login that could not be one
gives way to the number of the user.

Results:
* `isPlainName_of`: the name of a user is always a plain name.
-/
namespace CommandLink

/-- What looking up the login of a number comes to. -/
inductive LoginLookup where
  | found (login : String)
  | missing
  | failed
  deriving Repr, DecidableEq

structure User where
  name : String
  uid : Nat
  deriving Repr, DecidableEq

namespace User

/-- The user of a number. Mirrors `current_user`. -/
def of (uid : Nat) : LoginLookup → User
  | .found login => ⟨if isPlainName login then login else Text.decimal uid, uid⟩
  | .missing | .failed => ⟨Text.decimal uid, uid⟩

/-- The user who may do everything. -/
def superuser : User := of 0 (.found "root")

theorem isForbidden_of_isDigit {c : Char} (h : c.isDigit = true) : isForbidden c = false := by
  simp only [isForbidden, Bool.or_eq_false_iff, beq_eq_false_iff_ne]
  refine ⟨⟨⟨⟨?_, ?_⟩, ?_⟩, ?_⟩, ?_⟩ <;> rintro rfl <;> exact absurd h (by decide)

theorem isPlainName_decimal (n : Nat) : isPlainName (Text.decimal n) = true := by
  have hne : Nat.toDigits 10 n ≠ [] := Nat.toDigits_ne_nil
  have hany : (Nat.toDigits 10 n).any isForbidden = false := by
    rw [List.any_eq_false]
    intro c hc
    simp [isForbidden_of_isDigit (Nat.isDigit_of_mem_toDigits (by decide) (by decide) hc)]
  simp [isPlainName, Text.decimal, hany, hne]

theorem isPlainName_of (uid : Nat) (l : LoginLookup) : isPlainName (of uid l).name = true := by
  cases l with
  | found login =>
    simp only [of]
    split
    · assumption
    · exact isPlainName_decimal uid
  | missing => exact isPlainName_decimal uid
  | failed => exact isPlainName_decimal uid

end User
end CommandLink
