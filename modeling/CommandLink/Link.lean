import CommandLink.Duplex
/-!
# Links

A connection between a client and a server on one machine: the bytes on their way to either end, in
the order in which they were written. An end can finish writing and can be given back; what was
written before stays readable at the other end. Only so many bytes wait at an end that nobody reads
at; whoever offers more has to wait, too.

Results:
* `incoming_write`: a write adds its bytes behind those on their way, and touches no other bytes.
* `offer_waits_iff`: who has to wait with a write.
* `incoming_read`: what a read gives and leaves is what was there.
-/
namespace CommandLink

inductive LinkEnd where
  | client
  | server
  deriving Repr, DecidableEq

def LinkEnd.other : LinkEnd → LinkEnd
  | client => server
  | server => client

structure Link where
  /-- The bytes on their way to an end. -/
  incoming : LinkEnd → Bytes
  /-- The ends that write no more. -/
  finished : LinkEnd → Bool
  /-- The ends that were given back. -/
  closed : LinkEnd → Bool
  /-- The ends that are still to learn that the other one was given back with bytes unread. -/
  reset : LinkEnd → Bool

namespace Link

def fresh : Link := ⟨fun _ => [], fun _ => false, fun _ => false, fun _ => false⟩

/-- A function with another value at one end. -/
def set {α : Type} (f : LinkEnd → α) (e : LinkEnd) (a : α) : LinkEnd → α :=
  fun e' => if e' = e then a else f e'

/-- Writes at an end: all bytes are taken, unless nobody can read them any more. -/
def write (l : Link) (e : LinkEnd) (bytes : Bytes) : Except IoError Nat × Link :=
  if l.closed e.other || l.finished e then (.error Errno.brokenPipe.error, l)
  else (.ok bytes.length,
    { l with incoming := set l.incoming e.other (l.incoming e.other ++ bytes) })

/-- How many bytes wait at an end that nobody reads at. -/
def capacity : Nat := 219264

/-- Writes at an end as many bytes as the other end has room for, whose reader wants so many. -/
def offer (l : Link) (e : LinkEnd) (wanted : Nat) (bytes : Bytes) : Attempt Nat × Link :=
  let room := capacity + wanted - (l.incoming e.other).length
  match l.write e (bytes.take room) with
  | (.error cause, l) => (.failed cause, l)
  | (.ok n, after) => if room = 0 then (.waits, l) else (.done n, after)

/-- Reads at an end up to `size` bytes, which wait there before any news of the other end. -/
def read (l : Link) (e : LinkEnd) (size : Nat) : Attempt Frame.ReadStatus × Link :=
  let here := l.incoming e
  if !here.isEmpty then
    (.done (Channel.status size (here.take size)),
      { l with incoming := set l.incoming e (here.drop size) })
  else if l.reset e then (.failed Errno.connectionReset.error, { l with reset := set l.reset e false })
  else if l.finished e.other then (.done (Channel.status size []), l)
  else (.waits, l)

/-- Receives a frame at an end. What is there is used for it, and nothing behind it. -/
def receive (channel : String) (l : Link) (e : LinkEnd) :
    Attempt (Except LinkError (Option Bytes)) × Link :=
  let (fed, rest) := Frame.Intake.start.feed (l.incoming e)
  let l := { l with incoming := set l.incoming e rest }
  match fed with
  | .frame payload => (.done (.ok (some payload)), l)
  | .refused cause => (.done (.error cause), l)
  | .more i =>
    match l.read e 1 with
    | (.done _, l) => (.done (i.ended channel), l)
    | (.failed cause, l) => (.done (.error (.io cause)), l)
    | (.waits, l) => (.waits, l)

/-- Receives one frame after another, at most `n`. -/
def receiveAll (channel : String) (e : LinkEnd) : Nat → Link → List Bytes × Link
  | 0, l => ([], l)
  | n + 1, l =>
    match l.receive channel e with
    | (.done (.ok (some payload)), l) =>
      let (payloads, l) := receiveAll channel e n l
      (payload :: payloads, l)
    | (_, l) => ([], l)

/-- An end writes no more. -/
def finish (l : Link) (e : LinkEnd) : Link :=
  { l with finished := set l.finished e true }

/-- Gives an end back. Bytes that it left unread reset the link for the other end. -/
def close (l : Link) (e : LinkEnd) : Link :=
  if l.closed e then l
  else
    { incoming := set l.incoming e []
      finished := set l.finished e true
      closed := set l.closed e true
      reset := if (l.incoming e).isEmpty then l.reset else set l.reset e.other true }

theorem set_self {α : Type} (f : LinkEnd → α) (e : LinkEnd) (a : α) : set f e a e = a := by
  simp [set]

theorem set_other {α : Type} (f : LinkEnd → α) (e : LinkEnd) (a : α) :
    set f e a e.other = f e.other := by
  cases e <;> rfl

theorem set_other_self {α : Type} (f : LinkEnd → α) (e : LinkEnd) (a : α) :
    set f e.other a e = f e := by
  cases e <;> rfl

theorem incoming_write {l l' : Link} {e : LinkEnd} {bytes : Bytes} {n : Nat}
    (h : l.write e bytes = (.ok n, l')) :
    n = bytes.length ∧ l'.incoming e.other = l.incoming e.other ++ bytes
      ∧ l'.incoming e = l.incoming e := by
  simp only [write] at h
  split at h
  · cases h
  · cases h
    exact ⟨rfl, set_self .., set_other_self ..⟩

/-- Who writes at an end waits exactly if the other end is still there and full. -/
theorem offer_waits_iff (l : Link) (e : LinkEnd) (wanted : Nat) (bytes : Bytes) :
    (l.offer e wanted bytes).1 = .waits ↔ l.closed e.other = false ∧ l.finished e = false
      ∧ capacity + wanted ≤ (l.incoming e.other).length := by
  simp only [offer, write]
  by_cases hbroken : l.closed e.other || l.finished e
  · rw [if_pos hbroken]
    simp only [Bool.or_eq_true] at hbroken
    rcases hbroken with h | h <;> simp [h]
  · rw [if_neg hbroken]
    simp only [Bool.or_eq_true, not_or, Bool.not_eq_true] at hbroken
    by_cases hroom : capacity + wanted - (l.incoming e.other).length = 0
    · simp [hbroken, hroom, Nat.sub_eq_zero_iff_le.1 hroom]
    · have hfits : ¬ capacity + wanted ≤ (l.incoming e.other).length :=
        fun hle => hroom (Nat.sub_eq_zero_of_le hle)
      simp [hroom, hfits]

theorem incoming_read {l l' : Link} {e : LinkEnd} {size : Nat} {bytes : Bytes}
    (h : l.read e size = (.done (.data bytes), l')) :
    l.incoming e = bytes ++ l'.incoming e ∧ l'.incoming e.other = l.incoming e.other := by
  simp only [read] at h
  split at h
  · simp only [Channel.status] at h
    split at h
    · cases h
    · cases h
      exact ⟨by simp [set_self], set_other ..⟩
  · split at h
    · cases h
    · split at h
      · simp only [Channel.status, List.isEmpty_nil, true_and] at h
        split at h
        · cases h
        · next hs =>
          cases h
          exact ⟨rfl, rfl⟩
      · cases h

end Link
end CommandLink
