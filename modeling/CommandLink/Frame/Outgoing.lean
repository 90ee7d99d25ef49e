import CommandLink.LinkError
/-!
# Sending frames

A frame is a payload behind its length in four bytes, most significant first. Header and payload
are written one after the other, each in as many write calls as the other side makes necessary;
a call always offers all that is left of its part.

Results:
* `offered?_ne_nil`: no write call offers nothing.
* `left_wrote`: what is left after a successful write is what was left before, without what was
  taken.
* `left_start`: at first the whole frame is left.
-/
namespace CommandLink.Frame

/-- The greatest payload of a frame. -/
def maxSize : Nat := 16 * 1024 * 1024

/-- The bytes of a frame. -/
def ofPayload (payload : Bytes) : Bytes :=
  Bytes.big32 payload.length ++ payload

/-- What a write call comes to: so many of the offered bytes were taken, or it failed. -/
inductive Acceptance where
  | took (n : Nat)
  | failed (cause : IoError)
  deriving Repr, DecidableEq

/-- The parts of a frame still to be written, none of them empty. -/
structure Outgoing where
  parts : List Bytes
  nonempty : ∀ p ∈ parts, p ≠ []

namespace Outgoing

/-- Parts without the empty ones among them. -/
def ofParts (parts : List Bytes) : Outgoing :=
  ⟨parts.filter fun p => !p.isEmpty, fun p hp => by
    have := (List.mem_filter.1 hp).2
    simpa using this⟩

/-- The frame of a payload, nothing of it written yet. Mirrors `send_message` up to its first
write. -/
def start (payload : Bytes) : Except LinkError Outgoing :=
  if payload.length ≤ maxSize then .ok (ofParts [Bytes.big32 payload.length, payload])
  else .error (.frameTooLarge payload.length)

/-- What the next write call offers; none once everything is written. -/
def offered? (o : Outgoing) : Option Bytes :=
  o.parts.head?

/-- All that is still to be written. -/
def left (o : Outgoing) : Bytes :=
  o.parts.flatten

/-- What is left when the first `n` bytes of the first part were taken. -/
def advance (o : Outgoing) (n : Nat) : Outgoing :=
  match o.parts with
  | [] => o
  | p :: ps => ofParts (p.drop n :: ps)

/-- The other side took nothing. -/
def refused (channel : String) : IoError :=
  ⟨.writeZero, channel ++ ": peer stopped accepting data"⟩

/-- What is left after a write call. Mirrors one round of `write_all`. -/
def wrote (channel : String) (o : Outgoing) : Acceptance → Except IoError Outgoing
  | .took 0 => .error (refused channel)
  | .took (n + 1) => .ok (o.advance (n + 1))
  | .failed e => .error e

theorem offered?_ne_nil {o : Outgoing} {p : Bytes} (h : o.offered? = some p) : p ≠ [] :=
  o.nonempty p (List.mem_of_mem_head? h)

theorem flatten_filter_nonempty (parts : List Bytes) :
    (parts.filter fun p => !p.isEmpty).flatten = parts.flatten := by
  induction parts with
  | nil => rfl
  | cons p ps ih =>
    cases p with
    | nil => simpa using ih
    | cons b bs => simp [ih]

theorem left_ofParts (parts : List Bytes) : (ofParts parts).left = parts.flatten :=
  flatten_filter_nonempty parts

theorem left_start {payload : Bytes} {o : Outgoing} (h : start payload = .ok o) :
    o.left = ofPayload payload := by
  simp only [start] at h
  split at h
  · cases h
    simp [left_ofParts, ofPayload]
  · cases h

theorem left_wrote {channel : String} {o o' : Outgoing} {n : Nat} {p : Bytes}
    (hp : o.offered? = some p) (hn : n ≤ p.length) (h : o.wrote channel (.took n) = .ok o') :
    o.left = p.take n ++ o'.left := by
  cases n with
  | zero => cases h
  | succ n =>
    cases h
    obtain ⟨parts, hne⟩ := o
    cases parts with
    | nil => cases hp
    | cons q ps =>
      cases hp
      show (p :: ps).flatten = _ ++ (ofParts _).left
      rw [left_ofParts, List.flatten_cons, List.flatten_cons, ← List.append_assoc,
        List.take_append_drop]

end Outgoing

/-- How sending one frame went: its outcome, the bytes that were taken and what each write call
offered. -/
structure Transmission where
  outcome : Except LinkError Unit
  written : Bytes
  offers : List Bytes
  /-- What further write calls will come to. -/
  later : List Acceptance

/-- Writes what is left of a frame, where write calls come to what a list says and, beyond it, take
all that is offered. Mirrors `write_all`. -/
def transmit (channel : String) (o : Outgoing) : List Acceptance → Transmission
  | [] => ⟨.ok (), o.left, o.parts, []⟩
  | a :: as =>
    match o.offered? with
    | none => ⟨.ok (), [], [], a :: as⟩
    | some p =>
      let a := match a with
        | .took n => .took (min n p.length)
        | .failed e => .failed e
      match o.wrote channel a with
      | .error e => ⟨.error (.io e), [], [p], as⟩
      | .ok o' =>
        let t := transmit channel o' as
        let taken := match a with
          | .took n => p.take n
          | .failed _ => []
        { t with written := taken ++ t.written, offers := p :: t.offers }

/-- Sends a payload as a frame. Mirrors `send_message`. -/
def send (channel : String) (payload : Bytes) (calls : List Acceptance) : Transmission :=
  match Outgoing.start payload with
  | .error e => ⟨.error e, [], [], calls⟩
  | .ok o => transmit channel o calls

end CommandLink.Frame
