import CommandLink.Frame.Intake
/-!
# Channels

A channel owns one byte stream to one peer and gives it up exactly once. A channel that an accept
loop watches also holds a key in that loop's set of keys.

Results:
* `isOpen_close`, `close_close`: closing closes, and a second time does nothing.
* `mem_cancel`: cancelling a key removes that key and no other.
-/
namespace CommandLink

/-- What giving up a channel does, one act at a time. -/
inductive Release where
  /-- The key leaves the set of keys. -/
  | key (id : Nat)
  /-- The peer is told that nothing more comes. -/
  | shutDown
  /-- The stream itself is given back. -/
  | stream
  deriving Repr, DecidableEq

structure Channel (σ : Type) where
  name : String
  stream : Option σ
  key : Option Nat

namespace Channel
variable {σ : Type}

/-- Mirrors `StreamChannel.new`. -/
def opened (name : String) (stream : σ) : Channel σ := ⟨name, some stream, none⟩

/-- Mirrors `with_key`. -/
def withKey (c : Channel σ) (key : Nat) : Channel σ := { c with key := some key }

/-- Whether this end was not closed; what the peer does has no part in it. Mirrors `is_open`. -/
def isOpen (c : Channel σ) : Bool := c.stream.isSome

/-- The error of using a channel after it was closed. -/
def closedError (c : Channel σ) : IoError :=
  ⟨.notConnected, "channel " ++ c.name ++ " is closed"⟩

/-- The stream of a channel that was not closed. Mirrors `stream_mut`. -/
def stream? (c : Channel σ) : Except IoError σ :=
  match c.stream with
  | some s => .ok s
  | none => .error c.closedError

/-- What a read of some size came to that gave these bytes: no bytes at all mean the end, unless
none were asked for. Mirrors `classify`. -/
def status (requested : Nat) (bytes : Bytes) : Frame.ReadStatus :=
  if bytes.isEmpty ∧ 0 < requested then .eof else .data bytes

/-- The act on the key, if there is one. -/
def keyRelease (c : Channel σ) : List Release :=
  match c.key with
  | some k => [.key k]
  | none => []

/-- Closes a channel. The key goes first, so that the accept loop never watches a stream that is
gone. Mirrors `StreamChannel.close`. -/
def close (c : Channel σ) : Channel σ × List Release :=
  ({ c with stream := none, key := none },
    c.keyRelease ++ if c.isOpen then [.shutDown, .stream] else [])

/-- Closing that is broken off while the peer is being told. -/
def closeBrokenOff (c : Channel σ) : List Release :=
  c.keyRelease ++ if c.isOpen then [.stream] else []

/-- What happens to a channel that is let go of without being closed: its parts go in the order in
which it holds them. -/
def letGo (c : Channel σ) : List Release :=
  (if c.isOpen then [.stream] else []) ++ c.keyRelease

/-- A channel as a person who looks for an error reads it. -/
def inspect (c : Channel σ) : String :=
  "StreamChannel \x7b name: " ++ Text.quoted c.name ++ ", open: " ++ toString c.isOpen ++ ", .. \x7d"

theorem isOpen_close (c : Channel σ) : c.close.1.isOpen = false := rfl

theorem close_close (c : Channel σ) : c.close.1.close = (c.close.1, []) := rfl

end Channel

/-- The peers that an accept loop watches, each under a number of its own. -/
structure KeySet (α : Type) where
  next : Nat
  peers : List (Nat × α)

namespace KeySet
variable {α : Type}

def empty : KeySet α := ⟨0, []⟩

/-- Enters a peer under a new number. Mirrors `KeySet.register`. -/
def register (s : KeySet α) (peer : α) : KeySet α × Nat :=
  (⟨s.next + 1, s.peers ++ [(s.next, peer)]⟩, s.next)

/-- Mirrors `SelectionKey.cancel`. -/
def cancel (s : KeySet α) (key : Nat) : KeySet α :=
  { s with peers := s.peers.filter fun p => p.1 != key }

def size (s : KeySet α) : Nat := s.peers.length

theorem mem_cancel {s : KeySet α} {key : Nat} {p : Nat × α} :
    p ∈ (s.cancel key).peers ↔ p ∈ s.peers ∧ p.1 ≠ key := by
  simp [cancel]

end KeySet
end CommandLink
