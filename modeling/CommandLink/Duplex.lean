import CommandLink.Channel
/-!
# A pipe in memory

Two channels over two buffers of bounded size, one for each direction. Either side's closing
severs the pipe for both; bytes already taken stay readable.

Results:
* `take_write`: a write puts what it takes behind what is buffered and touches nothing else.
* `take_read`: a read takes from the front, and what it gives and leaves is what was there.
-/
namespace CommandLink

inductive Side where
  | a
  | b
  deriving Repr, DecidableEq

namespace Side

def other : Side → Side
  | a => b
  | b => a

def name : Side → String
  | a => "a"
  | b => "b"

end Side

structure Duplex where
  capacity : Nat
  /-- The bytes on their way to a side. -/
  toward : Side → Bytes
  severed : Bool

/-- What trying something at once comes to. -/
inductive Attempt (α : Type) where
  | done (result : α)
  | failed (cause : IoError)
  /-- It would have to wait. -/
  | waits
  deriving Repr

namespace Duplex

def empty (capacity : Nat) : Duplex := ⟨capacity, fun _ => [], false⟩

def setToward (d : Duplex) (s : Side) (bytes : Bytes) : Duplex :=
  { d with toward := fun t => if t = s then bytes else d.toward t }

def severedError : IoError := ⟨.brokenPipe, "broken pipe"⟩

/-- How many bytes a side can write. -/
def room (d : Duplex) (s : Side) : Nat :=
  d.capacity - (d.toward s.other).length

/-- Writes from a side as many bytes as fit, and waits if none of them does. -/
def write (d : Duplex) (s : Side) (bytes : Bytes) : Attempt Nat × Duplex :=
  if d.severed then (.failed severedError, d)
  else if d.room s = 0 ∧ bytes ≠ [] then (.waits, d)
  else
    let n := min (d.room s) bytes.length
    (.done n, d.setToward s.other (d.toward s.other ++ bytes.take n))

/-- Reads at a side up to `size` bytes. -/
def read (d : Duplex) (s : Side) (size : Nat) : Attempt Frame.ReadStatus × Duplex :=
  let here := d.toward s
  if here.isEmpty ∧ !d.severed ∧ 0 < size then (.waits, d)
  else (.done (Channel.status size (here.take size)), d.setToward s (here.drop size))

theorem toward_setToward (d : Duplex) (s t : Side) (bytes : Bytes) :
    (d.setToward s bytes).toward t = if t = s then bytes else d.toward t := rfl

theorem take_write {d d' : Duplex} {s : Side} {bytes : Bytes} {n : Nat}
    (h : d.write s bytes = (.done n, d')) :
    d'.toward s.other = d.toward s.other ++ bytes.take n ∧ d'.toward s = d.toward s := by
  simp only [write] at h
  split at h
  · cases h
  · split at h
    · cases h
    · cases h
      refine ⟨by simp [toward_setToward], ?_⟩
      rw [toward_setToward, if_neg (by cases s <;> decide)]

theorem take_read {d d' : Duplex} {s : Side} {size : Nat} {bytes : Bytes}
    (h : d.read s size = (.done (.data bytes), d')) :
    d.toward s = bytes ++ d'.toward s := by
  simp only [read] at h
  split at h
  · cases h
  · simp only [Channel.status] at h
    split at h
    · cases h
    · cases h
      simp [toward_setToward]

end Duplex

/-- A channel on each side of a pipe; none where it was let go of. -/
structure ChannelPair where
  pipe : Duplex
  channel : Side → Option (Channel Side)

namespace ChannelPair

def start (capacity : Nat) : ChannelPair :=
  ⟨Duplex.empty capacity, fun s => some (Channel.opened s.name s)⟩

def setChannel (p : ChannelPair) (s : Side) (c : Option (Channel Side)) : ChannelPair :=
  { p with channel := fun t => if t = s then c else p.channel t }

/-- Writes on a channel of the pair. -/
def write (p : ChannelPair) (c : Channel Side) (bytes : Bytes) : Attempt Nat × ChannelPair :=
  match c.stream? with
  | .error e => (.failed e, p)
  | .ok s =>
    let (r, d) := p.pipe.write s bytes
    (r, { p with pipe := d })

/-- Reads on a channel of the pair, waiting if need be. -/
def read (p : ChannelPair) (c : Channel Side) (size : Nat) :
    Attempt Frame.ReadStatus × ChannelPair :=
  match c.stream? with
  | .error e => (.failed e, p)
  | .ok s =>
    let (r, d) := p.pipe.read s size
    (r, { p with pipe := d })

/-- Reads on a channel of the pair what is there, without waiting. Mirrors `try_read`. -/
def tryRead (p : ChannelPair) (c : Channel Side) (size : Nat) :
    Attempt Frame.ReadStatus × ChannelPair :=
  match p.read c size with
  | (.waits, p) => (.done .empty, p)
  | r => r

/-- Writes what is left of a frame until it is out, an error comes or it would have to wait. -/
def transmit (p : ChannelPair) (c : Channel Side) : List Bytes → Attempt Unit × ChannelPair
  | [] => (.done (), p)
  | part :: parts =>
    match p.write c part with
    | (.failed e, p) => (.failed e, p)
    | (.waits, p) => (.waits, p)
    | (.done n, p) => if n < part.length then (.waits, p) else transmit p c parts

/-- Sends a payload as a frame. A part that does not fit fills the buffer, and its rest waits.
Mirrors `send_message`. -/
def send (p : ChannelPair) (c : Channel Side) (payload : Bytes) :
    Except LinkError (Attempt Unit × ChannelPair) :=
  (Frame.Outgoing.start payload).map fun o => p.transmit c o.parts

/-- Receives a frame. What is there is used for it, and nothing behind it. Mirrors
`recv_message`. -/
def receive (p : ChannelPair) (c : Channel Side) :
    Attempt (Except LinkError (Option Bytes)) × ChannelPair :=
  match c.stream? with
  | .error e => (.failed e, p)
  | .ok s =>
    let (fed, rest) := Frame.Intake.start.feed (p.pipe.toward s)
    let p := { p with pipe := p.pipe.setToward s rest }
    match fed with
    | .frame payload => (.done (.ok (some payload)), p)
    | .refused e => (.done (.error e), p)
    | .more i => if p.pipe.severed then (.done (i.ended c.name), p) else (.waits, p)

/-- Closes a side's channel, which severs the pipe. -/
def close (p : ChannelPair) (s : Side) (c : Channel Side) : ChannelPair :=
  { p.setChannel s (some c.close.1) with pipe := { p.pipe with severed := true } }

/-- Lets go of a side's channel, which severs the pipe. -/
def letGo (p : ChannelPair) (s : Side) : ChannelPair :=
  { p.setChannel s none with pipe := { p.pipe with severed := true } }

end ChannelPair
end CommandLink
