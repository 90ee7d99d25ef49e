import CommandLink.FileSystem
import CommandLink.User
/-!
# The machine an agent runs on

Files, running programs and a clock, as an agent meets them. Whatever is done to a running program
is noted, so that it can be told afterwards what an agent did.

Results:
* `acts_signal`, `acts_start`: each act is noted once, behind those before.
-/
namespace CommandLink

/-- What sending a signal comes to. -/
inductive Signalled where
  | delivered
  | noSuchPid
  | notPermitted
  deriving Repr, DecidableEq

/-- Something done to a running program. -/
inductive Act where
  /-- A signal was sent: to terminate, or only to see whether the program is there. -/
  | signal (pid : Nat) (terminate : Bool)
  | start (command : Path) (arguments : List String)
  deriving Repr, DecidableEq

structure Machine where
  files : FileSystem
  /-- Who everything here runs as. -/
  user : User
  /-- What sending a signal to a pid comes to. -/
  signalled : Nat → Signalled
  /-- Where commands are looked up. -/
  searched : List Path
  /-- The seconds since the epoch. -/
  clock : Nat
  acts : List Act

namespace Machine

/-- The greatest pid that a signal can be addressed to. -/
def maxPid : Nat := 0x7FFFFFFF

/-- Sends a signal. -/
def signal (m : Machine) (pid : Nat) (terminate : Bool) : Signalled × Machine :=
  (m.signalled pid, { m with acts := m.acts ++ [.signal pid terminate] })

/-- Whether a program with a pid runs, perhaps for somebody else. Mirrors `process_exists`. -/
def isAlive (m : Machine) (pid : Nat) : Bool × Machine :=
  if pid ≤ maxPid then
    let (s, m) := m.signal pid false
    (s != .noSuchPid, m)
  else (false, m)

/-- Starts a command with arguments. -/
def start (m : Machine) (command : Path) (arguments : List String) :
    Except IoError ProgramRun × Machine :=
  if arguments.any fun a => a.toList.any (· == '\x00') then
    (.error ⟨.invalidInput, "nul byte found in provided data"⟩, m)
  else
    (m.files.start m.searched command,
      { m with acts := m.acts ++ [.start command arguments] })

theorem acts_signal (m : Machine) (pid : Nat) (terminate : Bool) :
    (m.signal pid terminate).2.acts = m.acts ++ [.signal pid terminate] := rfl

theorem acts_start {m : Machine} {command : Path} {arguments : List String}
    (h : (arguments.any fun a => a.toList.any (· == '\x00')) = false) :
    (m.start command arguments).2.acts = m.acts ++ [.start command arguments] := by
  simp [start, h]

end Machine
end CommandLink
