import CommandLink.IoError
import CommandLink.SocketAddress
/-!
# What a machine has of a network

Which addresses a listener can take on a machine, and how far a connection gets from there. IPv4 and
IPv6 differ where no interface is up: nothing then tells whose an IPv4 address is, so a listener can
take any, while an IPv6 address is nobody's.

Results:
* `clashes_comm`: two addresses are in each other's way or neither is.
* `bindFault?_down_v4`, `connectFault?_down_v4`: without an interface any IPv4 address can be taken
  and none can be reached.
-/
namespace CommandLink

namespace IpAddress

/-- An IPv4 address that is written as an IPv6 one, as itself. -/
def unmapped : IpAddress → IpAddress
  | .v6 [0, 0, 0, 0, 0, 0xFFFF, a, b] _ => .v4 [a / 256, a % 256, b / 256, b % 256]
  | a => a

/-- Stands for all addresses of a machine. -/
def isAny (a : IpAddress) : Bool :=
  match a.unmapped with
  | .v4 bytes => bytes.all (· == 0)
  | .v6 groups _ => groups.all (· == 0)

/-- Leads back to the machine itself. -/
def isLoopback (a : IpAddress) : Bool :=
  match a.unmapped with
  | .v4 bytes => bytes.head? == some 127
  | .v6 groups _ => groups == [0, 0, 0, 0, 0, 0, 0, 1]

/-- Stands for a group of machines. -/
def isMulticast (a : IpAddress) : Bool :=
  match a.unmapped with
  | .v4 bytes => bytes.head?.any fun b => b / 16 == 14
  | .v6 groups _ => groups.head?.any fun g => g / 256 == 255

/-- Means something behind one interface alone, and nothing as long as that is not named. -/
def lacksScope (a : IpAddress) : Bool :=
  match a.unmapped with
  | .v4 _ => false
  | .v6 groups scope => groups.head?.any (fun g => g / 64 == 0x3FA) && scope == 0

/-- Two listeners at one port are in each other's way if they share an address. -/
def clashes (a b : IpAddress) : Bool :=
  a.unmapped == b.unmapped || a.isAny || b.isAny

theorem clashes_comm (a b : IpAddress) : a.clashes b = b.clashes a := by
  simp only [clashes, Bool.or_right_comm, Bool.beq_comm]

/-- The address that the name of a host stands for, as far as that is known without asking anybody. -/
def ofHost? (host : String) : Option IpAddress :=
  match SocketAddress.v4? host.toList, SocketAddress.v6? host.toList with
  | some bytes, _ => some (.v4 bytes)
  | none, some groups => some (.v6 groups 0)
  | none, none => if host = "localhost" then some .loopback else none

end IpAddress

/-- What a machine has of a network. -/
inductive Network where
  /-- No interface is up. -/
  | down
  /-- The machine can reach itself and nothing else. -/
  | loopback
  deriving Repr, DecidableEq

namespace Network

/-- The error of a host whose name nobody can be asked about. -/
def unknownHost : IoError :=
  ⟨.uncategorized, "failed to lookup address information: Temporary failure in name resolution"⟩

/-- Why a listener cannot take an address, if it cannot. -/
def bindFault? (n : Network) (a : IpAddress) : Option Errno :=
  match a.unmapped with
  | .v4 bytes =>
    if n = .down ∨ a.isAny ∨ a.isLoopback ∨ a.isMulticast ∨ bytes = [255, 255, 255, 255] then none
    else some .addressNotAvailable
  | .v6 _ _ =>
    if a.isAny then none
    else if a.isMulticast ∨ a.lacksScope then some .invalidArgument
    else if n = .loopback ∧ a.isLoopback then none
    else some .addressNotAvailable

/-- Why nobody can be reached at an address, if nobody can. -/
def connectFault? (n : Network) (a : IpAddress) : Option Errno :=
  match a.unmapped with
  | .v4 _ => if n = .loopback ∧ (a.isAny ∨ a.isLoopback) then none else some .networkUnreachable
  | .v6 _ _ =>
    if a.isMulticast then some .networkUnreachable
    else if a.lacksScope then some .invalidArgument
    else match n with
      | .down => some .addressNotAvailable
      | .loopback => if a.isAny ∨ a.isLoopback then none else some .networkUnreachable

theorem bindFault?_down_v4 (bytes : List Nat) : bindFault? .down (.v4 bytes) = none := by
  simp [bindFault?, IpAddress.unmapped]

theorem connectFault?_down_v4 (bytes : List Nat) :
    connectFault? .down (.v4 bytes) = some .networkUnreachable := by
  simp [connectFault?, IpAddress.unmapped]

end Network

end CommandLink
