import CommandLink.Json.Shape
import CommandLink.Json.Written
/-!
# Kinds of transport

The three ways an endpoint can be reached. Each has one name, which properties, messages and JSON
share.

Results:
* `ofName?_name`, `name_injective`: a name belongs to one kind and is read back as that kind.
-/
namespace CommandLink

inductive TransportKind where
  /-- A TCP port. -/
  | socket
  /-- A socket in the file system. -/
  | unixSocket
  /-- A named pipe, known on Windows only. -/
  | winPipe
  deriving Repr, BEq, DecidableEq

namespace TransportKind

/-- Mirrors `IpcType.as_str`. -/
def name : TransportKind → String
  | socket => "socket"
  | unixSocket => "unix-socket"
  | winPipe => "winpipe"

def all : List TransportKind := [socket, unixSocket, winPipe]

def ofName? (s : String) : Option TransportKind :=
  all.find? fun k => k.name == s

theorem ofName?_name (k : TransportKind) : ofName? k.name = some k := by
  cases k <;> decide

theorem name_injective {a b : TransportKind} (h : a.name = b.name) : a = b := by
  have := congrArg ofName? h
  rw [ofName?_name, ofName?_name] at this
  exact Option.some.inj this

/-- Reads a kind as a JSON variant. -/
def reader : Json.Reader TransportKind :=
  Json.variant (all.map fun k => (k.name, k))

def toJson (k : TransportKind) : Bytes :=
  Json.writeText k.name

end TransportKind
end CommandLink
