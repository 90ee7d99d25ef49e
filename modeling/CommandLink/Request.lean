import CommandLink.Endpoint
import CommandLink.Text.Quoted
/-!
# Requests

What a client asks of a receiver behind an endpoint: an action with parameters. As a frame it is
one JSON object, which carries neither the destination nor how far the request has come.

Results:
* `parameter?_setParameter`: a parameter has the value set last.
* `encode_congr`: the frame depends on receiver, action, parameters and mode alone.
-/
namespace CommandLink

/-- Whether the sender waits for a response. -/
inductive DeliveryMode where
  | noResponse
  | response
  deriving Repr, BEq, DecidableEq

namespace DeliveryMode

def name : DeliveryMode → String
  | noResponse => "NO_RESPONSE_EXPECTED"
  | response => "RESPONSE_EXPECTED"

def all : List DeliveryMode := [noResponse, response]

/-- The word for a mode in an inspected request. -/
def word : DeliveryMode → String
  | noResponse => "NoResponseExpected"
  | response => "ResponseExpected"

/-- The modes under their names. -/
def named : List (String × DeliveryMode) := all.map fun m => (m.name, m)

def ofName? (s : String) : Option DeliveryMode := named.lookup s

theorem ofName?_name (m : DeliveryMode) : ofName? m.name = some m := by
  cases m <;> decide

end DeliveryMode

/-- How far a request has come. -/
inductive Progress where
  | created
  | enqueued
  | inFlight
  | completed
  | failed
  deriving Repr, BEq, DecidableEq

/-- The word for how far a request has come. -/
def Progress.word : Progress → String
  | created => "Created"
  | enqueued => "Enqueued"
  | inFlight => "InFlight"
  | completed => "Completed"
  | failed => "Failed"

/-- Someone who is told how a request ended. What a listener does is its own business; it may also
break down over it. -/
structure Listener where
  id : String
  breaksDown : Bool
  deriving Repr, BEq, DecidableEq

structure Request where
  receiver : String
  action : String
  parameters : Table String
  destination : EndpointName
  mode : DeliveryMode
  progress : Progress
  listeners : List Listener
  deriving DecidableEq

namespace Request

/-- A request as its sender starts it. Mirrors `Request.new`. -/
def start (destination : EndpointName) (receiver action : String) : Request :=
  ⟨receiver, action, .empty, destination, .response, .created, []⟩

/-- Mirrors `set_parameter`. -/
def setParameter (r : Request) (name value : String) : Request :=
  { r with parameters := r.parameters.insert name value }

/-- Mirrors `Request.parameter`. -/
def parameter? (r : Request) (name : String) : Option String :=
  r.parameters.get? name

/-- Mirrors `add_listener`. -/
def addListener (r : Request) (l : Listener) : Request :=
  { r with listeners := r.listeners ++ [l] }

/-- The frame of a request. Mirrors `encode_request`. -/
def encode (r : Request) : Bytes :=
  Json.writeObject [
    ("receiver", Json.writeText r.receiver),
    ("action", Json.writeText r.action),
    ("params", Json.writeTable r.parameters),
    ("mode", Json.writeText r.mode.name)]

structure Draft where
  receiver : Option String := none
  action : Option String := none
  parameters : Option (Table String) := none
  mode : Option DeliveryMode := none

/-- What a frame says of a request: receiver, action, parameters and mode. -/
def schema : Json.Schema Draft (String × String × Table String × DeliveryMode) where
  name := "RequestFrame"
  start := {}
  fields := [
    { name := "receiver"
      optional := false
      isSet := fun d => d.receiver.isSome
      read := fun d bs => do
        let (s, rest) ← Json.text "a string" bs
        .ok ({ d with receiver := some s }, rest) },
    { name := "action"
      optional := false
      isSet := fun d => d.action.isSome
      read := fun d bs => do
        let (s, rest) ← Json.text "a string" bs
        .ok ({ d with action := some s }, rest) },
    { name := "params"
      optional := true
      isSet := fun d => d.parameters.isSome
      read := fun d bs => do
        let (t, rest) ← Json.table bs
        .ok ({ d with parameters := some t }, rest) },
    { name := "mode"
      optional := true
      isSet := fun d => d.mode.isSome
      read := fun d bs => do
        let (m, rest) ← Json.variant DeliveryMode.named bs
        .ok ({ d with mode := some m }, rest) }]
  finish := fun d => do
    some (← d.receiver, ← d.action, d.parameters.getD .empty, d.mode.getD .response)

/-- Reads the frame of a request that arrived at a destination. Mirrors `decode_request`. -/
def decode (bs : Bytes) (destination : EndpointName) : Except LinkError Request :=
  match Json.parse schema.read bs with
  | .ok (receiver, action, parameters, mode) =>
    .ok ⟨receiver, action, parameters, destination, mode, .inFlight, []⟩
  | .error e => .error (.malformedFrame e)

/-- A request in full, as a person who looks for an error reads it. -/
def inspect (r : Request) : String :=
  let member := fun (e : String × String) => Text.quoted e.1 ++ ": " ++ Text.quoted e.2
  "Request \x7b receiver: " ++ Text.quoted r.receiver ++ ", action: " ++ Text.quoted r.action
    ++ ", params: \x7b" ++ String.intercalate ", " (r.parameters.entries.map member)
    ++ "\x7d, destination: EndpointName(" ++ Text.quoted r.destination.text ++ "), mode: "
    ++ r.mode.word ++ ", state: " ++ r.progress.word ++ ", listeners: "
    ++ Text.decimal r.listeners.length ++ " \x7d"

theorem parameter?_setParameter (r : Request) (k k' v : String) :
    (r.setParameter k v).parameter? k' = if k' = k then some v else r.parameter? k' :=
  r.parameters.get?_insert k k' v

theorem encode_congr {a b : Request} (hr : a.receiver = b.receiver) (ha : a.action = b.action)
    (hp : a.parameters = b.parameters) (hm : a.mode = b.mode) : a.encode = b.encode := by
  simp [encode, hr, ha, hp, hm]

end Request
end CommandLink
