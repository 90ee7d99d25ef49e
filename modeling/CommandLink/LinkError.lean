import CommandLink.IoError
import CommandLink.Path
import CommandLink.TransportKind
/-!
# Errors of the link

Everything that can go wrong between a client and an agent, by cause. The wording of each cause
stands in one place.

Results:
* `not_isConfig_and_isConnection`: no error is both of the configuration and of a connection.
-/
namespace CommandLink

inductive LinkError where
  | invalidEndpointName (name : String)
  | unknownTransport (text : String)
  | noProvider (kind : TransportKind)
  | ambiguousProvider (kind : TransportKind) (count : Nat)
  | malformedProperties (path : Path) (reason : String)
  | unsupported (kind : TransportKind)
  | rendezvousMissing (dir : Path)
  | endpointMissing (name location : String)
  | ownershipMismatch (path : Path) (expected actual : Nat)
  | duplicateReceiver (name : String)
  | frameTooLarge (size : Nat)
  | malformedFrame (cause : Json.Error)
  | io (cause : IoError)
  deriving Repr, BEq

namespace LinkError

/-- The rule for endpoint names, as a refusal tells it. -/
def nameRule : String :=
  "must be non-empty and contain no '/', '\\', '.', NUL or newline"

def message : LinkError → String
  | invalidEndpointName name => "invalid endpoint name " ++ Text.quoted name ++ ": " ++ nameRule
  | unknownTransport text =>
    "unknown IPC type '" ++ text ++ "' (expected socket, unix-socket or winpipe)"
  | noProvider kind => "no properties provider handles IPC type " ++ kind.name
  | ambiguousProvider kind count =>
    Text.decimal count ++ " properties providers claim IPC type " ++ kind.name
  | malformedProperties path reason =>
    "malformed IPC properties in " ++ path.text ++ ": " ++ reason
  | unsupported kind => kind.name ++ " transport is not available on this platform"
  | rendezvousMissing dir =>
    "rendezvous point " ++ dir.text ++ " does not exist; is the agent running?"
  | endpointMissing name location => "endpoint '" ++ name ++ "' does not exist at " ++ location
  | ownershipMismatch path expected actual =>
    path.text ++ " is owned by uid " ++ Text.decimal actual ++ ", expected uid "
      ++ Text.decimal expected
  | duplicateReceiver name => "receiver '" ++ name ++ "' is already registered"
  | frameTooLarge size =>
    "frame of " ++ Text.decimal size ++ " bytes exceeds the maximum frame size"
  | malformedFrame cause => "malformed frame: " ++ cause.message
  | io cause => cause.text

/-- Whether the configuration is at fault, so that trying again is no use. Mirrors
`is_config_error`. -/
def isConfig : LinkError → Bool
  | invalidEndpointName _ | unknownTransport _ | noProvider _ | ambiguousProvider .. => true
  | malformedProperties .. | unsupported _ | duplicateReceiver _ => true
  | _ => false

/-- Whether the endpoint could not be found or not be trusted. Mirrors `is_connection_error`. -/
def isConnection : LinkError → Bool
  | rendezvousMissing _ | endpointMissing .. | ownershipMismatch .. => true
  | _ => false

theorem not_isConfig_and_isConnection (e : LinkError) : (e.isConfig && e.isConnection) = false := by
  cases e <;> rfl

end LinkError
end CommandLink
