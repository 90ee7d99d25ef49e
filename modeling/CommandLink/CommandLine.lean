import CommandLink.AgentConfig
import CommandLink.Request
import CommandLink.Response
/-!
# The command line

Two commands: one serves an agent until it is interrupted, the other sends one request and tells the
outcome. Options are written `--name value` or `--name=value`, in any order.

Results:
* `parameter_ok_iff`: which texts give a parameter, and which one.
* `codeOf_eq_zero_iff`: a request that was sent or answered well is a success, and nothing else.
-/
namespace CommandLink.CommandLine

inductive UsageError where
  | unknownArgument (text : String)
  | missingValue (option : String)
  | unexpectedValue (option : String)
  | repeated (option : String)
  | missing (option : String)
  | invalidValue (option value : String)
  | missingCommand
  deriving Repr, DecidableEq

def UsageError.message : UsageError → String
  | unknownArgument text => "unexpected argument '" ++ text ++ "'"
  | missingValue option => "a value is required for '--" ++ option ++ "'"
  | unexpectedValue option => "no value is allowed for '--" ++ option ++ "'"
  | repeated option => "'--" ++ option ++ "' cannot be used more than once"
  | missing option => "'--" ++ option ++ "' is required"
  | invalidValue option value => "invalid value '" ++ value ++ "' for '--" ++ option ++ "'"
  | missingCommand => "a command is required: serve or send"

/-- What an option takes. -/
inductive Takes where
  | nothing
  | value
  /-- A value, each time that the option is given. -/
  | values
  deriving Repr, DecidableEq

structure OptionSpec where
  name : String
  takes : Takes

/-- An option as it was given. -/
abbrev Given := String × String

/-- What stands before the first equals sign, and what stands behind it if there is one. -/
def splitChars : List Char → List Char × Option (List Char)
  | [] => ([], none)
  | c :: cs =>
    if c = '=' then ([], some cs)
    else
      let (front, behind) := splitChars cs
      (c :: front, behind)

def splitEquals (s : String) : String × Option String :=
  let (front, behind) := splitChars s.toList
  (String.ofList front, behind.map String.ofList)

/-- The name that an argument names an option by. -/
def optionText? (arg : String) : Option String :=
  match arg.toList with
  | '-' :: '-' :: rest => some (String.ofList rest)
  | _ => none

/-- Whether an argument can be a value, and be no option. -/
def isValue (arg : String) : Bool :=
  arg = "-" || arg.toList.head? ≠ some '-'

/-- Adds an option that was given. -/
def add (spec : OptionSpec) (value : String) (given : List Given) : Except UsageError (List Given) :=
  if spec.takes ≠ .values ∧ (given.lookup spec.name).isSome then .error (.repeated spec.name)
  else .ok (given ++ [(spec.name, value)])

/-- Reads options up to the first argument that is none. Gives that one and what is behind it. -/
def takeOptions (specs : List OptionSpec) (given : List Given) :
    List String → Except UsageError (List Given × List String)
  | [] => .ok (given, [])
  | "--" :: rest =>
    match rest with
    | [] => .ok (given, [])
    | arg :: _ => .error (.unknownArgument arg)
  | arg :: rest =>
    if isValue arg then .ok (given, arg :: rest)
    else match optionText? arg with
      | none => .error (.unknownArgument arg)
      | some text =>
        let (name, value) := splitEquals text
        match specs.find? (·.name == name), value, rest with
        | none, _, _ => .error (.unknownArgument arg)
        | some spec, some value, rest =>
          if spec.takes = .nothing then .error (.unexpectedValue name)
          else do takeOptions specs (← add spec value given) rest
        | some spec, none, [] =>
          if spec.takes = .nothing then do takeOptions specs (← add spec "" given) []
          else .error (.missingValue name)
        | some spec, none, value :: behind =>
          if spec.takes = .nothing then do takeOptions specs (← add spec "" given) (value :: behind)
          else if isValue value then do takeOptions specs (← add spec value given) behind
          else .error (.missingValue name)

/-- The value of an option that has to be given. -/
def required (given : List Given) (option : String) : Except UsageError String :=
  match given.lookup option with
  | some value => .ok value
  | none => .error (.missing option)

/-- A path that has to be given and cannot be empty. -/
def requiredPath (given : List Given) (option : String) : Except UsageError Path := do
  let value ← required given option
  if value.isEmpty then .error (.invalidValue option value) else .ok ⟨value⟩

/-- A parameter: what stands before the first equals sign, which cannot be nothing, and what stands
behind it. Mirrors `parse_param`. -/
def parameter (text : String) : Except UsageError (String × String) :=
  match splitEquals text with
  | (name, some value) =>
    if name.isEmpty then .error (.invalidValue "param" text) else .ok (name, value)
  | (_, none) => .error (.invalidValue "param" text)

structure SendOptions where
  properties : Path
  endpoint : EndpointName
  receiver : String
  action : String
  parameters : List (String × String)
  mode : DeliveryMode
  timeoutSeconds : Nat

inductive Command where
  | serve (config : Path)
  | send (o : SendOptions)

/-- How many seconds a response is waited for, unless something else is said. -/
def defaultTimeout : Nat := 30

/-- An option that can stand anywhere: how much is logged. -/
def logLevel : OptionSpec := ⟨"log-level", .value⟩

def serveSpecs : List OptionSpec := [logLevel, ⟨"config", .value⟩]

def sendSpecs : List OptionSpec :=
  [logLevel, ⟨"properties", .value⟩, ⟨"endpoint", .value⟩, ⟨"receiver", .value⟩,
    ⟨"action", .value⟩, ⟨"param", .values⟩, ⟨"no-response", .nothing⟩,
    ⟨"timeout-seconds", .value⟩]

/-- Reads options behind which nothing more stands. -/
def allOptions (specs : List OptionSpec) (args : List String) : Except UsageError (List Given) :=
  match takeOptions specs [] args with
  | .error e => .error e
  | .ok (given, []) => .ok given
  | .ok (_, arg :: _) => .error (.unknownArgument arg)

def serveCommand (given : List Given) : Except UsageError Command := do
  .ok (.serve (← requiredPath given "config"))

def timeoutOf (given : List Given) : Except UsageError Nat :=
  match given.lookup "timeout-seconds" with
  | none => .ok defaultTimeout
  | some text =>
    match Text.readNumeral? Text.max64 text with
    | some n => .ok n
    | none => .error (.invalidValue "timeout-seconds" text)

def endpointOf (given : List Given) : Except UsageError EndpointName := do
  let text ← required given "endpoint"
  match EndpointName.ofText? text with
  | some e => .ok e
  | none => .error (.invalidValue "endpoint" text)

def sendCommand (given : List Given) : Except UsageError Command := do
  let properties ← requiredPath given "properties"
  let endpoint ← endpointOf given
  let receiver ← required given "receiver"
  let action ← required given "action"
  let texts := (given.filter fun g => g.1 == "param").map Prod.snd
  let parameters ← texts.mapM parameter
  let mode := if (given.lookup "no-response").isSome then DeliveryMode.noResponse else .response
  .ok (.send ⟨properties, endpoint, receiver, action, parameters, mode, ← timeoutOf given⟩)

/-- Reads a whole command line, without the name of the program. -/
def parse (args : List String) : Except UsageError Command := do
  let (_, rest) ← takeOptions [logLevel] [] args
  match rest with
  | [] => .error .missingCommand
  | "serve" :: args => serveCommand (← allOptions serveSpecs args)
  | "send" :: args => sendCommand (← allOptions sendSpecs args)
  | arg :: _ => .error (.unknownArgument arg)

/-- The request that is to be sent. Mirrors `main` as far as it makes the request. -/
def SendOptions.request (o : SendOptions) : Request :=
  let r := Request.start o.endpoint o.receiver o.action
  { o.parameters.foldl (fun r p => r.setParameter p.1 p.2) r with mode := o.mode }

/-! ## What a command leaves behind -/

structure CommandEnd where
  exitCode : Nat
  stdout : String
  stderr : String
  deriving Repr, DecidableEq

/-- The exit code of a command line that could not be read. -/
def usageCode : Nat := 2

/-- The outcome of a request: none if it was sent and no response is expected. -/
def codeOf : Option Response → Nat
  | none => 0
  | some r => if r.verdict = .ok then 0 else 1

def outcomeText : Option Response → String
  | none => "sent"
  | some r => r.display

/-- What the outcome of a request is to the caller. Mirrors the end of `send`. -/
def CommandEnd.ofOutcome (outcome : Option Response) : CommandEnd :=
  ⟨codeOf outcome, outcomeText outcome ++ "\n", ""⟩

/-- Puts something before each line of a text: `first` before the first one. -/
def indented (first others text : String) : String :=
  match text.splitOn "\n" with
  | [] => first
  | line :: lines => first ++ line ++ String.join (lines.map fun l => "\n" ++ others ++ l)

/-- A number with blanks before it, five characters wide. -/
def numbered (n : Nat) : String :=
  let digits := Text.decimal n
  String.ofList (List.replicate (5 - digits.length) ' ') ++ digits ++ ": "

/-- Why something failed: the outermost reason, and below it its causes, numbered if there are
several. -/
def errorText (e : ConfigError) : String :=
  match e.chain with
  | [] => ""
  | [reason] => reason
  | [reason, cause] => reason ++ "\n\nCaused by:\n" ++ indented "    " "    " cause
  | reason :: causes =>
    reason ++ "\n\nCaused by:" ++ String.join (causes.zipIdx.map fun c =>
      "\n" ++ indented (numbered c.2) "       " c.1)

def CommandEnd.ofError (e : ConfigError) : CommandEnd := ⟨1, "", "Error: " ++ errorText e ++ "\n"⟩

def CommandEnd.ofUsage (e : UsageError) : CommandEnd := ⟨usageCode, "", "error: " ++ e.message ++ "\n"⟩

/-- The end of a command that was waited for too long. -/
def timedOut (seconds : Nat) : ConfigError :=
  ⟨["timed out after " ++ Text.decimal seconds ++ "s"]⟩

theorem codeOf_eq_zero_iff {outcome : Option Response} :
    codeOf outcome = 0 ↔ ∀ r, outcome = some r → r.verdict = .ok := by
  cases outcome with
  | none => simp [codeOf]
  | some r => simp [codeOf]

theorem splitChars_some_iff {cs name value : List Char} :
    splitChars cs = (name, some value) ↔ cs = name ++ '=' :: value ∧ '=' ∉ name := by
  induction cs generalizing name with
  | nil => simp [splitChars]
  | cons c cs ih =>
    simp only [splitChars]
    split
    · next hc =>
      subst hc
      cases name with
      | nil => simp [eq_comm]
      | cons d name => simp +contextual [eq_comm]
    · next hc =>
      cases name with
      | nil => simp [hc]
      | cons d name =>
        rcases h : splitChars cs with ⟨front, behind⟩
        simp only [Prod.mk.injEq, List.cons.injEq, List.cons_append, List.mem_cons, not_or]
        have := @ih name
        rw [h, Prod.mk.injEq] at this
        constructor
        · rintro ⟨⟨rfl, rfl⟩, rfl⟩
          obtain ⟨e, hn⟩ := this.1 ⟨rfl, rfl⟩
          exact ⟨⟨rfl, e⟩, Ne.symm hc, hn⟩
        · rintro ⟨⟨rfl, e⟩, _, hn⟩
          obtain ⟨hf, hb⟩ := this.2 ⟨e, hn⟩
          exact ⟨⟨rfl, hf⟩, hb⟩

theorem parameter_ok_iff {text name value : String} :
    parameter text = .ok (name, value) ↔
      text = name ++ "=" ++ value ∧ '=' ∉ name.toList ∧ name ≠ "" := by
  have key := @splitChars_some_iff text.toList name.toList value.toList
  have htext : text = name ++ "=" ++ value ↔ text.toList = name.toList ++ '=' :: value.toList := by
    rw [← String.toList_inj]
    simp
  rw [htext]
  simp only [parameter, splitEquals]
  rcases h : splitChars text.toList with ⟨front, behind⟩
  rw [h] at key
  cases behind with
  | none =>
    simp only [Option.map_none]
    constructor
    · intro e
      cases e
    · rintro ⟨e, hn, _⟩
      exact absurd (key.2 ⟨e, hn⟩) (by simp)
  | some behind =>
    simp only [Option.map_some]
    have heq : (front, some behind) = (name.toList, some value.toList) ↔
        String.ofList front = name ∧ String.ofList behind = value := by
      simp only [Prod.mk.injEq, Option.some.injEq]
      constructor
      · rintro ⟨rfl, rfl⟩
        simp
      · rintro ⟨rfl, rfl⟩
        simp
    split
    · next he =>
      constructor
      · intro e
        cases e
      · rintro ⟨e, hn, hne⟩
        obtain ⟨rfl, rfl⟩ := heq.1 (key.2 ⟨e, hn⟩)
        exact absurd (by simpa using he) hne
    · next he =>
      constructor
      · intro e
        cases e
        obtain ⟨e, hn⟩ := key.1 (heq.2 ⟨rfl, rfl⟩)
        exact ⟨e, hn, by simpa using he⟩
      · rintro ⟨e, hn, _⟩
        obtain ⟨rfl, rfl⟩ := heq.1 (key.2 ⟨e, hn⟩)
        rfl

end CommandLink.CommandLine
