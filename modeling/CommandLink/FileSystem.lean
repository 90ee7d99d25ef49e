import CommandLink.Lookup
import CommandLink.Path
import CommandLink.IoError
import CommandLink.Text.Utf8
/-!
# Files

As much of a file system as rendezvous needs: directories, files, symbolic links and sockets, each
with an owner and a mode, under places that are lists of names from the root. Paths are walked
name by name; a link is followed except, if so wanted, at the very end.

Whoever acts here may do everything but give nodes away, so modes are kept and never asked.

Results:
* `at?_put`, `at?_remove`: a change shows at its place and at no other.
-/
namespace CommandLink

/-- How a program ended. -/
inductive ExitStatus where
  | code (n : Nat)
  | signal (n : Nat)
  deriving Repr, DecidableEq

/-- What a program does once started: what it writes, and after how many milliseconds it closes its
two outputs and exits, each possibly never. -/
structure ProgramRun where
  stdout : Bytes
  stderr : Bytes
  stdoutEnds : Option Nat
  stderrEnds : Option Nat
  exits : Option (Nat × ExitStatus)
  deriving Repr, DecidableEq

inductive NodeKind where
  | directory
  | file (contents : Bytes)
  | program (run : ProgramRun)
  | symlink (target : Path)
  /-- A socket, bound by the listener of a number, if any ever was. -/
  | socket (listener : Option Nat)
  deriving Repr, DecidableEq

structure Node where
  kind : NodeKind
  uid : Nat
  mode : Nat
  deriving Repr, DecidableEq

/-- Names from the root. -/
abbrev Place := List String

structure FileSystem where
  nodes : List (Place × Node)
  /-- Where relative paths start. -/
  here : Place

namespace FileSystem

/-- The root is a directory even if nothing is said of it. -/
def rootNode : Node := ⟨.directory, 0, 0o755⟩

def at? (fs : FileSystem) (p : Place) : Option Node :=
  if p = [] then some rootNode else fs.nodes.lookup p

def put (fs : FileSystem) (p : Place) (n : Node) : FileSystem :=
  { fs with nodes := (p, n) :: fs.nodes.filter fun e => e.1 ≠ p }

def remove (fs : FileSystem) (p : Place) : FileSystem :=
  { fs with nodes := fs.nodes.filter fun e => e.1 ≠ p }

/-- Takes away a place with everything below it. -/
def removeTree (fs : FileSystem) (p : Place) : FileSystem :=
  { fs with nodes := fs.nodes.filter fun e => !p.isPrefixOf e.1 }

/-- How many links may be followed on one way. -/
def maxLinks : Nat := 40

/-- The greatest number of bytes of a name. -/
def maxName : Nat := 255

/-- The number of bytes that a whole path must stay below. -/
def maxPath : Nat := 4096

/-- The names along a path, dots included. A slash at the end is an empty name. -/
def names (p : Path) : List String :=
  ((Path.segments p.text.toList).filter fun s => s ≠ []).map String.ofList
    ++ if p.endsInSlash then [""] else []

/-- Walks from a directory along names. The last name may be missing; the place is that of the
last node, or where it would be. `follow` tells whether a link at the very end is followed,
`creating` whether a file is to be made there, which a slash behind it forbids, and `links` how many
links still may be followed. -/
def walk (fs : FileSystem) (follow creating : Bool) :
    Nat → Nat → Place → List String → Except Errno Place
  | _, _, base, [] => .ok base
  | 0, _, _, _ :: _ => .error .loop
  | fuel + 1, links, base, name :: rest =>
    if name = "" ∨ name = "." then walk fs follow creating fuel links base rest
    else if name = ".." then walk fs follow creating fuel links base.dropLast rest
    else if creating ∧ rest = [""] then .error .isDirectory
    else if name.utf8ByteSize > maxName then .error .nameTooLong
    else
      let there := base ++ [name]
      match fs.at? there with
      | none => if rest = [] then .ok there else .error .noEntry
      | some n =>
        match n.kind with
        | .directory => walk fs follow creating fuel links there rest
        | .symlink target =>
          if rest = [] ∧ !follow then .ok there
          else match links with
            | 0 => .error .loop
            | links + 1 => walk fs follow creating fuel links
              (if target.isAbsolute then [] else base) (names target ++ rest)
        | _ => if rest = [] then .ok there else .error .notDirectory

/-- The error of a path that no system call takes. -/
def nulError : IoError := ⟨.invalidInput, "file name contained an unexpected NUL byte"⟩

/-- Refuses a text that can be no path. -/
def checkPath (p : Path) : Except IoError Unit :=
  if p.text.toList.any (· == '\x00') then .error nulError
  else if p.text.isEmpty then .error Errno.noEntry.error
  else if p.text.utf8ByteSize ≥ maxPath then .error Errno.nameTooLong.error
  else .ok ()

/-- The place that a path leads to, where there may be nothing; `creating` tells whether a file is to
be made there. -/
def placeFor (fs : FileSystem) (follow creating : Bool) (p : Path) : Except IoError Place := do
  checkPath p
  let ns := names p
  let longest := (fs.nodes.map fun e => match e.2.kind with
    | .symlink t => (names t).length
    | _ => 0).foldl max 0
  (fs.walk follow creating (ns.length + maxLinks * longest) maxLinks
    (if p.isAbsolute then [] else fs.here) ns).mapError Errno.error

/-- The place that a path leads to, where there may be nothing. -/
def place (fs : FileSystem) (follow : Bool) (p : Path) : Except IoError Place :=
  fs.placeFor follow false p

/-- The node at a path; `follow` tells whether a link at the very end is followed. -/
def stat (fs : FileSystem) (follow : Bool) (p : Path) : Except IoError Node := do
  let there ← fs.place follow p
  match fs.at? there with
  | some n => .ok n
  | none => .error Errno.noEntry.error

def isDirectory (fs : FileSystem) (p : Path) : Bool :=
  match fs.stat true p with
  | .ok ⟨.directory, _, _⟩ => true
  | _ => false

/-- Makes one directory. -/
def makeDirectory (fs : FileSystem) (uid mode : Nat) (p : Path) : Except IoError FileSystem := do
  let there ← fs.place false p.bare
  match fs.at? there with
  | some _ => .error Errno.alreadyThere.error
  | none => .ok (fs.put there ⟨.directory, uid, mode⟩)

/-- Files after a change that may have failed halfway: what was done until then stays. -/
abbrev Changed := Except IoError Unit × FileSystem

/-- A change that is done in whole or not at all. -/
def changed (fs : FileSystem) : Except IoError FileSystem → Changed
  | .ok fs => (.ok (), fs)
  | .error e => (.error e, fs)

/-- Makes one directory, or finds it made. -/
def ensureDirectory (fs : FileSystem) (uid mode : Nat) (p : Path) : Changed :=
  match fs.makeDirectory uid mode p with
  | .ok fs => (.ok (), fs)
  | .error e => (if fs.isDirectory p then .ok () else .error e, fs)

/-- Makes a directory with all that is missing above it; `depth` bounds how far that goes. -/
def makeDirectoriesUpTo (uid mode : Nat) : Nat → FileSystem → Path → Changed
  | 0, fs, _ => (.error Errno.nameTooLong.error, fs)
  | depth + 1, fs, p =>
    if p.text.isEmpty then (.ok (), fs)
    else match fs.makeDirectory uid mode p with
      | .ok fs => (.ok (), fs)
      | .error e =>
        if e.kind = .notFound then
          match p.parent? with
          | none => (.error ⟨.other, "failed to create whole tree"⟩, fs)
          | some above =>
            match makeDirectoriesUpTo uid mode depth fs above with
            | (.ok (), fs) => fs.ensureDirectory uid mode p
            | failed => failed
        else (if fs.isDirectory p then .ok () else .error e, fs)

def makeDirectories (fs : FileSystem) (uid mode : Nat) (p : Path) : Changed :=
  makeDirectoriesUpTo uid mode (p.text.length + 1) fs p

/-- Gives the node at a path another mode. -/
def setMode (fs : FileSystem) (mode : Nat) (p : Path) : Except IoError FileSystem := do
  let there ← fs.place true p
  match fs.at? there with
  | some n => .ok (fs.put there { n with mode := mode })
  | none => .error Errno.noEntry.error

/-- Gives the node at a path, a link itself included, to a user. Nothing can be given away: only
whom it belongs to already is taken. -/
def give (fs : FileSystem) (uid : Nat) (p : Path) : Except IoError Unit := do
  let n ← fs.stat false p
  if n.uid = uid then .ok () else .error Errno.notPermitted.error

/-- Takes away what is no directory. -/
def unlink (fs : FileSystem) (p : Path) : Except IoError FileSystem := do
  let there ← fs.place false p
  match fs.at? there with
  | none => .error Errno.noEntry.error
  | some ⟨.directory, _, _⟩ => .error Errno.isDirectory.error
  | some _ => .ok (fs.remove there)

/-- Puts a new node, no directory, at a path where nothing is yet; `taken` is the error if something
is. -/
def create (fs : FileSystem) (taken : Errno) (n : Node) (p : Path) : Except IoError FileSystem := do
  let there ← fs.place false p.bare
  match fs.at? there with
  | some _ => .error taken.error
  | none => if p.endsInSlash then .error Errno.noEntry.error else .ok (fs.put there n)

/-- Makes a link to a path, whatever is there. -/
def makeLink (fs : FileSystem) (uid : Nat) (target p : Path) : Except IoError FileSystem := do
  checkPath target
  fs.create .alreadyThere ⟨.symlink target, uid, 0o777⟩ p

/-- Writes a file, which may be there already. -/
def write (fs : FileSystem) (uid : Nat) (contents : Bytes) (p : Path) :
    Except IoError FileSystem := do
  let there ← fs.placeFor true true p
  match fs.at? there with
  | none => .ok (fs.put there ⟨.file contents, uid, 0o644⟩)
  | some ⟨.directory, _, _⟩ => .error Errno.isDirectory.error
  | some ⟨.socket _, _, _⟩ => .error Errno.noDevice.error
  | some n => .ok (fs.put there { n with kind := .file contents })

/-- The text that a file's contents are. -/
def textOf (contents : Bytes) : Except IoError String :=
  match Text.Utf8.toText? contents with
  | some s => .ok s
  | none => .error ⟨.invalidData, "stream did not contain valid UTF-8"⟩

/-- Reads a file that holds text. -/
def readText (fs : FileSystem) (p : Path) : Except IoError String := do
  match (← fs.stat true p).kind with
  | .file contents => textOf contents
  | .program _ => .ok ""
  | .directory => .error Errno.isDirectory.error
  | .symlink _ => .error Errno.loop.error
  | .socket _ => .error Errno.noDevice.error

/-- Starts the program at a path. -/
def execute (fs : FileSystem) (p : Path) : Except IoError ProgramRun := do
  match (← fs.stat true p).kind with
  | .program run => .ok run
  | _ => .error Errno.accessDenied.error

/-- Starts a program by a command: the path of a program, or a name that is looked up in some
directories in turn. What may not be started there is remembered, and the search goes on. -/
def start (fs : FileSystem) (searched : List Path) (command : Path) : Except IoError ProgramRun :=
  if command.text.toList.any (· == '\x00') then
    .error ⟨.invalidInput, "nul byte found in provided data"⟩
  else if command.text.isEmpty then .error Errno.noEntry.error
  else if command.text.toList.any (· == '/') then fs.execute command
  else
    let found := searched.map fun dir => fs.execute (dir.join command)
    match found.find? fun r => r.toBool with
    | some r => r
    | none =>
      if found.any (fun r => match r with
        | .error e => e.kind == .permissionDenied
        | .ok _ => false)
      then .error Errno.accessDenied.error
      else (found.getLast?).getD (.error Errno.noEntry.error)

theorem lookup_nodes_ne {nodes : List (Place × Node)} {p q : Place} (h : q ≠ p) :
    (nodes.filter fun e => e.1 ≠ p).lookup q = nodes.lookup q := by
  rw [lookup_filter_key fun r => decide (r ≠ p), if_pos (by simpa using h)]

theorem lookup_nodes_self {nodes : List (Place × Node)} {p : Place} :
    (nodes.filter fun e => e.1 ≠ p).lookup p = none := by
  rw [lookup_filter_key fun r => decide (r ≠ p), if_neg (by simp)]

theorem at?_put (fs : FileSystem) {p q : Place} (n : Node) (hp : p ≠ []) :
    (fs.put p n).at? q = if q = p then some n else fs.at? q := by
  by_cases hq : q = []
  · subst hq
    simp [at?, Ne.symm hp]
  · simp only [at?, put, if_neg hq, List.lookup_cons]
    by_cases h : q = p
    · subst h
      rw [beq_self_eq_true, if_pos rfl]
    · have : (q == p) = false := by simpa using h
      rw [this, if_neg h]
      exact lookup_nodes_ne h

theorem at?_remove (fs : FileSystem) {p q : Place} (hp : p ≠ []) :
    (fs.remove p).at? q = if q = p then none else fs.at? q := by
  by_cases hq : q = []
  · subst hq
    simp [at?, Ne.symm hp]
  · simp only [at?, remove, if_neg hq]
    by_cases h : q = p
    · subst h
      rw [if_pos rfl]
      exact lookup_nodes_self
    · rw [if_neg h]
      exact lookup_nodes_ne h

end FileSystem
end CommandLink
