import CommandLink.FileSystem
import CommandLink.Properties
/-!
# Rendezvous in the file system

A listener and its clients meet at a socket in the user's own directory. The listener makes that
directory private and takes the place of whatever stands at the socket's path; a client trusts the
directory and the socket only if both belong to its user.

Results:
* `checkOwner_ok_iff`: a node passes exactly if it belongs to the user.
* `locate_trusted`: who finds a listener has found a directory and a socket of the user's own.
-/
namespace CommandLink.Rendezvous

/-- The number of bytes that the path of a socket must stay below. -/
def maxSocketPath : Nat := 108

/-- The modes of directories: a base directory, and the user's own, which is private. -/
def baseMode : Nat := 0o755
def privateMode : Nat := 0o700

/-- The mode of a socket. -/
def socketMode : Nat := 0o755

def liftIo {α : Type} : Except IoError α → Except LinkError α
  | .ok a => .ok a
  | .error e => .error (.io e)

/-- Mirrors `check_owner`. -/
def checkOwner (path : Path) (n : Node) (uid : Nat) : Except LinkError Unit :=
  if n.uid = uid then .ok () else .error (.ownershipMismatch path uid n.uid)

/-- Looks at a path itself, never at what a link there leads to; none if nothing is there. -/
def look (fs : FileSystem) (path : Path) : Except LinkError (Option Node) :=
  match fs.stat false path with
  | .ok n => .ok (some n)
  | .error e => if e.kind = .notFound then .ok none else .error (.io e)

/-- The error of a change of files that failed, if it failed. -/
def lift (c : FileSystem.Changed) : Except LinkError Unit × FileSystem :=
  (liftIo c.1, c.2)

/-- Makes the user's directory if need be, and makes sure that it is the user's and private. Mirrors
`prepare_user_dir`. -/
def prepareUserDir (fs : FileSystem) (dir : Path) (uid : Nat) : Except LinkError Unit × FileSystem :=
  let found : Except LinkError FileSystem := do
    match ← look fs dir with
    | some n =>
      if n.kind = .directory then
        checkOwner dir n uid
        .ok fs
      else .error (.io ⟨.alreadyExists, dir.text ++ " exists and is not a directory"⟩)
    | none => liftIo (fs.makeDirectory uid privateMode dir)
  match found with
  | .error e => (.error e, fs)
  | .ok fs => lift (fs.changed (fs.setMode privateMode dir))

/-- Takes away what stands at a socket's path, if it is the user's. Mirrors
`remove_stale_socket`. -/
def clear (fs : FileSystem) (path : Path) (uid : Nat) : Except LinkError FileSystem := do
  match ← look fs path with
  | none => .ok fs
  | some n =>
    checkOwner path n uid
    liftIo (fs.unlink path)

/-- The refusal of a path that no socket can have. -/
def pathTooLong : IoError := ⟨.invalidInput, "path must be shorter than SUN_LEN"⟩

/-- Binds a listener's socket to a path. -/
def bindSocket (fs : FileSystem) (uid listener : Nat) (path : Path) : Except IoError FileSystem :=
  if path.text.utf8ByteSize ≥ maxSocketPath then .error pathTooLong
  else fs.create .addressInUse ⟨.socket (some listener), uid, socketMode⟩ path

/-- Takes the place of whatever stands at a socket's path. -/
def takePlace (fs : FileSystem) (path : Path) (uid listener : Nat) :
    Except LinkError Unit × FileSystem :=
  match clear fs path uid with
  | .error e => (.error e, fs)
  | .ok fs => lift (fs.changed (bindSocket fs uid listener path))

/-- Binds a listener of a number to an endpoint: first the base directory, then the user's own, then
the socket. Mirrors `bind` of a socket in the file system. -/
def bind (fs : FileSystem) (user : User) (props : UnixSocketProperties) (e : EndpointName)
    (listener : Nat) : Except LinkError Unit × FileSystem :=
  match lift (fs.makeDirectories user.uid baseMode props.dir) with
  | (.error e, fs) => (.error e, fs)
  | (.ok (), fs) =>
    match prepareUserDir fs (props.userDir user) user.uid with
    | (.error e, fs) => (.error e, fs)
    | (.ok (), fs) => takePlace fs (props.socketPath user e) user.uid listener

/-- What a listener that closes does to its path: whatever stands there goes. Mirrors the end of
`accept_loop`. -/
def unbind (fs : FileSystem) (path : Path) : FileSystem :=
  match fs.unlink path with
  | .ok fs => fs
  | .error _ => fs

/-- The listener that a path leads to, if it is alive. -/
def listenerAt (fs : FileSystem) (alive : Nat → Bool) (path : Path) : Except IoError Nat := do
  if path.text.utf8ByteSize ≥ maxSocketPath then throw pathTooLong
  match (← fs.stat true path).kind with
  | .socket (some l) => if alive l then .ok l else .error Errno.connectionRefused.error
  | _ => .error Errno.connectionRefused.error

/-- Finds the listener at an endpoint, trusting nothing that is not the user's. Mirrors `connect` to
a socket in the file system. -/
def locate (fs : FileSystem) (user : User) (alive : Nat → Bool) (props : UnixSocketProperties)
    (e : EndpointName) : Except LinkError Nat := do
  let dir := props.userDir user
  let missing := LinkError.endpointMissing e.text dir.text
  match ← look fs dir with
  | none => .error (.rendezvousMissing dir)
  | some d =>
    if d.kind ≠ .directory then .error (.rendezvousMissing dir)
    else
      checkOwner dir d user.uid
      let path := props.socketPath user e
      match ← look fs path with
      | none => .error missing
      | some s =>
        checkOwner path s user.uid
        match s.kind with
        | .socket _ =>
          match listenerAt fs alive path with
          | .ok l => .ok l
          | .error e => if e.kind = .connectionRefused then .error missing else .error (.io e)
        | _ => .error missing

theorem checkOwner_ok_iff (path : Path) (n : Node) (uid : Nat) :
    checkOwner path n uid = .ok () ↔ n.uid = uid := by
  simp only [checkOwner]
  split
  · next h => simp [h]
  · next h => simp [h]

theorem look_eq_some {fs : FileSystem} {path : Path} {n : Node} (h : look fs path = .ok (some n)) :
    fs.stat false path = .ok n := by
  simp only [look] at h
  split at h
  · next hs =>
    cases h
    exact hs
  · split at h <;> cases h

theorem locate_trusted {fs : FileSystem} {user : User} {alive : Nat → Bool}
    {props : UnixSocketProperties} {e : EndpointName} {l : Nat}
    (h : locate fs user alive props e = .ok l) :
    ∃ d s b, fs.stat false (props.userDir user) = .ok d ∧ d.kind = .directory ∧ d.uid = user.uid
      ∧ fs.stat false (props.socketPath user e) = .ok s ∧ s.kind = .socket b ∧ s.uid = user.uid := by
  simp only [locate, Bind.bind, Except.bind] at h
  split at h
  · cases h
  · next od hd =>
    split at h
    · cases h
    · next d =>
      split at h
      · cases h
      · next hk =>
        split at h
        · cases h
        · next u hu =>
          split at h
          · cases h
          · next os hs =>
            split at h
            · cases h
            · next s =>
              split at h
              · cases h
              · next v hv =>
                split at h
                · next b hb =>
                  refine ⟨d, s, b, look_eq_some hd, Classical.not_not.1 hk,
                    (checkOwner_ok_iff _ _ _).1 hu, look_eq_some hs, hb,
                    (checkOwner_ok_iff _ _ _).1 hv⟩
                · cases h

end CommandLink.Rendezvous
