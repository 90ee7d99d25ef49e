import CommandLink.Proofs.Files.Site
/-!
# Files that belong to others

The system may refuse any call, by the owners and modes of what is on the way, and so may whoever
stands in between. A client only has the answers: what it sees at the path of the user's directory and
at that of the socket, where a link is seen itself and not followed, and what dialling came to. Which
answer it gives is settled by these three, and the first that is not as it should be decides.

Results:
* `locate_nothing`, `bind_nothing`: where nothing is refused, this is the rendezvous itself.
* `verdict_iff`: what a client finds, case by case.
* `locate_eq_ok_iff`, `rendezvousMissing_iff`, `ownershipMismatch_iff`, `endpointMissing_iff`,
  `io_iff`: exactly when it finds what.
-/
namespace CommandLink.Rendezvous

open FileSystem

/-- The calls to the system that meeting in the files takes, once there is a base directory. -/
inductive Call where
  | seeDir | makeDir | protectDir | seeSocket | clearSocket | bindSocket | dial

/-- What the system refuses, and how. -/
abbrev Refusals := Call → Option IoError

namespace Refusals

def nothing : Refusals := fun _ => none

variable (r : Refusals)

/-- What a call comes to. -/
def answer {α : Type} (c : Call) (granted : Except IoError α) : Except IoError α :=
  match r c with
  | some e => .error e
  | none => granted

/-- What is seen at the path of the user's directory, and at that of a socket. -/
def seeDir (m : Site) (fs : FileSystem) : Except IoError Node := r.answer .seeDir (fs.stat false m.dir)

def seeSocket (m : Site) (fs : FileSystem) (e : EndpointName) : Except IoError Node :=
  r.answer .seeSocket (fs.stat false (m.path e))

def dial (m : Site) (fs : FileSystem) (alive : Nat → Bool) (e : EndpointName) : Except IoError Nat :=
  r.answer .dial (listenerAt fs alive (m.path e))

/-- A node, or none if nothing is there. -/
def looked : Except IoError Node → Except LinkError (Option Node)
  | .ok n => .ok (some n)
  | .error e => if e.kind = .notFound then .ok none else .error (.io e)

/-- Finds the listener at an endpoint, once the directory is trusted. -/
def meet (m : Site) (fs : FileSystem) (alive : Nat → Bool) (e : EndpointName) :
    Except LinkError Nat := do
  let missing := LinkError.endpointMissing e.text m.dir.text
  match ← looked (r.seeSocket m fs e) with
  | none => .error missing
  | some s =>
    checkOwner (m.path e) s m.user.uid
    match s.kind with
    | .socket _ =>
      match r.dial m fs alive e with
      | .ok l => .ok l
      | .error e => if e.kind = .connectionRefused then .error missing else .error (.io e)
    | _ => .error missing

/-- Finds the listener at an endpoint. -/
def locate (m : Site) (fs : FileSystem) (alive : Nat → Bool) (e : EndpointName) :
    Except LinkError Nat := do
  match ← looked (r.seeDir m fs) with
  | none => .error (.rendezvousMissing m.dir)
  | some d =>
    if d.kind ≠ .directory then .error (.rendezvousMissing m.dir)
    else
      checkOwner m.dir d m.user.uid
      r.meet m fs alive e

/-- Makes sure of the user's directory. -/
def prepare (m : Site) (fs : FileSystem) : Except LinkError Unit × FileSystem :=
  let found : Except LinkError FileSystem := do
    match ← looked (r.seeDir m fs) with
    | some n =>
      if n.kind = .directory then
        checkOwner m.dir n m.user.uid
        .ok fs
      else .error (.io ⟨.alreadyExists, m.dir.text ++ " exists and is not a directory"⟩)
    | none => liftIo (r.answer .makeDir (fs.makeDirectory m.user.uid privateMode m.dir))
  match found with
  | .error e => (.error e, fs)
  | .ok fs => lift (fs.changed (r.answer .protectDir (fs.setMode privateMode m.dir)))

/-- Takes away what stands at a socket's path. -/
def clear (m : Site) (fs : FileSystem) (e : EndpointName) : Except LinkError FileSystem := do
  match ← looked (r.seeSocket m fs e) with
  | none => .ok fs
  | some n =>
    checkOwner (m.path e) n m.user.uid
    liftIo (r.answer .clearSocket (fs.unlink (m.path e)))

/-- Takes the place of whatever stands at a socket's path. -/
def take (m : Site) (fs : FileSystem) (e : EndpointName) (listener : Nat) :
    Except LinkError Unit × FileSystem :=
  match r.clear m fs e with
  | .error e => (.error e, fs)
  | .ok fs => lift (fs.changed
      (r.answer .bindSocket (Rendezvous.bindSocket fs m.user.uid listener (m.path e))))

/-- Binds a listener to an endpoint, once making the base directory came to something. -/
def bind (m : Site) (base : FileSystem.Changed) (e : EndpointName) (listener : Nat) :
    Except LinkError Unit × FileSystem :=
  match lift base with
  | (.error e, fs) => (.error e, fs)
  | (.ok (), fs) =>
    match r.prepare m fs with
    | (.error e, fs) => (.error e, fs)
    | (.ok (), fs) => r.take m fs e listener

variable {r} {m : Site} {fs : FileSystem} {alive : Nat → Bool} {e : EndpointName} {n : Nat}

theorem locate_nothing :
    nothing.locate m fs alive e = Rendezvous.locate fs m.user alive m.props e := by
  unfold locate meet Rendezvous.locate
  rfl

theorem prepare_nothing : nothing.prepare m fs = prepareUserDir fs m.dir m.user.uid := by
  unfold prepare prepareUserDir
  rfl

theorem take_nothing : nothing.take m fs e n = takePlace fs (m.path e) m.user.uid n := by
  unfold take clear takePlace Rendezvous.clear
  rfl

theorem bind_nothing : Rendezvous.bind fs m.user m.props e n
    = nothing.bind m (fs.makeDirectories m.user.uid baseMode m.props.dir) e n := by
  have hprepare (fs : FileSystem) :
      prepareUserDir fs (m.props.userDir m.user) m.user.uid = nothing.prepare m fs :=
    prepare_nothing.symm
  have htake (fs : FileSystem) :
      takePlace fs (m.props.socketPath m.user e) m.user.uid n = nothing.take m fs e n :=
    take_nothing.symm
  unfold Rendezvous.bind bind
  rcases hmade : lift (fs.makeDirectories m.user.uid baseMode m.props.dir) with ⟨c | ⟨⟩, made⟩
  · simp only
  · rcases hprepared : nothing.prepare m made with ⟨c | ⟨⟩, prepared⟩
    · simp only [hprepare, hprepared]
    · simp only [hprepare, hprepared, htake]

/-! ## What a client finds -/

/-- The user's directory is seen to be a directory of the user's own. -/
def OwnDir (m : Site) (dir : Except IoError Node) : Prop :=
  ∃ d, dir = .ok d ∧ d.kind = .directory ∧ d.uid = m.user.uid

/-- At its path a socket of the user's own is seen. -/
def OwnSocket (m : Site) (socket : Except IoError Node) : Prop :=
  ∃ s b, socket = .ok s ∧ s.kind = .socket b ∧ s.uid = m.user.uid

/-- What a client finds, by what it sees of the directory and of the socket, and what dialling came
to. -/
inductive Verdict (m : Site) (e : EndpointName) (dir socket : Except IoError Node)
    (dialled : Except IoError Nat) : Except LinkError Nat → Prop
  | noDir {c : IoError} (hd : dir = .error c) (hc : c.kind = .notFound) :
    Verdict m e dir socket dialled (.error (.rendezvousMissing m.dir))
  | unseenDir {c : IoError} (hd : dir = .error c) (hc : c.kind ≠ .notFound) :
    Verdict m e dir socket dialled (.error (.io c))
  | notDir {d : Node} (hd : dir = .ok d) (hk : d.kind ≠ .directory) :
    Verdict m e dir socket dialled (.error (.rendezvousMissing m.dir))
  | foreignDir {d : Node} (hd : dir = .ok d) (hk : d.kind = .directory) (hu : d.uid ≠ m.user.uid) :
    Verdict m e dir socket dialled (.error (.ownershipMismatch m.dir m.user.uid d.uid))
  | noSocket {c : IoError} (own : OwnDir m dir) (hs : socket = .error c) (hc : c.kind = .notFound) :
    Verdict m e dir socket dialled (.error (.endpointMissing e.text m.dir.text))
  | unseenSocket {c : IoError} (own : OwnDir m dir) (hs : socket = .error c)
      (hc : c.kind ≠ .notFound) : Verdict m e dir socket dialled (.error (.io c))
  | foreignSocket {s : Node} (own : OwnDir m dir) (hs : socket = .ok s) (hu : s.uid ≠ m.user.uid) :
    Verdict m e dir socket dialled (.error (.ownershipMismatch (m.path e) m.user.uid s.uid))
  | notSocket {s : Node} (own : OwnDir m dir) (hs : socket = .ok s) (hu : s.uid = m.user.uid)
      (hk : ∀ b, s.kind ≠ .socket b) :
    Verdict m e dir socket dialled (.error (.endpointMissing e.text m.dir.text))
  | refused {c : IoError} (own : OwnDir m dir) (hs : OwnSocket m socket) (hd : dialled = .error c)
      (hc : c.kind = .connectionRefused) :
    Verdict m e dir socket dialled (.error (.endpointMissing e.text m.dir.text))
  | unreached {c : IoError} (own : OwnDir m dir) (hs : OwnSocket m socket) (hd : dialled = .error c)
      (hc : c.kind ≠ .connectionRefused) : Verdict m e dir socket dialled (.error (.io c))
  | reached {l : Nat} (own : OwnDir m dir) (hs : OwnSocket m socket) (hd : dialled = .ok l) :
    Verdict m e dir socket dialled (.ok l)

/-- Of a directory that is trusted nothing more is asked. -/
theorem locate_of_ownDir (own : OwnDir m (r.seeDir m fs)) :
    r.locate m fs alive e = r.meet m fs alive e := by
  obtain ⟨d, hd, hk, hu⟩ := own
  simp only [locate, looked, hd, hk, checkOwner, if_pos hu, Bind.bind, Except.bind, ne_eq, not_true,
    if_false]

theorem verdict_meet (own : OwnDir m (r.seeDir m fs)) :
    Verdict m e (r.seeDir m fs) (r.seeSocket m fs e) (r.dial m fs alive e) (r.meet m fs alive e) := by
  unfold meet
  cases hs : r.seeSocket m fs e with
  | error c =>
    by_cases hc : c.kind = .notFound
    · simp only [looked, if_pos hc, Bind.bind, Except.bind]
      exact .noSocket own rfl hc
    · simp only [looked, if_neg hc, Bind.bind, Except.bind]
      exact .unseenSocket own rfl hc
  | ok s =>
    by_cases hu : s.uid = m.user.uid
    · simp only [looked, checkOwner, if_pos hu, Bind.bind, Except.bind]
      split
      · next b hk =>
        have hsocket : OwnSocket m (.ok s) := ⟨s, b, rfl, hk, hu⟩
        cases hd : r.dial m fs alive e with
        | ok l => exact .reached own hsocket rfl
        | error c =>
          by_cases hc : c.kind = .connectionRefused
          · simp only [if_pos hc]
            exact .refused own hsocket rfl hc
          · simp only [if_neg hc]
            exact .unreached own hsocket rfl hc
      · next hk => exact .notSocket own rfl hu hk
    · simp only [looked, checkOwner, if_neg hu, Bind.bind, Except.bind]
      exact .foreignSocket own rfl hu

theorem verdict_locate :
    Verdict m e (r.seeDir m fs) (r.seeSocket m fs e) (r.dial m fs alive e) (r.locate m fs alive e) := by
  cases hdir : r.seeDir m fs with
  | error c =>
    by_cases hc : c.kind = .notFound
    · simp only [locate, looked, hdir, if_pos hc, Bind.bind, Except.bind]
      exact .noDir rfl hc
    · simp only [locate, looked, hdir, if_neg hc, Bind.bind, Except.bind]
      exact .unseenDir rfl hc
  | ok d =>
    by_cases hk : d.kind = .directory
    · by_cases hu : d.uid = m.user.uid
      · have own : OwnDir m (r.seeDir m fs) := ⟨d, hdir, hk, hu⟩
        rw [locate_of_ownDir own, ← hdir]
        exact verdict_meet own
      · simp only [locate, looked, hdir, hk, checkOwner, if_neg hu, Bind.bind, Except.bind, ne_eq,
          not_true, if_false]
        exact .foreignDir rfl hk hu
    · simp only [locate, looked, hdir, if_pos hk, Bind.bind, Except.bind]
      exact .notDir rfl hk

theorem locate_of_verdict {v : Except LinkError Nat}
    (h : Verdict m e (r.seeDir m fs) (r.seeSocket m fs e) (r.dial m fs alive e) v) :
    r.locate m fs alive e = v := by
  cases h with
  | noDir hd hc => simp only [locate, looked, hd, if_pos hc, Bind.bind, Except.bind]
  | unseenDir hd hc => simp only [locate, looked, hd, if_neg hc, Bind.bind, Except.bind]
  | notDir hd hk => simp only [locate, looked, hd, if_pos hk, Bind.bind, Except.bind]
  | foreignDir hd hk hu =>
    simp only [locate, looked, hd, hk, checkOwner, if_neg hu, Bind.bind, Except.bind, ne_eq, not_true,
      if_false]
  | noSocket own hs hc =>
    rw [locate_of_ownDir own]
    simp only [meet, looked, hs, if_pos hc, Bind.bind, Except.bind]
  | unseenSocket own hs hc =>
    rw [locate_of_ownDir own]
    simp only [meet, looked, hs, if_neg hc, Bind.bind, Except.bind]
  | foreignSocket own hs hu =>
    rw [locate_of_ownDir own]
    simp only [meet, looked, hs, checkOwner, if_neg hu, Bind.bind, Except.bind]
  | notSocket own hs hu hk =>
    rw [locate_of_ownDir own]
    simp only [meet, looked, hs, checkOwner, if_pos hu, Bind.bind, Except.bind]
  | refused own hs hd hc =>
    obtain ⟨s, b, hs, hk, hu⟩ := hs
    rw [locate_of_ownDir own]
    simp only [meet, looked, hs, hk, checkOwner, if_pos hu, hd, if_pos hc, Bind.bind, Except.bind]
  | unreached own hs hd hc =>
    obtain ⟨s, b, hs, hk, hu⟩ := hs
    rw [locate_of_ownDir own]
    simp only [meet, looked, hs, hk, checkOwner, if_pos hu, hd, if_neg hc, Bind.bind, Except.bind]
  | reached own hs hd =>
    obtain ⟨s, b, hs, hk, hu⟩ := hs
    rw [locate_of_ownDir own]
    simp only [meet, looked, hs, hk, checkOwner, if_pos hu, hd, Bind.bind, Except.bind]

/-- The answers settle what a client finds, case by case. -/
theorem verdict_iff {v : Except LinkError Nat} : r.locate m fs alive e = v
    ↔ Verdict m e (r.seeDir m fs) (r.seeSocket m fs e) (r.dial m fs alive e) v :=
  ⟨fun h => h ▸ verdict_locate, locate_of_verdict⟩

theorem locate_eq_ok_iff {l : Nat} : r.locate m fs alive e = .ok l
    ↔ OwnDir m (r.seeDir m fs) ∧ OwnSocket m (r.seeSocket m fs e) ∧ r.dial m fs alive e = .ok l := by
  rw [verdict_iff]
  constructor
  · intro h
    cases h with
    | reached own hs hd => exact ⟨own, hs, hd⟩
  · rintro ⟨own, hs, hd⟩
    exact .reached own hs hd

/-- Exactly then the rendezvous is said to be missing. -/
theorem rendezvousMissing_iff {p : Path} :
    r.locate m fs alive e = .error (.rendezvousMissing p) ↔ p = m.dir
      ∧ ((∃ c, r.seeDir m fs = .error c ∧ c.kind = .notFound)
        ∨ ∃ d, r.seeDir m fs = .ok d ∧ d.kind ≠ .directory) := by
  rw [verdict_iff]
  constructor
  · intro h
    cases h with
    | noDir hd hc => exact ⟨rfl, .inl ⟨_, hd, hc⟩⟩
    | notDir hd hk => exact ⟨rfl, .inr ⟨_, hd, hk⟩⟩
  · rintro ⟨rfl, ⟨c, hd, hc⟩ | ⟨d, hd, hk⟩⟩
    · exact .noDir hd hc
    · exact .notDir hd hk

/-- Exactly then the directory, or else what stands at the path, is said to be another user's. -/
theorem ownershipMismatch_iff {p : Path} {expected actual : Nat} :
    r.locate m fs alive e = .error (.ownershipMismatch p expected actual)
      ↔ expected = m.user.uid ∧ actual ≠ m.user.uid
        ∧ ((p = m.dir ∧ ∃ d, r.seeDir m fs = .ok d ∧ d.kind = .directory ∧ d.uid = actual)
          ∨ (p = m.path e ∧ OwnDir m (r.seeDir m fs)
            ∧ ∃ s, r.seeSocket m fs e = .ok s ∧ s.uid = actual)) := by
  rw [verdict_iff]
  constructor
  · intro h
    cases h with
    | foreignDir hd hk hu => exact ⟨rfl, hu, .inl ⟨rfl, _, hd, hk, rfl⟩⟩
    | foreignSocket own hs hu => exact ⟨rfl, hu, .inr ⟨rfl, own, _, hs, rfl⟩⟩
  · rintro ⟨rfl, hu, ⟨rfl, d, hd, hk, rfl⟩ | ⟨rfl, own, s, hs, rfl⟩⟩
    · exact .foreignDir hd hk hu
    · exact .foreignSocket own hs hu

/-- Exactly then the endpoint is said to be missing. -/
theorem endpointMissing_iff {name location : String} :
    r.locate m fs alive e = .error (.endpointMissing name location)
      ↔ name = e.text ∧ location = m.dir.text ∧ OwnDir m (r.seeDir m fs)
        ∧ ((∃ c, r.seeSocket m fs e = .error c ∧ c.kind = .notFound)
          ∨ (∃ s, r.seeSocket m fs e = .ok s ∧ s.uid = m.user.uid ∧ ∀ b, s.kind ≠ .socket b)
          ∨ (OwnSocket m (r.seeSocket m fs e)
            ∧ ∃ c, r.dial m fs alive e = .error c ∧ c.kind = .connectionRefused)) := by
  rw [verdict_iff]
  constructor
  · intro h
    cases h with
    | noSocket own hs hc => exact ⟨rfl, rfl, own, .inl ⟨_, hs, hc⟩⟩
    | notSocket own hs hu hk => exact ⟨rfl, rfl, own, .inr (.inl ⟨_, hs, hu, hk⟩)⟩
    | refused own hs hd hc => exact ⟨rfl, rfl, own, .inr (.inr ⟨hs, _, hd, hc⟩)⟩
  · rintro ⟨rfl, rfl, own, ⟨c, hs, hc⟩ | ⟨s, hs, hu, hk⟩ | ⟨hs, c, hd, hc⟩⟩
    · exact .noSocket own hs hc
    · exact .notSocket own hs hu hk
    · exact .refused own hs hd hc

/-- Exactly then an error of the system stays what it is. -/
theorem io_iff {c : IoError} : r.locate m fs alive e = .error (.io c)
    ↔ (r.seeDir m fs = .error c ∧ c.kind ≠ .notFound)
      ∨ (OwnDir m (r.seeDir m fs)
        ∧ ((r.seeSocket m fs e = .error c ∧ c.kind ≠ .notFound)
          ∨ (OwnSocket m (r.seeSocket m fs e) ∧ r.dial m fs alive e = .error c
            ∧ c.kind ≠ .connectionRefused))) := by
  rw [verdict_iff]
  constructor
  · intro h
    cases h with
    | unseenDir hd hc => exact .inl ⟨hd, hc⟩
    | unseenSocket own hs hc => exact .inr ⟨own, .inl ⟨hs, hc⟩⟩
    | unreached own hs hd hc => exact .inr ⟨own, .inr ⟨hs, hd, hc⟩⟩
  · rintro (⟨hd, hc⟩ | ⟨own, ⟨hs, hc⟩ | ⟨hs, hd, hc⟩⟩)
    · exact .unseenDir hd hc
    · exact .unseenSocket own hs hc
    · exact .unreached own hs hd hc

end Refusals
end CommandLink.Rendezvous
