import CommandLink.Proofs.Files.Refusals
/-!
# Directories and sockets of the user's own

A listener trusts no more than a client does. It takes a directory that is there only if it is the
user's own, takes the place of nothing that is another user's, and in the end stands in a private
directory with its socket, whatever it cleared away for it.

Results:
* `prepare_ok`, `take_ok`: what stands where a listener has been bound.
* `bind_foreignDir`, `bind_foreignSocket`: what belongs to another user is left and refused.
* `fails_closed`: whom clients and listeners of a site trust.
-/
namespace CommandLink.Rendezvous

open FileSystem

variable {m : Site} {fs fs' mid : FileSystem} {e : EndpointName} {n mode : Nat} {d p q : Place}
  {path : Path}

theorem place_of_stat {node : Node} (h : fs.stat false path = .ok node) :
    ∃ p, fs.place false path = .ok p ∧ fs.at? p = some node :=
  place_of_look (by rw [look, h])

namespace Site

/-- The user's directory is a directory of the user's own, and this is its place. -/
structure DirAt (m : Site) (fs : FileSystem) (d : Place) (mode : Nat) : Prop where
  place : fs.place false m.dir = .ok d
  node : fs.at? d = some ⟨.directory, m.user.uid, mode⟩

theorem DirAt.stat (h : m.DirAt fs d mode) :
    fs.stat false m.dir = .ok ⟨.directory, m.user.uid, mode⟩ :=
  stat_of_some h.place h.node

theorem exists_dirAt (h : Refusals.OwnDir m (fs.stat false m.dir)) : ∃ d mode, m.DirAt fs d mode := by
  obtain ⟨⟨kind, uid, mode⟩, hstat, rfl, rfl⟩ := h
  obtain ⟨d, hplace, hnode⟩ := place_of_stat hstat
  exact ⟨d, mode, hplace, hnode⟩

theorem DirAt.ne_nil (h : m.DirAt fs d mode) : d ≠ [] := by
  obtain ⟨-, hl⟩ := place_ok_iff.1 h.place
  rw [names_dir] at hl
  obtain ⟨-, b, rfl⟩ := hl.ends (enterable m.plain)
  simp

theorem DirAt.kind (h : m.DirAt fs d mode) : fs.kind? d = some .directory := by
  rw [kind?, h.node]
  rfl

/-- Its socket stands in the directory itself. -/
theorem DirAt.within (h : m.DirAt fs d mode) (hp : fs.place false (m.path e) = .ok p) :
    p = d ++ [e.text] := by
  obtain ⟨-, hl⟩ := place_ok_iff.1 h.place
  obtain ⟨-, hlp⟩ := place_ok_iff.1 hp
  rw [names_path, start_path] at hlp
  obtain ⟨d', hd', rfl⟩ := hlp.before (enterable e.plain)
  rw [hd'.unique (hl.followed fun t ht => by rw [h.kind] at ht; cases ht)]

theorem DirAt.ne_of_path (h : m.DirAt fs d mode) (hp : fs.place false (m.path e) = .ok p) : p ≠ d := by
  rw [h.within hp]
  simp

/-- Another mode is all that setting one changes. -/
theorem DirAt.setMode (h : m.DirAt fs d mode) (mode' : Nat) :
    ∃ fs', fs.setMode mode' m.dir = .ok fs' ∧ m.DirAt fs' d mode' ∧ ∀ q, q ≠ d → fs'.at? q = fs.at? q := by
  have hfollowed : fs.place true m.dir = .ok d := by
    obtain ⟨hcheck, hl⟩ := place_ok_iff.1 h.place
    exact place_ok_iff.2 ⟨hcheck, hl.followed fun t ht => by rw [h.kind] at ht; cases ht⟩
  have hset : fs.setMode mode' m.dir = .ok (fs.put d ⟨.directory, m.user.uid, mode'⟩) := by
    rw [FileSystem.setMode, hfollowed]
    simp only [Bind.bind, Except.bind, h.node]
  refine ⟨_, hset, ⟨(setMode_grown hset).keeps.place h.place, ?_⟩, fun q hq => ?_⟩
  · rw [at?_put fs _ h.ne_nil, if_pos rfl]
  · rw [at?_put fs _ h.ne_nil, if_neg hq]

theorem dirAt_of_makeDirectory (h : fs.makeDirectory m.user.uid mode m.dir = .ok fs') :
    ∃ d, m.DirAt fs' d mode := by
  have hkeeps := (makeDirectory_grown h).keeps
  obtain ⟨there, hplace, hnone, rfl⟩ := makeDirectory_eq_ok_iff.1 h
  rw [Path.bare_of_not_endsInSlash m.endsInSlash_dir] at hplace
  exact ⟨there, hkeeps.place hplace, by rw [at?_put fs _ (ne_nil_of_at?_eq_none hnone), if_pos rfl]⟩

/-- Something in the directory is taken away. As long as the socket's path leads somewhere, the way to
the directory did not go through what is gone. -/
theorem DirAt.remove (h : m.DirAt fs d mode) (hp : p ≠ []) (hpd : p ≠ d)
    (hq : (fs.remove p).place false (m.path e) = .ok q) : m.DirAt (fs.remove p) d mode := by
  obtain ⟨hcheck, hl⟩ := place_ok_iff.1 hq
  rw [names_path, start_path] at hl
  obtain ⟨d', hd', -⟩ := hl.before (enterable e.plain)
  obtain ⟨d'', hd''⟩ := hd'.unfollowed
  have hplace : (fs.remove p).place false m.dir = .ok d'' :=
    place_ok_iff.2 ⟨(place_ok_iff.1 h.place).1, hd''⟩
  have hsame := place_of_remove hp hplace
  rw [h.place] at hsame
  cases hsame
  exact ⟨hplace, by rw [at?_remove fs hp, if_neg hpd.symm, h.node]⟩

/-- Something comes in the directory where nothing was. -/
theorem DirAt.put_socket (h : m.DirAt fs d mode) (hq : fs.at? q = none) (b : Option Nat)
    (uid mode' : Nat) : m.DirAt (fs.put q ⟨.socket b, uid, mode'⟩) d mode := by
  have hface : fs.face? q = none := by rw [face?, hq]; rfl
  have hchanged : fs.ChangedAt (fs.put q ⟨.socket b, uid, mode'⟩) q (some (.socket b, uid)) :=
    changedAt_put_socket (by simp [hface]) (by simp [hface]) b uid mode'
  refine ⟨hchanged.keeps.place h.place, ?_⟩
  have hdq : d ≠ q := by
    rintro rfl
    rw [h.node] at hq
    cases hq
  rw [at?_put fs _ (ne_nil_of_at?_eq_none hq), if_neg hdq, h.node]

end Site

namespace Refusals
variable {r : Refusals} {alive : Nat → Bool}

theorem answer_eq_ok {α : Type} {c : Call} {granted : Except IoError α} {a : α}
    (h : r.answer c granted = .ok a) : r c = none ∧ granted = .ok a := by
  unfold answer at h
  split at h
  · cases h
  · next hnone => exact ⟨hnone, h⟩

theorem answer_of_none {α : Type} {c : Call} (h : r c = none) (granted : Except IoError α) :
    r.answer c granted = granted := by
  rw [answer, h]

theorem changed_eq_ok {a : Except IoError FileSystem}
    (h : lift (fs.changed a) = (.ok (), fs')) : a = .ok fs' := by
  cases a with
  | ok mid =>
    cases h
    rfl
  | error c => cases h

theorem OwnDir.of_seeDir (h : OwnDir m (r.seeDir m fs)) :
    r .seeDir = none ∧ OwnDir m (fs.stat false m.dir) := by
  obtain ⟨d, hd, hk, hu⟩ := h
  obtain ⟨hnone, hstat⟩ := answer_eq_ok hd
  exact ⟨hnone, d, hstat, hk, hu⟩

/-! ## The directory -/

theorem prepare_of_ownDir (h : OwnDir m (r.seeDir m fs)) :
    r.prepare m fs = lift (fs.changed (r.answer .protectDir (fs.setMode privateMode m.dir))) := by
  obtain ⟨d, hd, hk, hu⟩ := h
  simp only [prepare, hd, looked, Bind.bind, Except.bind, if_pos hk, checkOwner, if_pos hu]

/-- A directory that was made sure of was not there or the user's own before, and is the user's own
and private. -/
theorem prepare_ok (h : r.prepare m fs = (.ok (), mid)) :
    ((∃ c, r.seeDir m fs = .error c ∧ c.kind = .notFound) ∨ OwnDir m (r.seeDir m fs))
      ∧ ∃ d, m.DirAt mid d privateMode := by
  have settled {mid₀ : FileSystem} {d : Place} {mode : Nat} (hdir : m.DirAt mid₀ d mode)
      (h : lift (mid₀.changed (r.answer .protectDir (mid₀.setMode privateMode m.dir))) = (.ok (), mid)) :
      ∃ d, m.DirAt mid d privateMode := by
    obtain ⟨-, hset⟩ := answer_eq_ok (changed_eq_ok h)
    obtain ⟨fs', hset', hdir', -⟩ := hdir.setMode privateMode
    rw [hset] at hset'
    cases hset'
    exact ⟨d, hdir'⟩
  cases hsee : r.seeDir m fs with
  | ok node =>
    by_cases hk : node.kind = .directory
    · by_cases hu : node.uid = m.user.uid
      · have hown : OwnDir m (r.seeDir m fs) := ⟨node, hsee, hk, hu⟩
        obtain ⟨d, mode, hdir⟩ := Site.exists_dirAt hown.of_seeDir.2
        rw [prepare_of_ownDir hown] at h
        exact ⟨.inr (hsee ▸ hown), settled hdir h⟩
      · simp [prepare, hsee, looked, Bind.bind, Except.bind, hk, checkOwner, hu] at h
    · simp [prepare, hsee, looked, Bind.bind, Except.bind, hk] at h
  | error c =>
    by_cases hc : c.kind = .notFound
    · simp only [prepare, hsee, looked, if_pos hc, Bind.bind, Except.bind] at h
      cases hmade : r.answer .makeDir (fs.makeDirectory m.user.uid privateMode m.dir) with
      | error c => simp [hmade, liftIo] at h
      | ok mid₀ =>
        simp only [hmade, liftIo] at h
        obtain ⟨d, hdir⟩ := Site.dirAt_of_makeDirectory (answer_eq_ok hmade).2
        exact ⟨.inl ⟨c, rfl, hc⟩, settled hdir h⟩
    · simp [prepare, hsee, looked, hc, Bind.bind, Except.bind] at h

/-! ## The socket -/

theorem unlink_ok (h : fs.unlink path = .ok mid) :
    ∃ p, fs.place false path = .ok p ∧ mid = fs.remove p ∧ p ≠ [] := by
  cases hplace : fs.place false path with
  | error c =>
    rw [unlink, hplace] at h
    cases h
  | ok p =>
    rw [unlink_of_place hplace] at h
    split at h
    · cases h
    · cases h
    · next node hnot hnode =>
      refine ⟨p, rfl, (Except.ok.inj h).symm, ?_⟩
      rintro rfl
      exact hnot _ _ (Option.some.inj hnode).symm

theorem bindSocket_ok {uid : Nat} (hslash : path.endsInSlash = false)
    (h : Rendezvous.bindSocket fs uid n path = .ok fs') : ∃ q, fs.place false path = .ok q
      ∧ fs.at? q = none ∧ fs' = fs.put q ⟨.socket (some n), uid, socketMode⟩ := by
  unfold Rendezvous.bindSocket at h
  split at h
  · cases h
  · cases hplace : fs.place false path with
    | error c => simp [create, Path.bare_of_not_endsInSlash hslash, hplace, Bind.bind, Except.bind] at h
    | ok q =>
      cases hat : fs.at? q with
      | some node =>
        simp [create, Path.bare_of_not_endsInSlash hslash, hplace, hat, Bind.bind, Except.bind] at h
      | none =>
        simp only [create, Path.bare_of_not_endsInSlash hslash, hplace, hat, hslash, Bind.bind,
          Except.bind, Bool.false_eq_true, if_false, Except.ok.injEq] at h
        exact ⟨q, rfl, hat, h.symm⟩

/-- What is cleared away was the user's, and the way to the directory is left as long as one to the
socket is. -/
theorem clear_ok (hdir : m.DirAt fs d mode) (h : r.clear m fs e = .ok mid) :
    ((∃ c, r.seeSocket m fs e = .error c ∧ c.kind = .notFound)
      ∨ ∃ s, r.seeSocket m fs e = .ok s ∧ s.uid = m.user.uid)
      ∧ ∀ q, mid.place false (m.path e) = .ok q → m.DirAt mid d mode := by
  cases hsee : r.seeSocket m fs e with
  | error c =>
    by_cases hc : c.kind = .notFound
    · simp only [clear, hsee, looked, if_pos hc, Bind.bind, Except.bind, Except.ok.injEq] at h
      exact ⟨.inl ⟨c, rfl, hc⟩, fun _ _ => h ▸ hdir⟩
    · simp [clear, hsee, looked, hc, Bind.bind, Except.bind] at h
  | ok s =>
    by_cases hu : s.uid = m.user.uid
    · simp only [clear, hsee, looked, checkOwner, if_pos hu, Bind.bind, Except.bind] at h
      cases hgone : r.answer .clearSocket (fs.unlink (m.path e)) with
      | error c => simp [hgone, liftIo] at h
      | ok mid₀ =>
        simp only [hgone, liftIo, Except.ok.injEq] at h
        subst h
        obtain ⟨p, hp, rfl, hne⟩ := unlink_ok (answer_eq_ok hgone).2
        exact ⟨.inr ⟨s, rfl, hu⟩, fun q hq => hdir.remove hne (hdir.ne_of_path hp) hq⟩
    · simp [clear, hsee, looked, checkOwner, hu, Bind.bind, Except.bind] at h

/-- Where a listener took its place, its socket stands in the user's own directory. -/
theorem take_ok (hdir : m.DirAt fs d mode) (h : r.take m fs e n = (.ok (), fs')) :
    ((∃ c, r.seeSocket m fs e = .error c ∧ c.kind = .notFound)
      ∨ ∃ s, r.seeSocket m fs e = .ok s ∧ s.uid = m.user.uid)
      ∧ m.DirAt fs' d mode
      ∧ fs'.stat false (m.path e) = .ok ⟨.socket (some n), m.user.uid, socketMode⟩ := by
  unfold take at h
  cases hclear : r.clear m fs e with
  | error c => simp [hclear] at h
  | ok mid =>
    simp only [hclear] at h
    obtain ⟨hseen, hkept⟩ := clear_ok hdir hclear
    obtain ⟨-, hbound⟩ := answer_eq_ok (changed_eq_ok h)
    obtain ⟨q, hq, hnone, rfl⟩ := bindSocket_ok (m.endsInSlash_path e) hbound
    have hdir' := (hkept q hq).put_socket hnone (some n) m.user.uid socketMode
    have hface : mid.face? q = none := by rw [face?, hnone]; rfl
    have hkeeps := (changedAt_put_socket (by simp [hface]) (by simp [hface]) (some n) m.user.uid
      socketMode : mid.ChangedAt _ q _).keeps
    refine ⟨hseen, hdir', stat_of_some (hkeeps.place hq) ?_⟩
    rw [at?_put mid _ (ne_nil_of_at?_eq_none hnone), if_pos rfl]

/-! ## What belongs to others -/

/-- Making directories changes neither what is seen nor whose it is. -/
theorem stat_grown (hg : fs.Grown mid) {node : Node} (h : fs.stat false path = .ok node) :
    ∃ mode, mid.stat false path = .ok ⟨node.kind, node.uid, mode⟩ := by
  obtain ⟨p, hp, hnode⟩ := place_of_stat h
  have hface := hg.face_of_some (p := p) (f := (node.kind, node.uid)) (by rw [face?, hnode]; rfl)
  obtain ⟨⟨kind, uid, mode⟩, hnode', hsame⟩ := Option.map_eq_some_iff.1 hface
  cases hsame
  exact ⟨mode, stat_of_some (hg.keeps.place hp) hnode'⟩

theorem answer_grown (hg : fs.Grown mid) {c : Call} {node : Node}
    (h : r.answer c (fs.stat false path) = .ok node) :
    ∃ mode, r.answer c (mid.stat false path) = .ok ⟨node.kind, node.uid, mode⟩ := by
  obtain ⟨hnone, hstat⟩ := answer_eq_ok h
  obtain ⟨mode, hstat'⟩ := stat_grown hg hstat
  exact ⟨mode, by rw [answer_of_none hnone, hstat']⟩

/-- The directory is another user's: nothing is done behind making the base. -/
theorem bind_foreignDir (hg : fs.Grown mid) {node : Node} (hsee : r.seeDir m fs = .ok node)
    (hk : node.kind = .directory) (hu : node.uid ≠ m.user.uid) : r.bind m (.ok (), mid) e n
      = (.error (.ownershipMismatch m.dir m.user.uid node.uid), mid) := by
  obtain ⟨mode, hsee'⟩ := answer_grown hg hsee
  rw [← seeDir] at hsee'
  simp only [bind, lift, liftIo, prepare, hsee', looked, Bind.bind, Except.bind, if_pos hk, checkOwner,
    if_neg hu]

/-- What stands at the path is another user's: it stays. -/
theorem bind_foreignSocket (hg : fs.Grown mid) (hown : OwnDir m (r.seeDir m fs))
    (hprotect : r .protectDir = none) {node : Node} (hsee : r.seeSocket m fs e = .ok node)
    (hu : node.uid ≠ m.user.uid) : ∃ fs' mode, r.bind m (.ok (), mid) e n
        = (.error (.ownershipMismatch (m.path e) m.user.uid node.uid), fs')
      ∧ fs'.stat false (m.path e) = .ok ⟨node.kind, node.uid, mode⟩ := by
  obtain ⟨dirNode, hdirNode, hk, hdu⟩ := hown
  obtain ⟨dirMode, hdirSee⟩ := answer_grown hg hdirNode
  have hown' : OwnDir m (r.seeDir m mid) := ⟨_, hdirSee, hk, hdu⟩
  obtain ⟨d, mode₀, hdir⟩ := Site.exists_dirAt hown'.of_seeDir.2
  obtain ⟨fs', hset, -, -⟩ := hdir.setMode privateMode
  obtain ⟨mode, hsee'⟩ := answer_grown (hg.trans (setMode_grown hset)) hsee
  have hprepare : r.prepare m mid = (.ok (), fs') := by
    rw [prepare_of_ownDir hown', answer_of_none hprotect, hset]
    rfl
  refine ⟨fs', mode, ?_, (answer_eq_ok hsee').2⟩
  rw [← seeSocket] at hsee'
  simp only [bind, lift, liftIo, hprepare, take, clear, hsee', looked, checkOwner, if_neg hu, Bind.bind,
    Except.bind]

theorem bind_ok {base : FileSystem.Changed} (h : r.bind m base e n = (.ok (), fs')) :
    ∃ mid prepared, base = (.ok (), mid) ∧ r.prepare m mid = (.ok (), prepared)
      ∧ r.take m prepared e n = (.ok (), fs') := by
  obtain ⟨made, mid⟩ := base
  cases made with
  | error c => simp [bind, lift, liftIo] at h
  | ok u =>
    simp only [bind, lift, liftIo] at h
    split at h
    · cases h
    · next prepared hprepare => exact ⟨mid, prepared, rfl, hprepare, h⟩

end Refusals

open Refusals

/-- How clients and listeners of a site meet at an endpoint, whatever stands there and whatever the
system refuses. -/
structure FailsClosed (m : Site) (fs : FileSystem) (alive : Nat → Bool) (e : EndpointName) (n : Nat)
    (r : Refusals) : Prop where
  /-- A listener is reached over a directory and a socket of the user's own. -/
  reached (l : Nat) : r.locate m fs alive e = .ok l ↔ OwnDir m (r.seeDir m fs)
    ∧ OwnSocket m (r.seeSocket m fs e) ∧ r.dial m fs alive e = .ok l
  rendezvousMissing (p : Path) : r.locate m fs alive e = .error (.rendezvousMissing p) ↔ p = m.dir
    ∧ ((∃ c, r.seeDir m fs = .error c ∧ c.kind = .notFound)
      ∨ ∃ d, r.seeDir m fs = .ok d ∧ d.kind ≠ .directory)
  ownershipMismatch (p : Path) (expected actual : Nat) :
    r.locate m fs alive e = .error (.ownershipMismatch p expected actual)
      ↔ expected = m.user.uid ∧ actual ≠ m.user.uid
        ∧ ((p = m.dir ∧ ∃ d, r.seeDir m fs = .ok d ∧ d.kind = .directory ∧ d.uid = actual)
          ∨ (p = m.path e ∧ OwnDir m (r.seeDir m fs)
            ∧ ∃ s, r.seeSocket m fs e = .ok s ∧ s.uid = actual))
  endpointMissing (name location : String) :
    r.locate m fs alive e = .error (.endpointMissing name location)
      ↔ name = e.text ∧ location = m.dir.text ∧ OwnDir m (r.seeDir m fs)
        ∧ ((∃ c, r.seeSocket m fs e = .error c ∧ c.kind = .notFound)
          ∨ (∃ s, r.seeSocket m fs e = .ok s ∧ s.uid = m.user.uid ∧ ∀ b, s.kind ≠ .socket b)
          ∨ (OwnSocket m (r.seeSocket m fs e)
            ∧ ∃ c, r.dial m fs alive e = .error c ∧ c.kind = .connectionRefused))
  /-- Every other error of the system stays what it is. -/
  io (c : IoError) : r.locate m fs alive e = .error (.io c)
    ↔ (r.seeDir m fs = .error c ∧ c.kind ≠ .notFound)
      ∨ (OwnDir m (r.seeDir m fs)
        ∧ ((r.seeSocket m fs e = .error c ∧ c.kind ≠ .notFound)
          ∨ (OwnSocket m (r.seeSocket m fs e) ∧ r.dial m fs alive e = .error c
            ∧ c.kind ≠ .connectionRefused)))
  /-- There is nothing else that a client says. -/
  told (fault : LinkError) : r.locate m fs alive e = .error fault →
    (∃ p, fault = .rendezvousMissing p) ∨ (∃ p i j, fault = .ownershipMismatch p i j)
      ∨ (∃ name location, fault = .endpointMissing name location) ∨ ∃ c, fault = .io c
  /-- A listener that was bound found nothing of another user's, and stands in a private directory of
  the user's own. -/
  bound (base : FileSystem.Changed) (fs' : FileSystem) : r.bind m base e n = (.ok (), fs') →
    ∃ mid prepared, base = (.ok (), mid) ∧ r.prepare m mid = (.ok (), prepared)
      ∧ ((∃ c, r.seeDir m mid = .error c ∧ c.kind = .notFound) ∨ OwnDir m (r.seeDir m mid))
      ∧ ((∃ c, r.seeSocket m prepared e = .error c ∧ c.kind = .notFound)
        ∨ ∃ s, r.seeSocket m prepared e = .ok s ∧ s.uid = m.user.uid)
      ∧ fs'.stat false m.dir = .ok ⟨.directory, m.user.uid, privateMode⟩
      ∧ fs'.stat false (m.path e) = .ok ⟨.socket (some n), m.user.uid, socketMode⟩
  /-- Once there is a base, a directory of another user's is refused. -/
  foreignDir (mid : FileSystem) (d : Node) : fs.Grown mid → r.seeDir m fs = .ok d →
    d.kind = .directory → d.uid ≠ m.user.uid →
    r.bind m (.ok (), mid) e n = (.error (.ownershipMismatch m.dir m.user.uid d.uid), mid)
  /-- In a directory of the user's own, so is anything of another user's at the path; it stays. -/
  foreignSocket (mid : FileSystem) (s : Node) : fs.Grown mid → OwnDir m (r.seeDir m fs) →
    r .protectDir = none → r.seeSocket m fs e = .ok s → s.uid ≠ m.user.uid →
    ∃ fs' mode, r.bind m (.ok (), mid) e n
        = (.error (.ownershipMismatch (m.path e) m.user.uid s.uid), fs')
      ∧ fs'.stat false (m.path e) = .ok ⟨s.kind, s.uid, mode⟩
  /-- Where nothing is refused, all this is about the rendezvous itself. -/
  granted : Rendezvous.locate fs m.user alive m.props e = nothing.locate m fs alive e
    ∧ ∃ base, base = fs.makeDirectories m.user.uid baseMode m.props.dir ∧ fs.Grown base.2
      ∧ Rendezvous.bind fs m.user m.props e n = nothing.bind m base e n

/-- Whatever the system refuses: a client reaches a listener only over a directory and a socket of the
user's own, and otherwise tells which of the two was not as it should be, the directory first. A
listener that was bound stands in a private directory of the user's own, and one that meets with
something of another user's is refused and leaves it. -/
theorem fails_closed (m : Site) (fs : FileSystem) (alive : Nat → Bool) (e : EndpointName) (n : Nat)
    (r : Refusals) : FailsClosed m fs alive e n r where
  reached _ := locate_eq_ok_iff
  rendezvousMissing _ := rendezvousMissing_iff
  ownershipMismatch _ _ _ := ownershipMismatch_iff
  endpointMissing _ _ := endpointMissing_iff
  io _ := io_iff
  told fault hfault := by
    cases verdict_iff.1 hfault with
    | noDir | notDir => exact .inl ⟨_, rfl⟩
    | foreignDir | foreignSocket => exact .inr (.inl ⟨_, _, _, rfl⟩)
    | noSocket | notSocket | refused => exact .inr (.inr (.inl ⟨_, _, rfl⟩))
    | unseenDir | unseenSocket | unreached => exact .inr (.inr (.inr ⟨_, rfl⟩))
  bound base fs' h := by
    obtain ⟨mid, prepared, hbase, hprepare, htake⟩ := bind_ok h
    obtain ⟨hseen, d, hdir⟩ := prepare_ok hprepare
    obtain ⟨hfree, hdir', hsocket⟩ := take_ok hdir htake
    exact ⟨mid, prepared, hbase, hprepare, hseen, hfree, hdir'.stat, hsocket⟩
  foreignDir _ _ hg hsee hk hu := bind_foreignDir hg hsee hk hu
  foreignSocket _ _ hg hown hprotect hsee hu := bind_foreignSocket hg hown hprotect hsee hu
  granted := ⟨locate_nothing.symm, _, rfl, makeDirectories_grown .., bind_nothing⟩

/-- A site with a user, and a file of another user's where the agent's socket should be. -/
def lodging : Site := ⟨⟨"ann", 7⟩, ⟨⟨"/run"⟩⟩, by decide⟩

def squatted : FileSystem :=
  ⟨[(["run"], ⟨.directory, 0, 0o755⟩), (["run", "ann"], ⟨.directory, 7, 0o755⟩),
    (["run", "ann", "agent"], ⟨.file [], 8, 0o644⟩)], []⟩

/-- Neither a client nor a listener has anything to do with it. -/
theorem fails_closed_squatted :
    Rendezvous.locate squatted lodging.user (fun _ => true) lodging.props .agent
        = .error (.ownershipMismatch (lodging.path .agent) 7 8)
      ∧ ∃ fs', nothing.bind lodging (.ok (), squatted) .agent 0
          = (.error (.ownershipMismatch (lodging.path .agent) 7 8), fs')
        ∧ ∃ mode, fs'.stat false (lodging.path .agent) = .ok ⟨.file [], 8, mode⟩ := by
  have hdir : nothing.seeDir lodging squatted = .ok ⟨.directory, 7, 0o755⟩ := by rfl
  have hsocket : nothing.seeSocket lodging squatted .agent = .ok ⟨.file [], 8, 0o644⟩ := by rfl
  have hown : OwnDir lodging (nothing.seeDir lodging squatted) := ⟨_, hdir, rfl, rfl⟩
  have hclosed := fails_closed lodging squatted (fun _ => true) .agent 0 nothing
  refine ⟨?_, ?_⟩
  · rw [hclosed.granted.1, hclosed.ownershipMismatch]
    exact ⟨rfl, by decide, .inr ⟨rfl, hown, _, hsocket, rfl⟩⟩
  · obtain ⟨fs', mode, hbind, hstays⟩ :=
      hclosed.foreignSocket squatted _ (.refl squatted) hown rfl hsocket (by decide)
    exact ⟨fs', hbind, mode, hstays⟩

end CommandLink.Rendezvous
