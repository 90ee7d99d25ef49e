import CommandLink.Proofs.Files.Joined
import CommandLink.Proofs.Files.Ways
/-!
# What changes of files keep

Directories that are made and modes that are set leave every way as it is, and so does a change at a
place where neither a directory nor a link stands.

Results:
* `makeDirectories_grown`: making directories changes nothing that is there.
* `isDirectory_of_makeDirectories`, `makeDirectories_of_isDirectory`: it leaves a directory where it
  succeeds, and succeeds where it finds one.
* `changedAt_remove`, `changedAt_put_socket`: a change at one place keeps the ways.
-/
namespace CommandLink.FileSystem
variable {fs fs' fs'' : FileSystem} {p q : Place} {n : Node} {path : Path} {uid mode : Nat}

theorem ne_nil_of_at?_eq_none (h : fs.at? p = none) : p ≠ [] := by
  rintro rfl
  cases h

theorem face?_put (fs : FileSystem) (n : Node) (hp : p ≠ []) :
    (fs.put p n).face? q = if q = p then some (n.kind, n.uid) else fs.face? q := by
  rw [face?, at?_put fs n hp]
  split <;> rfl

theorem face?_remove (fs : FileSystem) (hp : p ≠ []) :
    (fs.remove p).face? q = if q = p then none else fs.face? q := by
  rw [face?, at?_remove fs hp]
  split <;> rfl

/-- The root stays what it is. -/
theorem at?_put_nil (fs : FileSystem) (n : Node) : (fs.put [] n).at? q = fs.at? q := by
  by_cases hq : q = []
  · rw [hq]
    rfl
  · have hne : (q == []) = false := by simpa using hq
    rw [at?, at?, if_neg hq, if_neg hq, put, List.lookup_cons, hne]
    exact lookup_nodes_ne hq

/-- What stands at a place, if anything, may be taken away by a user. -/
def Yields (fs : FileSystem) (uid : Nat) (p : Place) : Prop :=
  ∀ k u, fs.face? p = some (k, u) → u = uid ∧ k ≠ .directory

/-! ## Growing -/

/-- Directories may have come where nothing was. -/
structure Grown (fs fs' : FileSystem) : Prop where
  here : fs'.here = fs.here
  face (p : Place) : fs'.face? p = fs.face? p
    ∨ (fs.face? p = none ∧ ∃ u, fs'.face? p = some (.directory, u))

theorem Grown.refl (fs : FileSystem) : fs.Grown fs :=
  ⟨rfl, fun _ => .inl rfl⟩

theorem Grown.trans (h : fs.Grown fs') (h' : fs'.Grown fs'') : fs.Grown fs'' := by
  refine ⟨h'.here.trans h.here, fun p => ?_⟩
  rcases h.face p with hp | ⟨hnone, u, hu⟩
  · rw [← hp]
    exact h'.face p
  · rcases h'.face p with hp' | ⟨hnone', -⟩
    · exact .inr ⟨hnone, u, hp'.trans hu⟩
    · rw [hu] at hnone'
      cases hnone'

theorem Grown.face_of_some (h : fs.Grown fs') {f : NodeKind × Nat} (hp : fs.face? p = some f) :
    fs'.face? p = some f := by
  rcases h.face p with hsame | ⟨hnone, -⟩
  · rw [hsame, hp]
  · rw [hp] at hnone
    cases hnone

/-- Only directories come. -/
theorem Grown.face_iff (h : fs.Grown fs') {k : NodeKind} {u : Nat} (hk : k ≠ .directory) :
    fs'.face? p = some (k, u) ↔ fs.face? p = some (k, u) := by
  rcases h.face p with hsame | ⟨hnone, v, hv⟩
  · rw [hsame]
  · rw [hnone, hv]
    simp [Ne.symm hk]

theorem Grown.keeps (h : fs.Grown fs') : fs.Keeps fs' :=
  ⟨h.here, h.face_of_some, h.face_iff (by simp)⟩

/-- A change at a single place, where neither a directory nor a link goes or comes. -/
structure ChangedAt (fs fs' : FileSystem) (p : Place) (f : Option (NodeKind × Nat)) : Prop where
  keeps : fs.Keeps fs'
  elsewhere (q : Place) (h : q ≠ p) : fs'.face? q = fs.face? q
  self : fs'.face? p = f

theorem changedAt_of_elsewhere {f : Option (NodeKind × Nat)} (here : fs'.here = fs.here)
    (elsewhere : ∀ q, q ≠ p → fs'.face? q = fs.face? q) (self : fs'.face? p = f)
    (directory : ∀ u, fs.face? p ≠ some (.directory, u))
    (gone : ∀ t u, fs.face? p ≠ some (.symlink t, u)) (come : ∀ t u, f ≠ some (.symlink t, u)) :
    fs.ChangedAt fs' p f := by
  refine ⟨⟨here, fun {q u} hq => ?_, fun {q t u} => ?_⟩, elsewhere, self⟩
  · by_cases h : q = p
    · exact absurd (h ▸ hq) (directory u)
    · rw [elsewhere q h, hq]
  · by_cases h : q = p
    · rw [h, self]
      exact ⟨fun hp => absurd hp (come t u), fun hp => absurd hp (gone t u)⟩
    · rw [elsewhere q h]

theorem changedAt_remove (directory : ∀ u, fs.face? p ≠ some (.directory, u))
    (symlink : ∀ t u, fs.face? p ≠ some (.symlink t, u)) : fs.ChangedAt (fs.remove p) p none := by
  have hp : p ≠ [] := by
    rintro rfl
    exact directory 0 rfl
  refine changedAt_of_elsewhere rfl (fun q hq => ?_) ?_ directory symlink (by simp)
  · rw [face?_remove fs hp, if_neg hq]
  · rw [face?_remove fs hp, if_pos rfl]

theorem changedAt_put_socket (directory : ∀ u, fs.face? p ≠ some (.directory, u))
    (symlink : ∀ t u, fs.face? p ≠ some (.symlink t, u)) (b : Option Nat) (uid mode : Nat) :
    fs.ChangedAt (fs.put p ⟨.socket b, uid, mode⟩) p (some (.socket b, uid)) := by
  have hp : p ≠ [] := by
    rintro rfl
    exact directory 0 rfl
  refine changedAt_of_elsewhere rfl (fun q hq => ?_) ?_ directory symlink (by simp)
  · rw [face?_put fs _ hp, if_neg hq]
  · rw [face?_put fs _ hp, if_pos rfl]

/-! ## Single changes -/

theorem makeDirectory_eq_ok_iff : fs.makeDirectory uid mode path = .ok fs' ↔
    ∃ there, fs.place false path.bare = .ok there ∧ fs.at? there = none
      ∧ fs' = fs.put there ⟨.directory, uid, mode⟩ := by
  rw [makeDirectory]
  cases hplace : fs.place false path.bare with
  | error e => simp [Bind.bind, Except.bind]
  | ok there =>
    cases hat : fs.at? there with
    | some n => simp [Bind.bind, Except.bind, hat]
    | none => simp [Bind.bind, Except.bind, hat, eq_comm]

theorem put_directory_grown (h : fs.at? p = none) : fs.Grown (fs.put p ⟨.directory, uid, mode⟩) := by
  have hp := ne_nil_of_at?_eq_none h
  refine ⟨rfl, fun q => ?_⟩
  rw [face?_put fs _ hp]
  by_cases hq : q = p
  · rw [if_pos hq, hq]
    exact .inr ⟨by rw [face?, h]; rfl, uid, rfl⟩
  · rw [if_neg hq]
    exact .inl rfl

theorem makeDirectory_grown (h : fs.makeDirectory uid mode path = .ok fs') : fs.Grown fs' := by
  obtain ⟨there, -, hnone, rfl⟩ := makeDirectory_eq_ok_iff.1 h
  exact put_directory_grown hnone

/-- Setting a mode changes nobody's face. -/
theorem setMode_grown (h : fs.setMode mode path = .ok fs') : fs.Grown fs' := by
  rw [setMode] at h
  cases hplace : fs.place true path with
  | error e => simp [Bind.bind, Except.bind, hplace] at h
  | ok there =>
    cases hat : fs.at? there with
    | none => simp [Bind.bind, Except.bind, hplace, hat] at h
    | some n =>
      simp only [Bind.bind, Except.bind, hplace, hat, Except.ok.injEq] at h
      subst h
      refine ⟨rfl, fun q => .inl ?_⟩
      by_cases hthere : there = []
      · rw [hthere, face?, at?_put_nil]
        rfl
      · rw [face?_put fs _ hthere]
        split
        · next hq => rw [hq, face?, hat]; rfl
        · rfl

theorem isDirectory_iff : fs.isDirectory path = true ↔
    ∃ p, fs.place true path = .ok p ∧ fs.kind? p = some .directory := by
  rw [isDirectory, stat]
  cases fs.place true path with
  | error e => simp [Bind.bind, Except.bind]
  | ok p =>
    simp only [Bind.bind, Except.bind, kind?, Except.ok.injEq, exists_eq_left']
    cases fs.at? p with
    | none => simp
    | some n =>
      obtain ⟨kind, uid, mode⟩ := n
      cases kind <;> simp

theorem Keeps.isDirectory (h : fs.Keeps fs') (hd : fs.isDirectory path = true) :
    fs'.isDirectory path = true := by
  obtain ⟨p, hplace, hp⟩ := isDirectory_iff.1 hd
  exact isDirectory_iff.2 ⟨p, h.place hplace, h.kind?_directory hp⟩

/-- Slashes at the end of a path to a directory lead nowhere else. -/
theorem place_of_bare (h : fs.place false path.bare = .ok q) (hq : fs.kind? q = some .directory)
    (hcheck : checkPath path = .ok ()) : fs.place true path = .ok q := by
  obtain ⟨-, hl⟩ := place_ok_iff.1 h
  have hfollowed := hl.followed fun t ht => by rw [hq] at ht; cases ht
  rw [Path.isAbsolute_bare] at hfollowed
  refine place_ok_iff.2 ⟨hcheck, ?_⟩
  rcases names_bare path with hnames | hnames
  · rw [hnames]
    exact hfollowed
  · rw [hnames]
    exact hfollowed.append hq (List.cons_ne_nil "" []) fun _ => .idle (.inl rfl) .arrived

/-- Where a path leads, it does so without the slashes at its end, if only to a link. -/
theorem place_bare (h : fs.place true path = .ok q) : ∃ p, fs.place false path.bare = .ok p := by
  obtain ⟨hcheck, hl⟩ := place_ok_iff.1 h
  have hbare : fs.Leads true maxLinks (if path.isAbsolute then [] else fs.here)
      (names path.bare) q := by
    rcases names_bare path with hnames | hnames
    · rwa [hnames] at hl
    · rw [hnames] at hl
      exact hl.unslashed
  obtain ⟨p, hp⟩ := hbare.unfollowed
  rw [← Path.isAbsolute_bare] at hp
  exact ⟨p, place_ok_iff.2 ⟨checkPath_bare hcheck, hp⟩⟩

theorem isDirectory_of_makeDirectory (h : fs.makeDirectory uid mode path = .ok fs')
    (hcheck : checkPath path = .ok ()) : fs'.isDirectory path = true := by
  have hkeeps := (makeDirectory_grown h).keeps
  obtain ⟨there, hplace, hnone, rfl⟩ := makeDirectory_eq_ok_iff.1 h
  have hdir : (fs.put there ⟨.directory, uid, mode⟩).kind? there = some .directory := by
    rw [kind?, at?_put fs _ (ne_nil_of_at?_eq_none hnone), if_pos rfl]
    rfl
  exact isDirectory_iff.2 ⟨there, place_of_bare (hkeeps.place hplace) hdir hcheck, hdir⟩

/-! ## Directories with all above them -/

theorem ensureDirectory_grown (fs : FileSystem) (uid mode : Nat) (path : Path) :
    fs.Grown (fs.ensureDirectory uid mode path).2 := by
  rw [ensureDirectory]
  split
  · next h => exact makeDirectory_grown h
  · exact .refl fs

theorem makeDirectoriesUpTo_grown (uid mode : Nat) (depth : Nat) (fs : FileSystem) (path : Path) :
    fs.Grown (makeDirectoriesUpTo uid mode depth fs path).2 := by
  induction depth generalizing path with
  | zero => exact .refl fs
  | succ depth ih =>
    rw [makeDirectoriesUpTo]
    split
    · exact .refl fs
    · split
      · next h => exact makeDirectory_grown h
      · split
        · split
          · exact .refl fs
          · next above _ =>
            have habove := ih above
            split
            · next fs' h =>
              rw [h] at habove
              exact habove.trans (fs'.ensureDirectory_grown uid mode path)
            · exact habove
        · exact .refl fs

theorem makeDirectories_grown (fs : FileSystem) (uid mode : Nat) (path : Path) :
    fs.Grown (fs.makeDirectories uid mode path).2 :=
  makeDirectoriesUpTo_grown uid mode _ fs path

theorem isDirectory_of_ensureDirectory (h : fs.ensureDirectory uid mode path = (.ok (), fs'))
    (hcheck : checkPath path = .ok ()) : fs'.isDirectory path = true := by
  rw [ensureDirectory] at h
  split at h
  · next hmade =>
    cases h
    exact isDirectory_of_makeDirectory hmade hcheck
  · obtain ⟨hok, rfl⟩ := Prod.mk.inj h
    split at hok
    · assumption
    · cases hok

theorem isDirectory_of_makeDirectories (h : fs.makeDirectories uid mode path = (.ok (), fs'))
    (hcheck : checkPath path = .ok ()) : fs'.isDirectory path = true := by
  rw [makeDirectories, makeDirectoriesUpTo, if_neg (by simp [(checkPath_ok_iff.1 hcheck).2.1])] at h
  split at h
  · next hmade =>
    cases h
    exact isDirectory_of_makeDirectory hmade hcheck
  · split at h
    · split at h
      · cases h
      · split at h
        · exact isDirectory_of_ensureDirectory h hcheck
        · next hfailed => exact absurd h (hfailed fs')
    · obtain ⟨hok, rfl⟩ := Prod.mk.inj h
      split at hok
      · assumption
      · cases hok

/-- A directory that is there need not be made. -/
theorem makeDirectories_of_isDirectory (h : path.text = "" ∨ fs.isDirectory path = true)
    (uid mode : Nat) :
    (fs.makeDirectories uid mode path).1 = .ok () := by
  rw [makeDirectories, makeDirectoriesUpTo]
  by_cases hempty : path.text = ""
  · rw [if_pos (by simp [hempty])]
  have hdir := h.resolve_left hempty
  rw [if_neg (by simp [hempty])]
  obtain ⟨q, hplace, -⟩ := isDirectory_iff.1 hdir
  obtain ⟨p, hp⟩ := place_bare hplace
  cases hat : fs.at? p with
  | none =>
    rw [makeDirectory_eq_ok_iff.2 ⟨p, hp, hat, rfl⟩]
  | some n =>
    have herror : fs.makeDirectory uid mode path = .error Errno.alreadyThere.error := by
      rw [makeDirectory]
      simp only [Bind.bind, Except.bind, hp, hat]
    rw [herror]
    simp only
    rw [if_neg (by decide), hdir]
    rfl

end CommandLink.FileSystem
