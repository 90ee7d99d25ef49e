import CommandLink.Proofs.Files.Changes
import CommandLink.Rendezvous
/-!
# Taking a place

What a listener does at a path when it is bound: it clears away what yields and puts its socket
there, and before that it sees to it that the user's directory is the user's own. Either is done as a
whole or refused.

Results:
* `takePlace_of_yields`, `takePlace_refused`: where what stands there is the user's and no directory,
  the place is taken; where not, nothing changes.
* `prepareUserDir_cases`: the directory is the user's own in the end, or nothing was done.
-/
namespace CommandLink.Rendezvous

open FileSystem

variable {fs fs' : FileSystem} {path : Path} {p : Place} {uid n : Nat}

theorem stat_of_some (h : fs.place false path = .ok p) {node : Node} (hp : fs.at? p = some node) :
    fs.stat false path = .ok node := by
  rw [stat, h]
  simp only [Bind.bind, Except.bind, hp]

theorem stat_of_none (h : fs.place false path = .ok p) (hp : fs.at? p = none) :
    fs.stat false path = .error Errno.noEntry.error := by
  rw [stat, h]
  simp only [Bind.bind, Except.bind, hp]

theorem look_of_place (h : fs.place false path = .ok p) : look fs path = .ok (fs.at? p) := by
  cases hat : fs.at? p with
  | some node => rw [look, stat_of_some h hat]
  | none =>
    rw [look, stat_of_none h hat]
    rfl

theorem place_of_look {node : Node} (h : look fs path = .ok (some node)) :
    ∃ p, fs.place false path = .ok p ∧ fs.at? p = some node := by
  have hstat := look_eq_some h
  rw [stat] at hstat
  cases hplace : fs.place false path with
  | error e => simp [hplace, Bind.bind, Except.bind] at hstat
  | ok p =>
    rw [look_of_place hplace] at h
    exact ⟨p, rfl, Except.ok.inj h⟩

theorem remove_of_none (hp : fs.at? p = none) : fs.remove p = fs := by
  have hall : ∀ e ∈ fs.nodes, decide (e.1 ≠ p) = true := by
    intro e he
    rw [at?, if_neg (ne_nil_of_at?_eq_none hp), List.lookup_eq_none_iff] at hp
    have hne := hp e he
    refine decide_eq_true fun heq => ?_
    rw [heq, bne_self_eq_false] at hne
    cases hne
  rw [remove, List.filter_eq_self.2 hall]

theorem put_remove (fs : FileSystem) (p : Place) (node : Node) :
    (fs.remove p).put p node = fs.put p node := by
  simp [put, remove]

theorem unlink_of_place (h : fs.place false path = .ok p) :
    fs.unlink path = match fs.at? p with
      | none => .error Errno.noEntry.error
      | some ⟨.directory, _, _⟩ => .error Errno.isDirectory.error
      | some _ => .ok (fs.remove p) := by
  rw [unlink, h]
  rfl

/-- What yields is taken away. -/
theorem clear_of_yields (h : fs.place false path = .ok p) (hy : fs.Yields uid p) :
    clear fs path uid = .ok (fs.remove p) := by
  rw [clear, look_of_place h]
  cases hat : fs.at? p with
  | none =>
    rw [remove_of_none hat]
    rfl
  | some node =>
    obtain ⟨kind, u, mode⟩ := node
    obtain ⟨hu, hkind⟩ := hy kind u (by rw [face?, hat]; rfl)
    have howner : checkOwner path ⟨kind, u, mode⟩ uid = .ok () := (checkOwner_ok_iff _ _ _).2 hu
    simp only [Bind.bind, Except.bind, howner]
    rw [unlink_of_place h, hat]
    cases kind <;> first | rfl | exact absurd rfl hkind

/-- What does not yield stays, and refuses. -/
theorem clear_of_not_yields (h : fs.place false path = .ok p) (hy : ¬fs.Yields uid p) :
    ∃ e, clear fs path uid = .error e := by
  rw [clear, look_of_place h]
  cases hat : fs.at? p with
  | none => exact absurd (fun k u hf => by rw [face?, hat] at hf; cases hf) hy
  | some node =>
    by_cases hu : node.uid = uid
    · have howner : checkOwner path node uid = .ok () := (checkOwner_ok_iff _ _ _).2 hu
      have hkind : node.kind = .directory := by
        refine Classical.byContradiction fun hkind => hy fun k u hf => ?_
        rw [face?, hat] at hf
        cases hf
        exact ⟨hu, hkind⟩
      obtain ⟨kind, u, mode⟩ := node
      cases hkind
      simp only [Bind.bind, Except.bind, howner]
      rw [unlink_of_place h, hat]
      exact ⟨_, rfl⟩
    · exact ⟨.ownershipMismatch path uid node.uid, by simp [Bind.bind, Except.bind, checkOwner, hu]⟩

theorem ne_directory_of_yields (h : fs.Yields uid p) (u : Nat) : fs.face? p ≠ some (.directory, u) :=
  fun hf => (h _ _ hf).2 rfl

/-- Where something yields, a listener gets its socket, unless the path is too long for one. -/
theorem takePlace_of_yields (h : fs.place false path = .ok p) (hslash : path.endsInSlash = false)
    (hy : fs.Yields uid p) (hlink : ∀ t u, fs.face? p ≠ some (.symlink t, u)) :
    takePlace fs path uid n =
      if path.text.utf8ByteSize ≥ maxSocketPath then (.error (.io pathTooLong), fs.remove p)
      else (.ok (), fs.put p ⟨.socket (some n), uid, socketMode⟩) := by
  rw [takePlace, clear_of_yields h hy]
  simp only [bindSocket]
  split
  · rfl
  · have hp : p ≠ [] := by
      rintro rfl
      exact ne_directory_of_yields hy 0 rfl
    -- what is cleared away is no part of the way to its place
    have hplace := (changedAt_remove (ne_directory_of_yields hy) hlink).keeps.place h
    have hnone : (fs.remove p).at? p = none := by rw [at?_remove fs hp, if_pos rfl]
    have hcreate : (fs.remove p).create .addressInUse ⟨.socket (some n), uid, socketMode⟩ path
        = .ok (fs.put p ⟨.socket (some n), uid, socketMode⟩) := by
      rw [create, Path.bare_of_not_endsInSlash hslash, hplace]
      simp only [Bind.bind, Except.bind, hnone, hslash, Bool.false_eq_true, if_false, put_remove]
    rw [hcreate]
    rfl

/-- Where nothing yields, nothing changes. -/
theorem takePlace_refused (hslash : path.endsInSlash = false)
    (h : ∀ p, fs.place false path = .ok p → ¬fs.Yields uid p) :
    ∃ e, takePlace fs path uid n = (.error e, fs) := by
  cases hplace : fs.place false path with
  | ok p =>
    obtain ⟨e, he⟩ := clear_of_not_yields hplace (h p hplace)
    exact ⟨e, by rw [takePlace, he]⟩
  | error cause =>
    have hlook : look fs path = if cause.kind = .notFound then .ok none else .error (.io cause) := by
      rw [look, stat, hplace]
      rfl
    have hcreate (node : Node) : fs.create .addressInUse node path = .error cause := by
      rw [create, Path.bare_of_not_endsInSlash hslash, hplace]
      rfl
    have hclear : clear fs path uid =
        if cause.kind = .notFound then .ok fs else .error (.io cause) := by
      rw [clear, hlook]
      split <;> rfl
    rw [takePlace, hclear]
    by_cases hfound : cause.kind = .notFound
    · rw [if_pos hfound]
      simp only [bindSocket]
      split
      · exact ⟨_, rfl⟩
      · rw [hcreate]
        exact ⟨_, rfl⟩
    · rw [if_neg hfound]
      exact ⟨_, rfl⟩

/-! ## The user's directory -/

/-- A directory of the user's own stands at a path. -/
def Owns (fs : FileSystem) (uid : Nat) (path : Path) : Prop :=
  ∃ d, fs.place false path = .ok d ∧ fs.face? d = some (.directory, uid)

theorem Owns.keeps (h : Owns fs uid path) (hk : fs.Keeps fs') : Owns fs' uid path := by
  obtain ⟨d, hplace, hd⟩ := h
  exact ⟨d, hk.place hplace, hk.directory hd⟩

theorem Owns.look (h : Owns fs uid path) :
    ∃ mode, look fs path = .ok (some ⟨.directory, uid, mode⟩) := by
  obtain ⟨d, hplace, hd⟩ := h
  obtain ⟨⟨kind, u, mode⟩, hnode, hface⟩ := Option.map_eq_some_iff.1 hd
  obtain ⟨rfl, rfl⟩ := Prod.mk.inj hface
  exact ⟨mode, by rw [look_of_place hplace, hnode]⟩

theorem owns_of_look {node : Node} (h : look fs path = .ok (some node))
    (hkind : node.kind = .directory) (huid : node.uid = uid) : Owns fs uid path := by
  obtain ⟨d, hplace, hnode⟩ := place_of_look h
  exact ⟨d, hplace, by rw [face?, hnode, Option.map_some, hkind, huid]⟩

theorem setMode_of_owns (h : Owns fs uid path) (mode : Nat) :
    ∃ fs', fs.setMode mode path = .ok fs' ∧ Owns fs' uid path := by
  obtain ⟨d, hplace, hd⟩ := h
  obtain ⟨node, hnode, hface⟩ := Option.map_eq_some_iff.1 hd
  have hfollowed : fs.place true path = .ok d := by
    obtain ⟨hcheck, hl⟩ := place_ok_iff.1 hplace
    refine place_ok_iff.2 ⟨hcheck, hl.followed fun t ht => ?_⟩
    rw [kind?_eq_some_iff, hd] at ht
    obtain ⟨u, hu⟩ := ht
    cases hu
  have hset : fs.setMode mode path = .ok (fs.put d { node with mode := mode }) := by
    rw [setMode, hfollowed]
    simp only [Bind.bind, Except.bind, hnode]
  exact ⟨_, hset, Owns.keeps ⟨d, hplace, hd⟩ (setMode_grown hset).keeps⟩

theorem owns_of_makeDirectory {mode : Nat} (hslash : path.endsInSlash = false)
    (h : fs.makeDirectory uid mode path = .ok fs') : Owns fs' uid path := by
  have hkeeps := (makeDirectory_grown h).keeps
  obtain ⟨there, hplace, hnone, rfl⟩ := makeDirectory_eq_ok_iff.1 h
  rw [Path.bare_of_not_endsInSlash hslash] at hplace
  exact ⟨there, hkeeps.place hplace,
    by rw [face?_put fs _ (ne_nil_of_at?_eq_none hnone), if_pos rfl]⟩

/-- The user's directory is the user's own in the end, or nothing was done. -/
theorem prepareUserDir_cases (fs : FileSystem) (uid : Nat) (hslash : path.endsInSlash = false) :
    (∃ e, prepareUserDir fs path uid = (.error e, fs)) ∨
      ∃ fs', fs.Grown fs' ∧ Owns fs' uid path ∧ prepareUserDir fs path uid = (.ok (), fs') := by
  have settled {mid : FileSystem} (hg : fs.Grown mid) (ho : Owns mid uid path)
      (h : prepareUserDir fs path uid = lift (mid.changed (mid.setMode privateMode path))) :
      ∃ fs', fs.Grown fs' ∧ Owns fs' uid path ∧ prepareUserDir fs path uid = (.ok (), fs') := by
    obtain ⟨fs', hset, ho'⟩ := setMode_of_owns ho privateMode
    rw [hset] at h
    exact ⟨fs', hg.trans (setMode_grown hset), ho', h⟩
  cases hlook : look fs path with
  | error e => exact .inl ⟨e, by simp only [prepareUserDir, hlook, Bind.bind, Except.bind]⟩
  | ok found =>
    cases found with
    | some node =>
      by_cases hkind : node.kind = .directory
      · by_cases huid : node.uid = uid
        · have howner : checkOwner path node uid = .ok () := (checkOwner_ok_iff _ _ _).2 huid
          refine .inr (settled (.refl fs) (owns_of_look hlook hkind huid) ?_)
          simp only [prepareUserDir, hlook, Bind.bind, Except.bind, if_pos hkind, howner]
        · have howner : checkOwner path node uid
              = .error (.ownershipMismatch path uid node.uid) := if_neg huid
          refine .inl ⟨.ownershipMismatch path uid node.uid, ?_⟩
          simp only [prepareUserDir, hlook, Bind.bind, Except.bind, if_pos hkind, howner]
      · refine .inl ⟨.io ⟨.alreadyExists, path.text ++ " exists and is not a directory"⟩, ?_⟩
        simp only [prepareUserDir, hlook, Bind.bind, Except.bind, if_neg hkind]
    | none =>
      cases hmade : fs.makeDirectory uid privateMode path with
      | error e =>
        refine .inl ⟨.io e, ?_⟩
        simp only [prepareUserDir, hlook, Bind.bind, Except.bind, hmade, liftIo]
      | ok mid =>
        refine .inr (settled (makeDirectory_grown hmade) (owns_of_makeDirectory hslash hmade) ?_)
        simp only [prepareUserDir, hlook, Bind.bind, Except.bind, hmade, liftIo]

theorem prepareUserDir_of_owns (h : Owns fs uid path) :
    (prepareUserDir fs path uid).1 = .ok () := by
  obtain ⟨mode, hlook⟩ := h.look
  obtain ⟨fs', hset, -⟩ := setMode_of_owns h privateMode
  simp only [prepareUserDir, hlook, Bind.bind, Except.bind, if_pos, checkOwner, hset]
  rfl

end CommandLink.Rendezvous
