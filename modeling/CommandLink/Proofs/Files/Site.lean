import CommandLink.Proofs.Files.Taking
/-!
# Sites of rendezvous

A site is a user with a base directory: the listeners of that user meet their clients at the sockets
in the user's own directory there, one for each endpoint. What a bind and a listener that closes do to
a site is said once for each, and what it means for the other endpoints follows.

Results:
* `locate_ok_iff`: a client reaches a listener exactly if its socket stands at the endpoint and the
  listener is alive.
* `bind_outcome`, `unbind_cases`: all that binding and closing do.
* `stands_bind`, `bind_leaves`, `unbind_leaves`: a bind puts the listener's socket in place, and what
  is done at an endpoint leaves the sockets at the others.
-/
namespace CommandLink.Rendezvous

open FileSystem

/-- A user who listens and connects below a base directory. -/
structure Site where
  user : User
  props : UnixSocketProperties
  plain : isPlainName user.name = true

namespace Site
variable {m : Site} {fs fs' : FileSystem} {e e' : EndpointName} {p q : Place} {n : Nat}

/-- The user's own directory. -/
def dir (m : Site) : Path := m.props.userDir m.user

/-- The path of the socket of an endpoint. -/
def path (m : Site) (e : EndpointName) : Path := m.props.socketPath m.user e

/-- A listener was bound here: its directories are there, and the inner one is the user's. -/
structure Ready (m : Site) (fs : FileSystem) : Prop where
  base : m.props.dir.text = "" ∨ fs.isDirectory m.props.dir = true
  own : Owns fs m.user.uid m.dir

/-- No link stands where a socket of the user's could. -/
def Unlinked (m : Site) (fs : FileSystem) : Prop :=
  ∀ (b : Place) (e : EndpointName) (t : Path) (u : Nat),
    fs.face? (b ++ [m.user.name, e.text]) ≠ some (.symlink t, u)

/-- The socket of a listener stands at an endpoint, where clients can reach it. -/
structure Stands (m : Site) (fs : FileSystem) (e : EndpointName) (n : Nat) : Prop where
  short : (m.path e).text.utf8ByteSize < maxSocketPath
  own : Owns fs m.user.uid m.dir
  socket : ∃ p, fs.place false (m.path e) = .ok p ∧ fs.face? p = some (.socket (some n), m.user.uid)

theorem Ready.keeps (h : m.Ready fs) (hk : fs.Keeps fs') : m.Ready fs' :=
  ⟨h.base.imp_right hk.isDirectory, h.own.keeps hk⟩

theorem Unlinked.keeps (h : m.Unlinked fs) (hk : fs.Keeps fs') : m.Unlinked fs' :=
  fun b e t u hf => h b e t u (hk.symlink.1 hf)

/-! ## Paths of a site -/

theorem endsInSlash_dir (m : Site) : m.dir.endsInSlash = false :=
  Path.endsInSlash_join m.plain

theorem endsInSlash_path (m : Site) (e : EndpointName) : (m.path e).endsInSlash = false :=
  Path.endsInSlash_join e.plain

theorem names_dir (m : Site) : names m.dir = Path.entries m.props.dir.text.toList ++ [m.user.name] :=
  names_join m.plain

theorem names_path (m : Site) (e : EndpointName) : names (m.path e) = names m.dir ++ [e.text] := by
  rw [names_eq m.dir, endsInSlash_dir, if_neg Bool.false_ne_true, List.append_nil]
  exact names_join e.plain

theorem start_path (m : Site) (e : EndpointName) : (m.path e).isAbsolute = m.dir.isAbsolute :=
  Path.isAbsolute_join e.plain

theorem enterable {s : String} (h : isPlainName s = true) : s ≠ "" ∧ s ≠ "." ∧ s ≠ ".." := by
  refine ⟨?_, ?_, ?_⟩ <;> rintro rfl <;> exact absurd h (by decide)

/-- The place of a socket bears the name of its endpoint. -/
theorem place_path (h : fs.place false (m.path e) = .ok p) : ∃ b, p = b ++ [e.text] := by
  obtain ⟨-, hl⟩ := place_ok_iff.1 h
  rw [names_path] at hl
  exact (hl.ends (enterable e.plain)).2

theorem place_path_ne (h : fs.place false (m.path e) = .ok p) (h' : fs.place false (m.path e') = .ok q)
    (hne : e' ≠ e) : q ≠ p := by
  obtain ⟨b, rfl⟩ := place_path h
  obtain ⟨b', rfl⟩ := place_path h'
  intro heq
  obtain ⟨-, htext⟩ := List.append_inj' heq rfl
  exact hne (EndpointName.ext (List.cons.inj htext).1)

/-- The socket stands in the user's own directory. -/
theorem place_path_own (ho : Owns fs m.user.uid m.dir) (h : fs.place false (m.path e) = .ok p) :
    ∃ b, p = b ++ [m.user.name, e.text] := by
  obtain ⟨d, hdir, hface⟩ := ho
  obtain ⟨-, hl⟩ := place_ok_iff.1 hdir
  obtain ⟨hcheck, hlp⟩ := place_ok_iff.1 h
  rw [names_path, start_path] at hlp
  have hin := hl.within (kind?_eq_some_iff.2 ⟨_, hface⟩) (hlp.ends (enterable e.plain)).1
  rw [← names_path, ← start_path m e] at hin
  have hplace := place_ok_iff.2 ⟨hcheck, hin⟩
  rw [h] at hplace
  rw [names_dir] at hl
  obtain ⟨-, b, rfl⟩ := hl.ends (enterable m.plain)
  exact ⟨b, by rw [Except.ok.inj hplace, List.append_assoc]; rfl⟩

theorem Stands.unique {k : Nat} (h : m.Stands fs e n) (h' : m.Stands fs e k) : n = k := by
  obtain ⟨p, hplace, hface⟩ := h.socket
  obtain ⟨q, hplace', hface'⟩ := h'.socket
  rw [hplace] at hplace'
  cases hplace'
  rw [hface] at hface'
  cases hface'
  rfl

/-! ## Connecting -/

theorem listenerAt_of_place {path : Path} {alive : Nat → Bool} {b : Option Nat} {u : Nat}
    (h : fs.place false path = .ok p) (hface : fs.face? p = some (.socket b, u)) :
    listenerAt fs alive path = .ok n ↔
      path.text.utf8ByteSize < maxSocketPath ∧ b = some n ∧ alive n = true := by
  obtain ⟨hcheck, hl⟩ := place_ok_iff.1 h
  have hfollowed : fs.place true path = .ok p := by
    refine place_ok_iff.2 ⟨hcheck, hl.followed fun t ht => ?_⟩
    rw [kind?_eq_some_iff, hface] at ht
    obtain ⟨v, hv⟩ := ht
    cases hv
  obtain ⟨⟨kind, v, mode⟩, hnode, hsocket⟩ := Option.map_eq_some_iff.1 hface
  obtain ⟨rfl, rfl⟩ := Prod.mk.inj hsocket
  rw [listenerAt, stat, hfollowed]
  simp only [Bind.bind, Except.bind, hnode]
  by_cases hsize : path.text.utf8ByteSize < maxSocketPath
  · rw [if_neg (Nat.not_le.2 hsize)]
    cases b with
    | none => simp
    | some l =>
      by_cases halive : alive l = true
      · simp only [halive, if_true, Except.ok.injEq, Option.some.injEq, hsize,
          true_and]
        exact ⟨fun h => ⟨h, h ▸ halive⟩, And.left⟩
      · simp only [halive, if_false, reduceCtorEq, Option.some.injEq, hsize,
          true_and, false_iff, not_and]
        rintro rfl
        exact halive
  · rw [if_pos (Nat.le_of_not_lt hsize)]
    simp [throw, throwThe, MonadExceptOf.throw, hsize]

/-- Whom a client finds at an endpoint. -/
theorem locate_ok_iff {alive : Nat → Bool} :
    locate fs m.user alive m.props e = .ok n ↔ m.Stands fs e n ∧ alive n = true := by
  constructor
  · intro h
    obtain ⟨d, s, b, hdir, hdkind, hduid, hsocket, hskind, hsuid⟩ := locate_trusted h
    have lookOf {path : Path} {node : Node} (hs : fs.stat false path = .ok node) :
        look fs path = .ok (some node) := by rw [look, hs]
    have hown := owns_of_look (lookOf hdir) hdkind hduid
    obtain ⟨p, hplace, hnode⟩ := place_of_look (lookOf hsocket)
    have hface : fs.face? p = some (.socket b, m.user.uid) := by
      rw [face?, hnode, Option.map_some, hskind, hsuid]
    have hreached : listenerAt fs alive (m.path e) = .ok n := by
      simp only [locate, Bind.bind, Except.bind, lookOf hdir, lookOf hsocket, hdkind, hskind, checkOwner,
        hduid, hsuid, if_true, ne_eq, not_true, if_false] at h
      cases hat : listenerAt fs alive (m.path e) with
      | ok l =>
        rw [path] at hat
        rw [hat] at h
        rw [Except.ok.inj h]
      | error cause =>
        rw [path] at hat
        rw [hat] at h
        simp only at h
        split at h <;> cases h
    obtain ⟨hshort, rfl, halive⟩ := (listenerAt_of_place hplace hface).1 hreached
    exact ⟨⟨hshort, hown, p, hplace, hface⟩, halive⟩
  · rintro ⟨⟨hshort, hown, p, hplace, hface⟩, halive⟩
    obtain ⟨mode, hdir⟩ := hown.look
    have hreached : listenerAt fs alive (m.path e) = .ok n :=
      (listenerAt_of_place hplace hface).2 ⟨hshort, rfl, halive⟩
    obtain ⟨⟨kind, v, mode'⟩, hnode, hsocket⟩ := Option.map_eq_some_iff.1 hface
    obtain ⟨rfl, rfl⟩ := Prod.mk.inj hsocket
    have hlook := look_of_place hplace
    rw [hnode] at hlook
    rw [dir] at hdir
    rw [path] at hlook hreached
    simp only [locate, Bind.bind, Except.bind, hdir, hlook, checkOwner, if_true, hreached]
    simp

/-! ## Binding -/

theorem checkPath_base (h : Owns fs m.user.uid m.dir) (hne : m.props.dir.text ≠ "") :
    checkPath m.props.dir = .ok () := by
  obtain ⟨d, hplace, -⟩ := h
  obtain ⟨sep, htext, -⟩ := Path.toList_join (p := m.props.dir) m.plain
  rw [List.append_assoc] at htext
  exact checkPath_of_append htext hne (place_ok_iff.1 hplace).1

/-- A bind makes directories and then takes the place of the socket, or fails before it does. -/
theorem bind_cases {r : Except LinkError Unit}
    (h : Rendezvous.bind fs m.user m.props e n = (r, fs')) :
    (fs.Grown fs' ∧ ∃ fault, r = .error fault) ∨
      ∃ mid, fs.Grown mid ∧ m.Ready mid ∧ takePlace mid (m.path e) m.user.uid n = (r, fs') := by
  rw [Rendezvous.bind] at h
  have hbase := makeDirectories_grown fs m.user.uid baseMode m.props.dir
  cases hmade : fs.makeDirectories m.user.uid baseMode m.props.dir with
  | mk made fs₁ =>
    rw [hmade] at h hbase
    cases made with
    | error cause =>
      cases h
      exact .inl ⟨hbase, _, rfl⟩
    | ok u =>
      simp only [lift, liftIo] at h
      rcases prepareUserDir_cases fs₁ m.user.uid m.endsInSlash_dir with
        ⟨fault, hprep⟩ | ⟨mid, hgrown, hown, hprep⟩
      · rw [dir] at hprep
        rw [hprep] at h
        cases h
        exact .inl ⟨hbase, _, rfl⟩
      · have htake : takePlace mid (m.path e) m.user.uid n = (r, fs') := by
          rw [dir] at hprep
          rw [hprep] at h
          exact h
        refine .inr ⟨mid, hbase.trans hgrown, ⟨?_, hown⟩, htake⟩
        by_cases hempty : m.props.dir.text = ""
        · exact .inl hempty
        · exact .inr (hgrown.keeps.isDirectory
            (isDirectory_of_makeDirectories hmade (checkPath_base hown hempty)))

/-- Where the directories are found, nothing else is in the way of taking the place. -/
theorem bind_of_ready (h : m.Ready fs) : ∃ mid, fs.Grown mid ∧ m.Ready mid
    ∧ Rendezvous.bind fs m.user m.props e n = takePlace mid (m.path e) m.user.uid n := by
  have hbase := makeDirectories_grown fs m.user.uid baseMode m.props.dir
  have hok := makeDirectories_of_isDirectory h.base m.user.uid baseMode
  cases hmade : fs.makeDirectories m.user.uid baseMode m.props.dir with
  | mk made fs₁ =>
    rw [hmade] at hbase hok
    have hown := (h.keeps hbase.keeps).own
    rcases prepareUserDir_cases fs₁ m.user.uid m.endsInSlash_dir with
      ⟨fault, hprep⟩ | ⟨mid, hgrown, -, hprep⟩
    · have hfound := prepareUserDir_of_owns hown
      rw [hprep] at hfound
      cases hfound
    · refine ⟨mid, hbase.trans hgrown, h.keeps (hbase.trans hgrown).keeps, ?_⟩
      rw [dir] at hprep
      simp only at hok
      rw [Rendezvous.bind, hmade, hok]
      simp only [lift, liftIo, hprep]
      rfl

/-- What taking the place of a socket comes to, and what stands there then. -/
inductive Taken (m : Site) (e : EndpointName) (n : Nat) :
    Except LinkError Unit → Option (NodeKind × Nat) → Prop
  | tooLong (long : maxSocketPath ≤ (m.path e).text.utf8ByteSize) :
    Taken m e n (.error (.io pathTooLong)) none
  | bound (short : (m.path e).text.utf8ByteSize < maxSocketPath) :
    Taken m e n (.ok ()) (some (.socket (some n), m.user.uid))

/-- The place of an endpoint is taken, or what stands there does not yield. -/
theorem takePlace_cases {r : Except LinkError Unit} (ho : Owns fs m.user.uid m.dir)
    (hu : m.Unlinked fs) (h : takePlace fs (m.path e) m.user.uid n = (r, fs')) :
    (fs' = fs ∧ (∃ fault, r = .error fault)
      ∧ ∀ p, fs.place false (m.path e) = .ok p → ¬fs.Yields m.user.uid p) ∨
    ∃ p f, fs.place false (m.path e) = .ok p ∧ fs.ChangedAt fs' p f ∧ m.Taken e n r f := by
  by_cases hy : ∃ p, fs.place false (m.path e) = .ok p ∧ fs.Yields m.user.uid p
  · obtain ⟨p, hplace, hyields⟩ := hy
    obtain ⟨b, hb⟩ := place_path_own ho hplace
    have hdirectory := ne_directory_of_yields hyields
    have hlink (t : Path) (u : Nat) : fs.face? p ≠ some (.symlink t, u) := hb ▸ hu b e t u
    rw [takePlace_of_yields hplace (m.endsInSlash_path e) hyields hlink] at h
    split at h
    · next hlong =>
      obtain ⟨rfl, rfl⟩ := Prod.mk.inj h
      exact .inr ⟨p, _, hplace, changedAt_remove hdirectory hlink, .tooLong hlong⟩
    · next hshort =>
      obtain ⟨rfl, rfl⟩ := Prod.mk.inj h
      exact .inr ⟨p, _, hplace, changedAt_put_socket hdirectory hlink _ _ _,
        .bound (Nat.lt_of_not_le hshort)⟩
  · have hrefused (p : Place) (hp : fs.place false (m.path e) = .ok p) :
        ¬fs.Yields m.user.uid p := fun hyields => hy ⟨p, hp, hyields⟩
    obtain ⟨fault, hfault⟩ := takePlace_refused (n := n) (m.endsInSlash_path e) hrefused
    rw [hfault] at h
    obtain ⟨rfl, rfl⟩ := Prod.mk.inj h
    exact .inl ⟨rfl, ⟨fault, rfl⟩, hrefused⟩

/-- Of a bind that fails only directories may be left, unless it cleared the place of a socket whose
path is too long; one that does not fail leaves the socket. -/
theorem bind_outcome {r : Except LinkError Unit}
    (h : Rendezvous.bind fs m.user m.props e n = (r, fs')) (hu : m.Unlinked fs) :
    (fs.Grown fs' ∧ ∃ fault, r = .error fault) ∨
      ∃ mid p f, fs.Grown mid ∧ m.Ready mid ∧ mid.place false (m.path e) = .ok p
        ∧ mid.ChangedAt fs' p f ∧ m.Taken e n r f := by
  rcases bind_cases h with hfailed | ⟨mid, hgrown, hready, htake⟩
  · exact .inl hfailed
  rcases takePlace_cases hready.own (hu.keeps hgrown.keeps) htake with
    ⟨rfl, hfault, -⟩ | ⟨p, f, hplace, hchanged, htaken⟩
  · exact .inl ⟨hgrown, hfault⟩
  · exact .inr ⟨mid, p, f, hgrown, hready, hplace, hchanged, htaken⟩

theorem bind_keeps {r : Except LinkError Unit}
    (h : Rendezvous.bind fs m.user m.props e n = (r, fs')) (hu : m.Unlinked fs) : fs.Keeps fs' := by
  rcases bind_outcome h hu with ⟨hgrown, -⟩ | ⟨mid, p, f, hgrown, -, -, hchanged, -⟩
  · exact hgrown.keeps
  · exact hgrown.keeps.trans hchanged.keeps

/-- A bind that succeeds puts the listener's socket in place. -/
theorem stands_bind (h : Rendezvous.bind fs m.user m.props e n = (.ok (), fs'))
    (hu : m.Unlinked fs) : m.Ready fs' ∧ m.Stands fs' e n := by
  rcases bind_outcome h hu with ⟨-, fault, hfault⟩ | ⟨mid, p, f, -, hready, hplace, hchanged, htaken⟩
  · cases hfault
  · cases htaken with
    | bound short =>
      have hready' := hready.keeps hchanged.keeps
      exact ⟨hready', short, hready'.own, p, hchanged.keeps.place hplace, hchanged.self⟩

/-! ## The other endpoints -/

/-- A change leaves the ways and the socket at an endpoint, and puts none there. -/
structure Leaves (m : Site) (fs fs' : FileSystem) (e : EndpointName) : Prop where
  keeps : fs.Keeps fs'
  socket {p : Place} (h : fs.place false (m.path e) = .ok p) {b : Option Nat} {u : Nat} :
    fs'.face? p = some (.socket b, u) ↔ fs.face? p = some (.socket b, u)

theorem Leaves.stands_iff (h : m.Leaves fs fs' e) (ho : Owns fs m.user.uid m.dir)
    (hp : fs.place false (m.path e) = .ok p) : m.Stands fs' e n ↔ m.Stands fs e n := by
  constructor
  · rintro ⟨hshort, -, q, hplace, hface⟩
    rw [h.keeps.place hp] at hplace
    cases hplace
    exact ⟨hshort, ho, p, hp, (h.socket hp).1 hface⟩
  · rintro ⟨hshort, hown, q, hplace, hface⟩
    exact ⟨hshort, hown.keeps h.keeps, q, h.keeps.place hplace, (h.socket hplace).2 hface⟩

theorem Leaves.stands (h : m.Leaves fs fs' e) (hs : m.Stands fs e n) : m.Stands fs' e n := by
  obtain ⟨p, hplace, -⟩ := hs.socket
  exact (h.stands_iff hs.own hplace).2 hs

/-- A bind leaves the other endpoints, and if it fails also its own. -/
theorem bind_leaves {r : Except LinkError Unit}
    (h : Rendezvous.bind fs m.user m.props e' n = (r, fs')) (hu : m.Unlinked fs)
    (hother : e' ≠ e ∨ (r ≠ .ok () ∧ (m.path e).text.utf8ByteSize < maxSocketPath)) :
    m.Leaves fs fs' e := by
  rcases bind_outcome h hu with ⟨hgrown, -⟩ | ⟨mid, q, f, hgrown, -, hplace', hchanged, htaken⟩
  · exact ⟨hgrown.keeps, fun _ => hgrown.face_iff (by simp)⟩
  have hne : e' ≠ e := by
    rcases hother with hother | ⟨hr, hshort⟩
    · exact hother
    · rintro rfl
      cases htaken with
      | tooLong long => exact absurd hshort (Nat.not_lt.2 long)
      | bound => exact hr rfl
  refine ⟨hgrown.keeps.trans hchanged.keeps, fun {p} hplace b u => ?_⟩
  have hpq : p ≠ q := (place_path_ne (hgrown.keeps.place hplace) hplace' hne).symm
  rw [hchanged.elsewhere p hpq, hgrown.face_iff (by simp)]

/-- A socket that stands at the endpoint keeps nobody from binding. -/
theorem bind_of_stands {k : Nat} (hr : m.Ready fs) (hu : m.Unlinked fs) (hs : m.Stands fs e k) (n : Nat) :
    (Rendezvous.bind fs m.user m.props e n).1 = .ok () := by
  obtain ⟨mid, hgrown, hready, hbind⟩ := bind_of_ready (e := e) (n := n) hr
  obtain ⟨p, hplace, hface⟩ := hs.socket
  have hmid : mid.place false (m.path e) = .ok p := hgrown.keeps.place hplace
  have hyields : mid.Yields m.user.uid p := by
    intro k u hf
    rw [hgrown.face_of_some hface] at hf
    cases hf
    exact ⟨rfl, by simp⟩
  rw [hbind]
  cases htake : takePlace mid (m.path e) m.user.uid n with
  | mk r fs' =>
    rcases takePlace_cases hready.own (hu.keeps hgrown.keeps) htake with
      ⟨-, -, hrefused⟩ | ⟨q, f, -, -, htaken⟩
    · exact absurd hyields (hrefused p hmid)
    · cases htaken with
      | tooLong long => exact absurd hs.short (Nat.not_lt.2 long)
      | bound => rfl

/-! ## Closing -/

/-- A listener that closes takes away what stands at its path, unless that is a directory. -/
theorem unbind_cases (ho : Owns fs m.user.uid m.dir) (hu : m.Unlinked fs) (e : EndpointName) :
    (unbind fs (m.path e) = fs
      ∧ ∀ p, fs.place false (m.path e) = .ok p → ∀ b u, fs.face? p ≠ some (.socket b, u)) ∨
    ∃ p, fs.place false (m.path e) = .ok p ∧ fs.ChangedAt (unbind fs (m.path e)) p none := by
  cases hplace : fs.place false (m.path e) with
  | error cause =>
    have hunlink : fs.unlink (m.path e) = .error cause := by
      rw [unlink, hplace]
      rfl
    exact .inl ⟨by rw [unbind, hunlink], fun p hp => by cases hp⟩
  | ok p =>
    have hunlink := unlink_of_place hplace
    cases hat : fs.at? p with
    | none =>
      rw [hat] at hunlink
      refine .inl ⟨by rw [unbind, hunlink], fun q hq b u => ?_⟩
      cases hq
      simp [face?, hat]
    | some node =>
      obtain ⟨kind, uid, mode⟩ := node
      by_cases hkind : kind = .directory
      · subst hkind
        rw [hat] at hunlink
        refine .inl ⟨by rw [unbind, hunlink], fun q hq b u => ?_⟩
        cases hq
        simp [face?, hat]
      · have hremove : unbind fs (m.path e) = fs.remove p := by
          rw [hat] at hunlink
          cases kind <;> first | exact absurd rfl hkind | rw [unbind, hunlink]
        obtain ⟨b, hb⟩ := place_path_own ho hplace
        rw [hremove]
        refine .inr ⟨p, rfl, changedAt_remove (fun u hf => ?_) (hb ▸ hu b e)⟩
        rw [face?, hat] at hf
        exact hkind (Prod.mk.inj (Option.some.inj hf)).1

theorem unbind_keeps (ho : Owns fs m.user.uid m.dir) (hu : m.Unlinked fs) (e : EndpointName) :
    fs.Keeps (unbind fs (m.path e)) := by
  rcases unbind_cases ho hu e with ⟨hsame, -⟩ | ⟨p, -, hchanged⟩
  · rw [hsame]
    exact .refl fs
  · exact hchanged.keeps

theorem unbind_leaves (ho : Owns fs m.user.uid m.dir) (hu : m.Unlinked fs) (hne : e' ≠ e) :
    m.Leaves fs (unbind fs (m.path e')) e := by
  rcases unbind_cases ho hu e' with ⟨hsame, -⟩ | ⟨q, hplace', hchanged⟩
  · rw [hsame]
    exact ⟨.refl fs, fun _ => Iff.rfl⟩
  · refine ⟨hchanged.keeps, fun {p} hplace b u => ?_⟩
    rw [hchanged.elsewhere p (place_path_ne hplace' hplace hne.symm)]

/-- Whosever listener closes, no socket is left at its endpoint. -/
theorem not_stands_unbind (ho : Owns fs m.user.uid m.dir) (hu : m.Unlinked fs) (e : EndpointName) :
    ¬m.Stands (unbind fs (m.path e)) e n := by
  rintro ⟨-, -, q, hplace, hface⟩
  rcases unbind_cases ho hu e with ⟨hsame, hnone⟩ | ⟨p, hplace', hchanged⟩
  · rw [hsame] at hplace hface
    exact hnone q hplace _ _ hface
  · rw [hchanged.keeps.place hplace'] at hplace
    cases hplace
    rw [hchanged.self] at hface
    cases hface

end Site
end CommandLink.Rendezvous
