import CommandLink.FileSystem
/-!
# Ways through the files

A walk along a path is given a number of steps that is always enough, so where a path leads can be
said without counting them: `Leads` has a case for each thing that a name can be. It only depends on
which places are directories and which are links, and it is kept by every change that leaves these
alone.

Results:
* `place_ok_iff`: a path leads to a place exactly if there is a way there.
* `Leads.keeps`: a way remains as long as directories and links do.
* `Leads.ends`, `Leads.within`: what is entered last is the last name of the place, and in a directory
  every name can be entered.
* `Leads.followed`: a way that does not end at a link ends there whether links are followed or not.
* `Leads.before`, `Leads.of_remove`: where a way enters its last name, and which ways remain when
  something is taken away.
-/
namespace CommandLink.FileSystem

/-- What kind of node stands at a place. -/
def kind? (fs : FileSystem) (p : Place) : Option NodeKind :=
  (fs.at? p).map Node.kind

/-- A name that is looked up in a directory. -/
def IsEntry (s : String) : Prop :=
  s ≠ "" ∧ s ≠ "." ∧ s ≠ ".." ∧ s.utf8ByteSize ≤ maxName

/-- There is a way from a directory along names to a place, over at most so many links. -/
inductive Leads (fs : FileSystem) (follow : Bool) : Nat → Place → List String → Place → Prop
  | arrived {links : Nat} {base : Place} : Leads fs follow links base [] base
  | idle {links : Nat} {base q : Place} {s : String} {rest : List String} (blank : s = "" ∨ s = ".")
      (on : Leads fs follow links base rest q) : Leads fs follow links base (s :: rest) q
  | up {links : Nat} {base q : Place} {rest : List String}
      (on : Leads fs follow links base.dropLast rest q) :
      Leads fs follow links base (".." :: rest) q
  | into {links : Nat} {base q : Place} {s : String} {rest : List String} (entry : IsEntry s)
      (directory : fs.kind? (base ++ [s]) = some .directory)
      (on : Leads fs follow links (base ++ [s]) rest q) : Leads fs follow links base (s :: rest) q
  | along {links : Nat} {base q : Place} {s : String} {t : Path} {rest : List String}
      (entry : IsEntry s) (link : fs.kind? (base ++ [s]) = some (.symlink t))
      (goes : rest ≠ [] ∨ follow = true)
      (on : Leads fs follow links (if t.isAbsolute then [] else base) (names t ++ rest) q) :
      Leads fs follow (links + 1) base (s :: rest) q
  | last {links : Nat} {base : Place} {s : String} (entry : IsEntry s)
      (stays : ∀ t, fs.kind? (base ++ [s]) = some (.symlink t) → follow = false) :
      Leads fs follow links base [s] (base ++ [s])

variable {fs fs' : FileSystem} {follow : Bool} {links fuel : Nat} {base p q : Place} {s : String}
  {ns rest : List String}

/-- What a walk does with a name that is looked up. -/
theorem walk_entry (entry : IsEntry s) :
    fs.walk follow false (fuel + 1) links base (s :: rest) =
      match fs.kind? (base ++ [s]) with
      | some .directory => fs.walk follow false fuel links (base ++ [s]) rest
      | some (.symlink t) =>
        if rest = [] ∧ !follow then .ok (base ++ [s])
        else match links with
          | 0 => .error .loop
          | links + 1 =>
            fs.walk follow false fuel links (if t.isAbsolute then [] else base) (names t ++ rest)
      | none => if rest = [] then .ok (base ++ [s]) else .error .noEntry
      | _ => if rest = [] then .ok (base ++ [s]) else .error .notDirectory := by
  obtain ⟨hne, hdot, hup, hsize⟩ := entry
  rw [walk, if_neg (by simp [hne, hdot]), if_neg hup, if_neg (by simp), if_neg (Nat.not_lt.2 hsize)]
  simp only [kind?]
  cases fs.at? (base ++ [s]) with
  | none => rfl
  | some n =>
    obtain ⟨kind, uid, mode⟩ := n
    cases kind <;> rfl

theorem leads_of_walk (h : fs.walk follow false fuel links base ns = .ok q) :
    fs.Leads follow links base ns q := by
  induction fuel generalizing links base ns with
  | zero =>
    cases ns with
    | nil =>
      rw [walk] at h
      cases h
      exact .arrived
    | cons s rest =>
      rw [walk] at h
      cases h
  | succ fuel ih =>
    cases ns with
    | nil =>
      rw [walk] at h
      cases h
      exact .arrived
    | cons s rest =>
      by_cases blank : s = "" ∨ s = "."
      · rw [walk, if_pos blank] at h
        exact .idle blank (ih h)
      by_cases hup : s = ".."
      · rw [walk, if_neg blank, if_pos hup] at h
        subst hup
        exact .up (ih h)
      by_cases hsize : s.utf8ByteSize > maxName
      · rw [walk, if_neg blank, if_neg hup, if_neg (by simp), if_pos hsize] at h
        cases h
      have entry : IsEntry s :=
        ⟨fun he => blank (.inl he), fun he => blank (.inr he), hup, Nat.le_of_not_lt hsize⟩
      rw [walk_entry entry] at h
      have ends {e : Errno} (hstays : ∀ t, fs.kind? (base ++ [s]) = some (.symlink t) → follow = false)
          (h : (if rest = [] then .ok (base ++ [s]) else .error e) = Except.ok q) :
          fs.Leads follow links base (s :: rest) q := by
        split at h
        · next hlast =>
          cases h
          subst hlast
          exact .last entry hstays
        · cases h
      split at h
      · next hdir => exact .into entry hdir (ih h)
      · next t hlink =>
        split at h
        · next hlast =>
          obtain ⟨rfl, hfollow⟩ := hlast
          cases h
          exact .last entry fun t' _ => by simpa using hfollow
        · next hgoes =>
          cases links with
          | zero => cases h
          | succ links =>
            refine .along entry hlink ?_ (ih h)
            by_cases hrest : rest = []
            · exact .inr (by simpa [hrest] using hgoes)
            · exact .inl hrest
      · next hnone => exact ends (fun t ht => by rw [hnone] at ht; cases ht) h
      · next hlink _ => exact ends (fun t ht => absurd ht (hlink t)) h

/-- The length of the longest link. -/
def longest (fs : FileSystem) : Nat :=
  (fs.nodes.map fun e => match e.2.kind with
    | .symlink t => (names t).length
    | _ => 0).foldl max 0

theorem le_foldl_max {l : List Nat} {a n : Nat} (h : n ≤ a ∨ n ∈ l) : n ≤ l.foldl max a := by
  induction l generalizing a with
  | nil => exact h.resolve_right List.not_mem_nil
  | cons m l ih =>
    rcases h with h | h
    · exact ih (.inl (Nat.le_trans h (Nat.le_max_left a m)))
    · rcases List.mem_cons.1 h with rfl | h
      · exact ih (.inl (Nat.le_max_right a n))
      · exact ih (.inr h)

theorem length_le_longest {t : Path} (h : fs.kind? p = some (.symlink t)) :
    (names t).length ≤ fs.longest := by
  obtain ⟨n, hn, hkind⟩ := Option.map_eq_some_iff.1 h
  have hmem : (p, n) ∈ fs.nodes := by
    rw [at?] at hn
    split at hn
    · cases hn
      cases hkind
    · obtain ⟨before, after, hnodes, -⟩ := List.lookup_eq_some_iff.1 hn
      rw [hnodes]
      exact List.mem_append_right _ List.mem_cons_self
  refine le_foldl_max (.inr (List.mem_map.2 ⟨(p, n), hmem, ?_⟩))
  simp only [hkind]

/-- On a way every name takes one step, and every link adds its own. -/
theorem Leads.walk (h : fs.Leads follow links base ns q)
    (hfuel : ns.length + links * fs.longest ≤ fuel) :
    fs.walk follow false fuel links base ns = .ok q := by
  induction h generalizing fuel with
  | arrived => rw [FileSystem.walk]
  | @idle links base q s rest blank on ih =>
    obtain _ | fuel := fuel
    · simp at hfuel
    rw [FileSystem.walk, if_pos blank]
    exact ih (by simp at hfuel; omega)
  | @up links base q rest on ih =>
    obtain _ | fuel := fuel
    · simp at hfuel
    rw [FileSystem.walk, if_neg (by decide), if_pos rfl]
    exact ih (by simp at hfuel; omega)
  | @into links base q s rest entry directory on ih =>
    obtain _ | fuel := fuel
    · simp at hfuel
    rw [walk_entry entry, directory]
    exact ih (by simp at hfuel; omega)
  | @along links base q s t rest entry link goes on ih =>
    obtain _ | fuel := fuel
    · simp at hfuel
    have hlength := length_le_longest link
    rw [walk_entry entry, link]
    simp only
    rw [if_neg (by rintro ⟨hrest, hfollow⟩; rcases goes with h | h <;> simp_all)]
    refine ih ?_
    rw [Nat.succ_mul] at hfuel
    simp only [List.length_append, List.length_cons] at hfuel ⊢
    omega
  | @last links base s entry stays =>
    obtain _ | fuel := fuel
    · simp at hfuel
    rw [walk_entry entry]
    split
    · rw [FileSystem.walk]
    · next t hlink => rw [if_pos ⟨rfl, by simp [stays t hlink]⟩]
    · rfl
    · rfl

theorem place_ok_iff {path : Path} :
    fs.place follow path = .ok q ↔ checkPath path = .ok ()
      ∧ fs.Leads follow maxLinks (if path.isAbsolute then [] else fs.here) (names path) q := by
  have hplace : fs.place follow path = (checkPath path).bind fun _ =>
      (fs.walk follow false ((names path).length + maxLinks * fs.longest) maxLinks
        (if path.isAbsolute then [] else fs.here) (names path)).mapError Errno.error := rfl
  rw [hplace]
  cases hcheck : checkPath path with
  | error e => simp [Except.bind]
  | ok u =>
    cases hwalk : fs.walk follow false ((names path).length + maxLinks * fs.longest) maxLinks
        (if path.isAbsolute then [] else fs.here) (names path) with
    | ok p =>
      refine ⟨fun h => ?_, fun h => ?_⟩
      · cases h
        exact ⟨rfl, leads_of_walk hwalk⟩
      · rw [h.2.walk (Nat.le_refl _)] at hwalk
        cases hwalk
        rfl
    | error e =>
      refine ⟨fun h => ?_, fun h => ?_⟩
      · cases h
      · rw [h.2.walk (Nat.le_refl _)] at hwalk
        cases hwalk

/-! ## Ways one after another -/

theorem Leads.eq_of_nil (h : fs.Leads follow links base [] q) : q = base := by
  cases h
  rfl

/-- From a directory a way goes on, if that needs no link. -/
theorem Leads.append {ms : List String} (h : fs.Leads true links base ns p)
    (hp : fs.kind? p = some .directory) (hms : ms ≠ []) (on : ∀ n, fs.Leads follow n p ms q) :
    fs.Leads follow links base (ns ++ ms) q := by
  induction h with
  | arrived => exact on _
  | idle blank _ ih => exact .idle blank (ih hp on)
  | up _ ih => exact .up (ih hp on)
  | into entry directory _ ih => exact .into entry directory (ih hp on)
  | along entry link _ _ ih =>
    have hon := ih hp on
    rw [List.append_assoc] at hon
    exact .along entry link (.inl (by simp [hms])) hon
  | last entry _ => exact .into entry hp (on _)

theorem Leads.followed (h : fs.Leads false links base ns q)
    (hq : ∀ t, fs.kind? q ≠ some (.symlink t)) : fs.Leads true links base ns q := by
  induction h with
  | arrived => exact .arrived
  | idle blank _ ih => exact .idle blank (ih hq)
  | up _ ih => exact .up (ih hq)
  | into entry directory _ ih => exact .into entry directory (ih hq)
  | along entry link goes _ ih => exact .along entry link (goes.imp_right fun _ => rfl) (ih hq)
  | last entry _ => exact .last entry fun t ht => absurd ht (hq t)

/-- A way that follows the last link has one before it that does not. -/
theorem Leads.unfollowed (h : fs.Leads true links base ns q) :
    ∃ p, fs.Leads false links base ns p := by
  induction h with
  | arrived => exact ⟨_, .arrived⟩
  | idle blank _ ih => exact ih.imp fun _ => .idle blank
  | up _ ih => exact ih.imp fun _ => .up
  | into entry directory _ ih => exact ih.imp fun _ => .into entry directory
  | @along _ _ _ _ _ rest entry link _ _ ih =>
    by_cases hrest : rest = []
    · subst hrest
      exact ⟨_, .last entry fun _ _ => rfl⟩
    · exact ih.imp fun _ => .along entry link (.inl hrest)
  | last entry _ => exact ⟨_, .last entry fun _ _ => rfl⟩

/-- In a directory every name can be entered. -/
theorem Leads.within (h : fs.Leads false links base ns p) (hp : fs.kind? p = some .directory)
    (entry : IsEntry s) : fs.Leads false links base (ns ++ [s]) (p ++ [s]) :=
  (h.followed fun t ht => by rw [hp] at ht; cases ht).append hp (List.cons_ne_nil s [])
    fun _ => .last entry fun _ _ => rfl

/-- What is entered last is the last name of the place. -/
theorem Leads.ends (h : fs.Leads false links base (ns ++ [s]) q)
    (hs : s ≠ "" ∧ s ≠ "." ∧ s ≠ "..") : IsEntry s ∧ ∃ p, q = p ++ [s] := by
  generalize hms : ns ++ [s] = ms at h
  obtain ⟨hempty, hdot, hup⟩ := hs
  induction h generalizing ns with
  | arrived => simp at hms
  | idle blank _ ih =>
    rcases List.append_eq_cons_iff.1 hms with ⟨-, h⟩ | ⟨ns', -, h⟩
    · cases h
      rcases blank with rfl | rfl <;> contradiction
    · exact ih h.symm
  | up _ ih =>
    rcases List.append_eq_cons_iff.1 hms with ⟨-, h⟩ | ⟨ns', -, h⟩
    · cases h
      contradiction
    · exact ih h.symm
  | @into _ base _ s' _ entry _ on ih =>
    rcases List.append_eq_cons_iff.1 hms with ⟨-, h⟩ | ⟨ns', -, h⟩
    · cases h
      exact ⟨entry, base, on.eq_of_nil⟩
    · exact ih h.symm
  | along _ _ goes _ ih =>
    rcases List.append_eq_cons_iff.1 hms with ⟨-, h⟩ | ⟨ns', -, rfl⟩
    · cases h
      simp at goes
    · exact ih (List.append_assoc _ _ _)
  | @last _ base _ entry _ =>
    rcases List.append_eq_cons_iff.1 hms with ⟨-, h⟩ | ⟨ns', -, h⟩
    · cases h
      exact ⟨entry, base, rfl⟩
    · simp at h

/-- A way leads to one place. -/
theorem Leads.unique (h : fs.Leads follow links base ns p) (h' : fs.Leads follow links base ns q) :
    p = q :=
  Except.ok.inj ((h.walk (Nat.le_refl _)).symm.trans (h'.walk (Nat.le_refl _)))

/-- Before the last name a way leads to the directory in which that is entered. -/
theorem Leads.before (h : fs.Leads false links base (ns ++ [s]) q)
    (hs : s ≠ "" ∧ s ≠ "." ∧ s ≠ "..") : ∃ d, fs.Leads true links base ns d ∧ q = d ++ [s] := by
  generalize hms : ns ++ [s] = ms at h
  obtain ⟨hempty, hdot, hup⟩ := hs
  induction h generalizing ns with
  | arrived => simp at hms
  | idle blank _ ih =>
    rcases List.append_eq_cons_iff.1 hms with ⟨-, h⟩ | ⟨ns', rfl, h⟩
    · cases h
      rcases blank with rfl | rfl <;> contradiction
    · obtain ⟨d, hd, hq⟩ := ih h.symm
      exact ⟨d, .idle blank hd, hq⟩
  | up _ ih =>
    rcases List.append_eq_cons_iff.1 hms with ⟨-, h⟩ | ⟨ns', rfl, h⟩
    · cases h
      contradiction
    · obtain ⟨d, hd, hq⟩ := ih h.symm
      exact ⟨d, .up hd, hq⟩
  | @into _ base _ s' _ entry directory on ih =>
    rcases List.append_eq_cons_iff.1 hms with ⟨rfl, h⟩ | ⟨ns', rfl, h⟩
    · cases h
      exact ⟨base, .arrived, on.eq_of_nil⟩
    · obtain ⟨d, hd, hq⟩ := ih h.symm
      exact ⟨d, .into entry directory hd, hq⟩
  | along entry link goes _ ih =>
    rcases List.append_eq_cons_iff.1 hms with ⟨-, h⟩ | ⟨ns', rfl, rfl⟩
    · cases h
      simp at goes
    · obtain ⟨d, hd, hq⟩ := ih (List.append_assoc _ _ _)
      exact ⟨d, .along entry link (.inr rfl) hd, hq⟩
  | @last _ base _ entry _ =>
    rcases List.append_eq_cons_iff.1 hms with ⟨rfl, h⟩ | ⟨ns', -, h⟩
    · cases h
      exact ⟨base, .arrived, rfl⟩
    · simp at h

/-- A slash at the end does not lead further. -/
theorem Leads.unslashed (h : fs.Leads follow links base (ns ++ [""]) q) :
    fs.Leads true links base ns q := by
  generalize hms : ns ++ [""] = ms at h
  induction h generalizing ns with
  | arrived => simp at hms
  | idle blank on ih =>
    rcases List.append_eq_cons_iff.1 hms with ⟨rfl, h⟩ | ⟨ns', rfl, h⟩
    · cases h
      rw [on.eq_of_nil]
      exact .arrived
    · exact .idle blank (ih h.symm)
  | up _ ih =>
    rcases List.append_eq_cons_iff.1 hms with ⟨-, h⟩ | ⟨ns', rfl, h⟩
    · exact absurd (List.cons.inj h).1 (by decide)
    · exact .up (ih h.symm)
  | into entry directory _ ih =>
    rcases List.append_eq_cons_iff.1 hms with ⟨-, h⟩ | ⟨ns', rfl, h⟩
    · cases h
      exact absurd rfl entry.1
    · exact .into entry directory (ih h.symm)
  | along entry link _ _ ih =>
    rcases List.append_eq_cons_iff.1 hms with ⟨-, h⟩ | ⟨ns', rfl, rfl⟩
    · cases h
      exact absurd rfl entry.1
    · exact .along entry link (.inr rfl) (ih (List.append_assoc _ _ _))
  | last entry _ =>
    rcases List.append_eq_cons_iff.1 hms with ⟨-, h⟩ | ⟨ns', -, h⟩
    · cases h
      exact absurd rfl entry.1
    · simp at h

/-! ## Changes that keep the ways -/

/-- What a node is and whose. -/
def face? (fs : FileSystem) (p : Place) : Option (NodeKind × Nat) :=
  (fs.at? p).map fun n => (n.kind, n.uid)

theorem kind?_eq_some_iff {k : NodeKind} : fs.kind? p = some k ↔ ∃ u, fs.face? p = some (k, u) := by
  simp only [kind?, face?]
  cases fs.at? p with
  | none => simp
  | some n => simp

/-- Directories remain, and links neither go nor come. -/
structure Keeps (fs fs' : FileSystem) : Prop where
  here : fs'.here = fs.here
  directory {p : Place} {u : Nat} (h : fs.face? p = some (.directory, u)) :
    fs'.face? p = some (.directory, u)
  symlink {p : Place} {t : Path} {u : Nat} :
    fs'.face? p = some (.symlink t, u) ↔ fs.face? p = some (.symlink t, u)

theorem Keeps.refl (fs : FileSystem) : fs.Keeps fs :=
  ⟨rfl, id, Iff.rfl⟩

theorem Keeps.trans {fs'' : FileSystem} (h : fs.Keeps fs') (h' : fs'.Keeps fs'') : fs.Keeps fs'' :=
  ⟨h'.here.trans h.here, fun hd => h'.directory (h.directory hd), h'.symlink.trans h.symlink⟩

theorem Keeps.kind?_directory (h : fs.Keeps fs') (hp : fs.kind? p = some .directory) :
    fs'.kind? p = some .directory := by
  obtain ⟨u, hu⟩ := kind?_eq_some_iff.1 hp
  exact kind?_eq_some_iff.2 ⟨u, h.directory hu⟩

theorem Keeps.kind?_symlink (h : fs.Keeps fs') {t : Path} :
    fs'.kind? p = some (.symlink t) ↔ fs.kind? p = some (.symlink t) := by
  simp only [kind?_eq_some_iff, h.symlink]

theorem Leads.keeps (hl : fs.Leads follow links base ns q) (h : fs.Keeps fs') :
    fs'.Leads follow links base ns q := by
  induction hl with
  | arrived => exact .arrived
  | idle blank _ ih => exact .idle blank ih
  | up _ ih => exact .up ih
  | into entry directory _ ih => exact .into entry (h.kind?_directory directory) ih
  | along entry link goes _ ih => exact .along entry (h.kind?_symlink.2 link) goes ih
  | last entry stays => exact .last entry fun t ht => stays t (h.kind?_symlink.1 ht)

theorem Keeps.place (h : fs.Keeps fs') {path : Path} (hp : fs.place follow path = .ok q) :
    fs'.place follow path = .ok q := by
  obtain ⟨hcheck, hl⟩ := place_ok_iff.1 hp
  rw [← h.here] at hl
  exact place_ok_iff.2 ⟨hcheck, hl.keeps h⟩

/-! ## What is taken away -/

theorem kind?_of_remove {k : NodeKind} (hp : p ≠ []) (h : (fs.remove p).kind? q = some k) :
    fs.kind? q = some k := by
  rw [kind?, at?_remove fs hp] at h
  split at h
  · cases h
  · exact h

/-- Where something was taken away, no new way has come. -/
theorem Leads.of_remove (hp : p ≠ []) (h : (fs.remove p).Leads false links base ns q) :
    fs.Leads false links base ns q := by
  induction h with
  | arrived => exact .arrived
  | idle blank _ ih => exact .idle blank ih
  | up _ ih => exact .up ih
  | into entry directory _ ih => exact .into entry (kind?_of_remove hp directory) ih
  | along entry link goes _ ih => exact .along entry (kind?_of_remove hp link) goes ih
  | last entry _ => exact .last entry fun _ _ => rfl

theorem place_of_remove {path : Path} (hp : p ≠ []) (h : (fs.remove p).place false path = .ok q) :
    fs.place false path = .ok q := by
  obtain ⟨hcheck, hl⟩ := place_ok_iff.1 h
  exact place_ok_iff.2 ⟨hcheck, hl.of_remove hp⟩

end CommandLink.FileSystem
