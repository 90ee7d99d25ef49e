import CommandLink.Properties
/-!
# Whose pipe it is

The path of a pipe names its user and its endpoint with a hyphen between them, and a name may have hyphens
of its own. So two pairs of names have one path exactly if the hyphen between the one pair is a hyphen
within the other: the user `a-b` has the pipe `c` where the user `a` has the pipe `b-c`.

Results:
* `append_hyphen_eq_iff`: a text that is split at two of its hyphens.
* `pipePath_eq_iff`: when two paths are one.
* `pipes_by_names`: what keeps pipes apart, and whose pipes lie where another user has pipes.
* `pipes_by_names_meet`: two users of whom one has the other one's pipe.
-/
namespace CommandLink

/-- The second pair is the same text, split at a hyphen within the first name of the first pair. -/
def SplitsBefore (a b a' b' : String) : Prop :=
  ∃ m, a = a' ++ "-" ++ m ∧ b' = m ++ "-" ++ b

section Hyphens
variable {a b a' b' : String}

theorem append_hyphen_eq_iff {a b a' b' : List Char} : a ++ '-' :: b = a' ++ '-' :: b'
    ↔ (a = a' ∧ b = b') ∨ (∃ m, a = a' ++ '-' :: m ∧ b' = m ++ '-' :: b)
      ∨ ∃ m, a' = a ++ '-' :: m ∧ b = m ++ '-' :: b' := by
  constructor
  · intro h
    rcases List.append_eq_append_iff.1 h with ⟨between, ha, hsplit⟩ | ⟨between, ha, hsplit⟩
    · rcases List.cons_eq_append_iff.1 hsplit with ⟨rfl, hb⟩ | ⟨m, rfl, hb⟩
      · rw [List.append_nil] at ha
        exact .inl ⟨ha.symm, (List.cons.inj hb).2.symm⟩
      · exact .inr (.inr ⟨m, ha, hb⟩)
    · rcases List.cons_eq_append_iff.1 hsplit with ⟨rfl, hb⟩ | ⟨m, rfl, hb⟩
      · rw [List.append_nil] at ha
        exact .inl ⟨ha, (List.cons.inj hb).2⟩
      · exact .inr (.inl ⟨m, ha, hb⟩)
  · intro h
    rcases h with ⟨rfl, rfl⟩ | ⟨m, rfl, rfl⟩ | ⟨m, rfl, rfl⟩
    · rfl
    · rw [List.append_assoc, List.cons_append]
    · rw [List.append_assoc, List.cons_append]

theorem toList_hyphen (a b : String) : (a ++ "-" ++ b).toList = a.toList ++ '-' :: b.toList := by
  rw [String.toList_append, String.toList_append, List.append_assoc]
  rfl

theorem splitsBefore_iff : SplitsBefore a b a' b'
    ↔ ∃ m, a.toList = a'.toList ++ '-' :: m ∧ b'.toList = m ++ '-' :: b.toList := by
  unfold SplitsBefore
  constructor
  · intro h
    obtain ⟨m, rfl, rfl⟩ := h
    exact ⟨m.toList, toList_hyphen a' m, toList_hyphen m b⟩
  · intro h
    obtain ⟨m, ha, hb⟩ := h
    refine ⟨String.ofList m, String.toList_inj.1 ?_, String.toList_inj.1 ?_⟩
    · rw [toList_hyphen, String.toList_ofList, ha]
    · rw [toList_hyphen, String.toList_ofList, hb]

theorem hyphen_eq_iff : a ++ "-" ++ b = a' ++ "-" ++ b'
    ↔ (a = a' ∧ b = b') ∨ SplitsBefore a b a' b' ∨ SplitsBefore a' b' a b := by
  rw [← String.toList_inj, toList_hyphen, toList_hyphen, append_hyphen_eq_iff, splitsBefore_iff,
    splitsBefore_iff, String.toList_inj, String.toList_inj]

/-- The hyphens of a text. -/
def hyphens (s : String) : Nat :=
  s.toList.count '-'

theorem hyphens_append (a b : String) : hyphens (a ++ "-" ++ b) = hyphens a + hyphens b + 1 := by
  unfold hyphens
  rw [toList_hyphen, List.count_append, List.count_cons_self]
  omega

/-- A split before another one leaves fewer hyphens in the first part and more in the second. -/
theorem SplitsBefore.fewer_hyphens (h : SplitsBefore a b a' b') :
    hyphens a' < hyphens a ∧ hyphens b < hyphens b' := by
  obtain ⟨m, rfl, rfl⟩ := h
  rw [hyphens_append, hyphens_append]
  omega

/-- What is behind a hyphen in a plain name goes on with one before another plain name. -/
theorem isPlainName_behind {m : String} (ha : isPlainName (a ++ "-" ++ m) = true)
    (hb : isPlainName b = true) : isPlainName (m ++ "-" ++ b) = true := by
  rw [isPlainName_iff, toList_hyphen] at ha
  rw [isPlainName_iff] at hb
  rw [isPlainName_iff, toList_hyphen]
  refine ⟨?_, ?_⟩
  · intro hempty
    rw [← String.toList_eq_nil_iff, toList_hyphen] at hempty
    exact List.append_ne_nil_of_right_ne_nil _ (List.cons_ne_nil _ _) hempty
  · intro c hc
    rcases List.mem_append.1 hc with hc | hc
    · exact ha.2 c (List.mem_append_right _ (List.mem_cons_of_mem _ hc))
    · rcases List.mem_cons.1 hc with rfl | hc
      · rfl
      · exact hb.2 c hc

end Hyphens

namespace PipeProperties
variable {p : PipeProperties} {u u' : User} {e e' : EndpointName}

theorem pipePath_eq_iff : p.pipePath u e = p.pipePath u' e' ↔ (u.name = u'.name ∧ e = e')
    ∨ SplitsBefore u.name e.text u'.name e'.text ∨ SplitsBefore u'.name e'.text u.name e.text := by
  have hpath (u : User) (e : EndpointName) :
      p.pipePath u e = "\\\\.\\pipe\\" ++ p.base ++ "-" ++ (u.name ++ "-" ++ e.text) := by
    simp only [pipePath, String.append_assoc]
  have htext : e.text = e'.text ↔ e = e' := ⟨EndpointName.ext, congrArg _⟩
  rw [hpath, hpath, String.append_right_inj, hyphen_eq_iff, htext]

/-- When the pipes of users are kept apart, and when not. -/
structure ByNames (p : PipeProperties) : Prop where
  /-- Two paths are one if the names are, or if the one pair of names is the other one, split at another
  hyphen. -/
  same_iff : ∀ u e u' e', p.pipePath u e = p.pipePath u' e' ↔ (u.name = u'.name ∧ e = e')
    ∨ SplitsBefore u.name e.text u'.name e'.text ∨ SplitsBefore u'.name e'.text u.name e.text
  /-- A user's endpoints are kept apart. -/
  own : ∀ u e e', p.pipePath u e = p.pipePath u e' ↔ e = e'
  /-- So are the users of one endpoint. -/
  shared : ∀ u u' e, p.pipePath u e = p.pipePath u' e ↔ u.name = u'.name
  /-- And all pairs where the users' names, or those of the endpoints, have equally many hyphens. -/
  apart : ∀ u e u' e', hyphens u.name = hyphens u'.name ∨ hyphens e.text = hyphens e'.text →
    p.pipePath u e = p.pipePath u' e' → u.name = u'.name ∧ e = e'
  /-- Users have a pipe in common if one of their names goes on the other one with a hyphen. -/
  meet_iff : ∀ u u', isPlainName u.name = true → isPlainName u'.name = true →
    ((∃ e e', p.pipePath u e = p.pipePath u' e') ↔ u.name = u'.name
      ∨ (∃ m, u.name = u'.name ++ "-" ++ m) ∨ ∃ m, u'.name = u.name ++ "-" ++ m)
  /-- All pipes of the longer name then lie where the shorter one has pipes. -/
  covered : ∀ u u' m, isPlainName u.name = true → u.name = u'.name ++ "-" ++ m →
    ∀ e, ∃ e', e'.text = m ++ "-" ++ e.text ∧ p.pipePath u' e' = p.pipePath u e

theorem covered {m : String} (hu : isPlainName u.name = true) (hname : u.name = u'.name ++ "-" ++ m)
    (e : EndpointName) : ∃ e', e'.text = m ++ "-" ++ e.text ∧ p.pipePath u' e' = p.pipePath u e := by
  rw [hname] at hu
  refine ⟨⟨m ++ "-" ++ e.text, isPlainName_behind hu e.plain⟩, rfl, ?_⟩
  rw [pipePath_eq_iff]
  exact .inr (.inr ⟨m, hname, rfl⟩)

theorem meet_iff (hu : isPlainName u.name = true) (hu' : isPlainName u'.name = true) :
    (∃ e e', p.pipePath u e = p.pipePath u' e') ↔ u.name = u'.name
      ∨ (∃ m, u.name = u'.name ++ "-" ++ m) ∨ ∃ m, u'.name = u.name ++ "-" ++ m := by
  constructor
  · intro h
    obtain ⟨e, e', h⟩ := h
    rcases pipePath_eq_iff.1 h with ⟨hname, -⟩ | ⟨m, hname, -⟩ | ⟨m, hname, -⟩
    · exact .inl hname
    · exact .inr (.inl ⟨m, hname⟩)
    · exact .inr (.inr ⟨m, hname⟩)
  · intro h
    rcases h with hname | ⟨m, hname⟩ | ⟨m, hname⟩
    · exact ⟨.agent, .agent, pipePath_eq_iff.2 (.inl ⟨hname, rfl⟩)⟩
    · obtain ⟨e', -, hpath⟩ := covered (p := p) hu hname .agent
      exact ⟨_, e', hpath.symm⟩
    · obtain ⟨e, -, hpath⟩ := covered (p := p) hu' hname .agent
      exact ⟨e, _, hpath⟩

theorem apart (hhyphens : hyphens u.name = hyphens u'.name ∨ hyphens e.text = hyphens e'.text)
    (h : p.pipePath u e = p.pipePath u' e') : u.name = u'.name ∧ e = e' := by
  rcases pipePath_eq_iff.1 h with hsame | hsplits | hsplits
  · exact hsame
  · have hless := hsplits.fewer_hyphens
    omega
  · have hless := hsplits.fewer_hyphens
    omega

/-- Two pipes are one only where the hyphen behind the user in the one path is a hyphen of a name in the
other. -/
theorem pipes_by_names (p : PipeProperties) : p.ByNames where
  same_iff u e u' e' := pipePath_eq_iff
  own u e e' := ⟨fun h => (apart (.inl rfl) h).2, fun h => by rw [h]⟩
  shared u u' e := ⟨fun h => (apart (.inr rfl) h).1, fun h => pipePath_eq_iff.2 (.inl ⟨h, rfl⟩)⟩
  apart u e u' e' := apart
  meet_iff u u' := meet_iff
  covered u u' m := covered

/-- The user `a-b` opens at the endpoint `c` what the user `a` opens at `b-c`. -/
theorem pipes_by_names_meet : ∃ (p : PipeProperties) (u u' : User) (e e' : EndpointName),
    Properties.resolve Properties.builtinProviders .winPipe .empty ⟨"ipc.json"⟩ = .ok (.pipe p)
    ∧ u = User.of 1000 (.found "a-b") ∧ isPlainName u.name = true
    ∧ u' = User.of 1001 (.found "a") ∧ isPlainName u'.name = true
    ∧ EndpointName.ofText "c" = .ok e ∧ EndpointName.ofText "b-c" = .ok e'
    ∧ u.name ≠ u'.name ∧ e ≠ e' ∧ p.pipePath u e = p.pipePath u' e' := by
  refine ⟨⟨Properties.defaultName, by decide⟩, _, _, ⟨"c", by decide⟩, ⟨"b-c", by decide⟩, ?_,
    rfl, User.isPlainName_of _ _, rfl, User.isPlainName_of _ _, rfl, rfl, ?_⟩
  · rw [Properties.resolve_builtin]
    rfl
  · decide

end PipeProperties
end CommandLink
