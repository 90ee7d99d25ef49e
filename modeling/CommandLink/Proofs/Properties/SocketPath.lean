import CommandLink.Proofs.Files.Joined
import CommandLink.Proofs.Json.Meaning
import CommandLink.Properties
/-!
# Where sockets lie

A path is taken for the steps that it leads through: from the root or from where one is, up or to a name.
However the base directory is written, a socket lies two steps below it, in the directory of its user. This
rests on the names alone: nothing but a plain name is taken for an endpoint, and a login that is none gives
way to a number.

Results:
* `parts_join`: a plain name is one more step.
* `parent?_join_join`: the path to the directory comes back as it was written.
* `reader_takes`: endpoints as JSON values.
* `sockets_within`: sockets lie in the directories of their users, no two of them in one place.
-/
namespace CommandLink

namespace Path
variable {p : Path} {s u : String}

/-- A step along a path. -/
inductive Component where
  | root
  /-- Where one is, if a path begins with it. -/
  | here
  | up
  | name (s : String)
  deriving DecidableEq

def Component.ofName (s : String) : Component :=
  if s = ".." then .up else .name s

/-- What a path begins with, besides names. -/
def start (p : Path) : List Component :=
  match anchor p.text.toList with
  | ['/'] => [.root]
  | ['.'] => [.here]
  | _ => []

/-- The steps along a path. Two paths with the same steps lead to the same place. -/
def parts (p : Path) : List Component :=
  p.start ++ p.components.map Component.ofName

/-! ## Anchors -/

theorem anchor_append_slash {cs : List Char} (h : cs ≠ []) (ds : List Char) :
    anchor (cs ++ '/' :: ds) = anchor cs := by
  match cs with
  | [c] =>
    simp only [anchor, List.cons_append]
    split <;> simp_all
  | c :: d :: cs =>
    simp only [anchor, List.cons_append]
    split <;> simp_all

theorem anchor_of_isPlainName (h : isPlainName s = true) : anchor s.toList = [] := by
  have hslash := not_mem_of_isPlainName h (c := '/') rfl
  have hdot := not_mem_of_isPlainName h (c := '.') rfl
  generalize s.toList = cs at hslash hdot
  fun_cases anchor cs with
  | case1 | case2 | case3 => simp_all
  | case4 => rfl

/-- An anchor is what its text begins with. -/
theorem anchor_append_drop (cs : List Char) : anchor cs ++ cs.drop (anchor cs).length = cs := by
  fun_cases anchor cs <;> rfl

theorem anchor_join (h : isPlainName s = true) :
    anchor (p.join ⟨s⟩).text.toList = anchor p.text.toList := by
  obtain ⟨sep, htext, ⟨rfl, hne⟩ | ⟨rfl, hempty | ⟨cs, hcs⟩⟩⟩ := toList_join (p := p) h
  · rw [htext, List.append_assoc]
    exact anchor_append_slash (mt String.toList_eq_nil_iff.1 hne) s.toList
  · rw [htext, hempty]
    exact anchor_of_isPlainName h
  · rw [htext, hcs, List.append_nil, List.append_assoc, List.singleton_append]
    cases cs with
    | nil => rfl
    | cons c cs =>
      rw [anchor_append_slash (List.cons_ne_nil c cs), anchor_append_slash (List.cons_ne_nil c cs)]

/-! ## Steps -/

theorem isIdle_of_isPlainName (h : isPlainName s = true) : isIdle s.toList = false := by
  have hdot := not_mem_of_isPlainName h (c := '.') rfl
  have hne := toList_ne_nil_of_isPlainName h
  rw [isIdle, Bool.or_eq_false_iff, beq_eq_false_iff_ne, beq_eq_false_iff_ne]
  refine ⟨hne, fun hs => hdot ?_⟩
  rw [hs]
  exact List.mem_singleton_self '.'

theorem components_of_isPlainName (h : isPlainName s = true) : (Path.mk s).components = [s] := by
  rw [components, segments_of_not_mem (not_mem_of_isPlainName h rfl)]
  simp [isIdle_of_isPlainName h]

theorem ofName_of_isPlainName (h : isPlainName s = true) : Component.ofName s = .name s := by
  refine if_neg fun hs => ?_
  subst hs
  exact absurd h (by decide)

theorem parts_join (h : isPlainName s = true) : (p.join ⟨s⟩).parts = p.parts ++ [.name s] := by
  unfold parts start
  rw [anchor_join h, components_join p ⟨s⟩ (isAbsolute_of_isPlainName h),
    components_of_isPlainName h, List.map_append, ← List.append_assoc, List.map_singleton,
    ofName_of_isPlainName h]

example : ((Path.mk "./run//../").join ⟨"anna"⟩).parts
    = [.here, .name "run", .up, .name "anna"] := by decide

/-! ## Parents -/

/-- The stretches of a path behind its anchor. -/
def stretches (p : Path) : List (List Char) :=
  segments (p.text.toList.drop (anchor p.text.toList).length)

theorem segments_drop_anchor {cs : List Char} (h : cs ≠ []) (hs : isPlainName s = true) :
    segments ((cs ++ '/' :: s.toList).drop (anchor (cs ++ '/' :: s.toList)).length)
      = segments (cs.drop (anchor cs).length) ++ [s.toList] := by
  have hlen : (anchor cs).length ≤ cs.length := by
    have hsplit := congrArg List.length (anchor_append_drop cs)
    rw [List.length_append] at hsplit
    omega
  rw [anchor_append_slash h, List.drop_append_of_le_length hlen, segments_append,
    segments_of_not_mem (not_mem_of_isPlainName hs rfl)]

/-- The last stretch of a path to a plain name is that name. -/
theorem stretches_join (h : isPlainName s = true) :
    ∃ above, (p.join ⟨s⟩).stretches = above ++ [s.toList] := by
  have hname := segments_of_not_mem (not_mem_of_isPlainName h (c := '/') rfl)
  unfold stretches
  obtain ⟨sep, htext, ⟨rfl, hne⟩ | ⟨rfl, hempty | ⟨cs, hcs⟩⟩⟩ := toList_join (p := p) h
  · rw [htext, List.append_assoc]
    exact ⟨_, segments_drop_anchor (mt String.toList_eq_nil_iff.1 hne) h⟩
  · refine ⟨[], ?_⟩
    rw [anchor_join h, htext, hempty]
    exact hname
  · rw [htext, hcs, List.append_nil, List.append_assoc, List.singleton_append]
    cases cs with
    | nil => exact ⟨[], hname⟩
    | cons c cs => exact ⟨_, segments_drop_anchor (List.cons_ne_nil c cs) h⟩

theorem dropIdle_cons (h : isPlainName s = true) (ss : List (List Char)) :
    dropIdle (s.toList :: ss) = s.toList :: ss := by
  refine List.dropWhile_cons_of_neg ?_
  rw [isIdle_of_isPlainName h]
  exact Bool.false_ne_true

/-- Behind a plain name a slash is put. -/
theorem toList_join_join (hu : isPlainName u = true) (hs : isPlainName s = true) :
    ((p.join ⟨u⟩).join ⟨s⟩).text.toList = (p.join ⟨u⟩).text.toList ++ '/' :: s.toList := by
  obtain ⟨c, hc, hlast⟩ := getLast?_join (p := p) hu
  obtain ⟨sep, htext, ⟨rfl, -⟩ | ⟨-, hempty | ⟨cs, hcs⟩⟩⟩ := toList_join (p := p.join ⟨u⟩) hs
  · rw [htext, List.append_assoc]
    rfl
  · rw [hempty] at hlast
    cases hlast
  · rw [hcs, List.getLast?_concat] at hlast
    exact absurd (Option.some.inj hlast).symm hc

theorem parent?_join_join (hu : isPlainName u = true) (hs : isPlainName s = true) :
    ((p.join ⟨u⟩).join ⟨s⟩).parent? = some (p.join ⟨u⟩) := by
  have hne : (p.join ⟨u⟩).text.toList ≠ [] := by
    intro hnil
    obtain ⟨c, -, hlast⟩ := getLast?_join (p := p) hu
    rw [hnil] at hlast
    cases hlast
  obtain ⟨above, habove⟩ := stretches_join (p := p) hu
  have hstretches := segments_drop_anchor hne hs
  rw [← toList_join_join hu hs] at hstretches
  unfold stretches at habove
  rw [habove] at hstretches
  unfold parent?
  dsimp only
  rw [hstretches, List.reverse_append, List.reverse_append, List.reverse_singleton,
    List.reverse_singleton, List.singleton_append, List.singleton_append, dropIdle_cons hs]
  dsimp only
  rw [dropIdle_cons hu, List.reverse_cons, List.reverse_reverse, ← habove, joinSegments_segments,
    anchor_join hs, anchor_append_drop, String.ofList_toList]

end Path

/-! ## Endpoints -/

namespace EndpointName
variable {s : String} {e : EndpointName}

theorem ofText_error_iff {err : LinkError} :
    ofText s = .error err ↔ isPlainName s = false ∧ err = .invalidEndpointName s := by
  unfold ofText
  split
  · next h => simp [h]
  · next h => simp [h, eq_comm]

theorem ofText?_eq_some_iff : ofText? s = some e ↔ isPlainName s = true ∧ e.text = s := by
  unfold ofText?
  split
  · next h =>
    constructor
    · intro he
      cases he
      exact ⟨h, rfl⟩
    · intro he
      exact congrArg some (ext he.2.symm)
  · next h => simp [h]

/-- A JSON value is an endpoint if it is a text and a plain name. -/
theorem reader_takes : Json.Takes reader fun v => v.text?.bind ofText? := by
  intro v bs h blank rest hblank hrest
  refine (Json.text_takes "a string" v bs h blank rest hblank hrest).bind fun s => ?_
  cases hname : isPlainName s with
  | false =>
    rw [ofText?, dif_neg (by rw [hname]; exact Bool.false_ne_true)]
    dsimp only
    rw [ofText_error hname]
    exact .fails rfl
  | true =>
    rw [ofText?, dif_pos hname]
    dsimp only
    rw [ofText, dif_pos hname]
    rfl

/-- A JSON text is an endpoint if it holds a text that is a plain name. -/
theorem parse_ok_iff {whole : Bytes} {v : Json.Value} (h : Json.Holds whole v) :
    Json.parse reader whole = .ok e ↔ ∃ s, v = .text s ∧ isPlainName s = true ∧ e.text = s := by
  rw [Json.parse_takes reader_takes h, Option.bind_eq_some_iff]
  simp only [ofText?_eq_some_iff]
  cases v with
  | text s => simp [Json.Value.text?]
  | null | boolean _ | number _ | list _ | object _ => simp [Json.Value.text?]

end EndpointName

/-! ## Sockets -/

/-- Every way to a name takes the plain texts as they are, and no others. -/
structure Entrances : Prop where
  given : ∀ s e, EndpointName.ofText s = .ok e ↔ isPlainName s = true ∧ e.text = s
  refused : ∀ s e, EndpointName.ofText s = .error e
    ↔ isPlainName s = false ∧ e = .invalidEndpointName s
  tried : ∀ s e, EndpointName.ofText? s = some e ↔ isPlainName s = true ∧ e.text = s
  /-- In JSON, with white space around it and however it is spelled. -/
  parsed : ∀ whole v, Json.Holds whole v → ∀ e, Json.parse EndpointName.reader whole = .ok e
    ↔ ∃ s, v = .text s ∧ isPlainName s = true ∧ e.text = s

namespace UnixSocketProperties

/-- Where the socket of an endpoint lies, and the directory of its user. -/
structure Within (p : UnixSocketProperties) (u : User) (e : EndpointName) : Prop where
  userDir : (p.userDir u).parts = p.dir.parts ++ [.name u.name]
  socket : (p.socketPath u e).parts = p.dir.parts ++ [.name u.name, .name e.text]
  last : (p.socketPath u e).parts.getLast? = some (.name e.text)
  /-- Not only the same steps, but the same text. -/
  parent : (p.socketPath u e).parent? = some (p.userDir u)
  absolute : (p.socketPath u e).isAbsolute = p.dir.isAbsolute

theorem within (p : UnixSocketProperties) {u : User} (hu : isPlainName u.name = true)
    (e : EndpointName) : Within p u e := by
  have huserDir : (p.userDir u).parts = p.dir.parts ++ [.name u.name] := Path.parts_join hu
  have hsocket : (p.socketPath u e).parts = p.dir.parts ++ [.name u.name, .name e.text] := by
    unfold socketPath
    rw [Path.parts_join e.plain, huserDir, List.append_assoc, List.singleton_append]
  refine ⟨huserDir, hsocket, ?_, Path.parent?_join_join hu e.plain, ?_⟩
  · rw [hsocket, List.getLast?_append]
    rfl
  · unfold socketPath userDir
    rw [Path.isAbsolute_join e.plain, Path.isAbsolute_join hu]

theorem parts_socketPath_inj (p : UnixSocketProperties) {u u' : User}
    (hu : isPlainName u.name = true) (hu' : isPlainName u'.name = true) {e e' : EndpointName} :
    (p.socketPath u e).parts = (p.socketPath u' e').parts ↔ u.name = u'.name ∧ e = e' := by
  rw [(within p hu e).socket, (within p hu' e').socket, List.append_cancel_left_eq]
  constructor
  · intro h
    injection h with hname hrest
    injection hrest with htext
    exact ⟨Path.Component.name.inj hname, EndpointName.ext (Path.Component.name.inj htext)⟩
  · intro h
    obtain ⟨hname, rfl⟩ := h
    rw [hname]

/-- Whoever a user is found to be, and wherever the sockets are kept: a socket lies in the directory of
its user, under the name of its endpoint, and of two different ones each has its own place. -/
theorem sockets_within : Entrances
    ∧ ∀ (p : UnixSocketProperties) (uid : Nat) (login : LoginLookup) (e : EndpointName),
      p.Within (User.of uid login) e
      ∧ ∀ (uid' : Nat) (login' : LoginLookup) (e' : EndpointName),
        (p.socketPath (User.of uid login) e).parts = (p.socketPath (User.of uid' login') e').parts
          ↔ (User.of uid login).name = (User.of uid' login').name ∧ e = e' := by
  refine ⟨⟨?_, ?_, ?_, ?_⟩, fun p uid login e => ⟨?_, ?_⟩⟩
  · exact fun s e => EndpointName.ofText_ok_iff
  · exact fun s e => EndpointName.ofText_error_iff
  · exact fun s e => EndpointName.ofText?_eq_some_iff
  · exact fun whole v h e => EndpointName.parse_ok_iff h
  · exact within p (User.isPlainName_of uid login) e
  · intro uid' login' e'
    exact parts_socketPath_inj p (User.isPlainName_of uid login) (User.isPlainName_of uid' login')

end UnixSocketProperties

end CommandLink
