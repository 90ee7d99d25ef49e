import CommandLink.FileSystem
import CommandLink.Endpoint
/-!
# Names along joined paths

What a walk makes of a path that was joined from a base and a plain name: it goes along the names of
the base, however these are written, and enters the name at the end.

Results:
* `names_join`: the names along a joined path.
* `names_bare`: without the slashes at its end a path has the same names, but for the empty one.
-/
namespace CommandLink

namespace Path

/-- The names between the slashes of a text, the empty ones left out. -/
def entries (cs : List Char) : List String :=
  ((segments cs).filter fun s => s ≠ []).map String.ofList

theorem entries_append (a b : List Char) : entries (a ++ '/' :: b) = entries a ++ entries b := by
  rw [entries, segments_append, List.filter_append, List.map_append]
  rfl

theorem entries_snoc_slash (cs : List Char) : entries (cs ++ ['/']) = entries cs := by
  rw [entries_append]
  exact List.append_nil _

theorem entries_append_slashes (cs : List Char) (n : Nat) :
    entries (cs ++ List.replicate n '/') = entries cs := by
  induction n with
  | zero => rw [List.replicate_zero, List.append_nil]
  | succ n ih => rw [List.replicate_succ', ← List.append_assoc, entries_snoc_slash, ih]

theorem segments_of_not_mem {cs : List Char} (h : '/' ∉ cs) : segments cs = [cs] := by
  induction cs with
  | nil => rfl
  | cons c cs ih =>
    obtain ⟨hc, hcs⟩ := not_or.1 (mt List.mem_cons.2 h)
    rw [segments, if_neg (Ne.symm hc), ih hcs]

/-! ## Plain names -/

theorem not_mem_of_isPlainName {s : String} (h : isPlainName s = true) {c : Char}
    (hc : isForbidden c = true) : c ∉ s.toList := by
  intro hmem
  have hallowed := (isPlainName_iff.1 h).2 c hmem
  rw [hc] at hallowed
  cases hallowed

theorem toList_ne_nil_of_isPlainName {s : String} (h : isPlainName s = true) : s.toList ≠ [] :=
  mt String.toList_eq_nil_iff.1 (isPlainName_iff.1 h).1

theorem entries_of_isPlainName {s : String} (h : isPlainName s = true) : entries s.toList = [s] := by
  rw [entries, segments_of_not_mem (not_mem_of_isPlainName h rfl)]
  simp [toList_ne_nil_of_isPlainName h]

variable {p : Path} {s : String}

/-- A plain name is joined to what ends in a slash or is empty, or a slash is put between. -/
theorem toList_join (h : isPlainName s = true) :
    ∃ sep, (p.join ⟨s⟩).text.toList = p.text.toList ++ sep ++ s.toList
      ∧ (sep = ['/'] ∧ p.text ≠ "" ∨ sep = [] ∧ (p.text = "" ∨ ∃ cs, p.text.toList = cs ++ ['/'])) := by
  rw [join, isAbsolute_of_isPlainName h, if_neg Bool.false_ne_true]
  split
  · next hlast =>
    refine ⟨[], by rw [String.toList_append, List.append_nil], .inr ⟨rfl, ?_⟩⟩
    cases hp : p.text.toList.getLast? with
    | none => exact .inl (String.toList_eq_nil_iff.1 (List.getLast?_eq_none_iff.1 hp))
    | some c =>
      obtain ⟨cs, hcs⟩ := List.getLast?_eq_some_iff.1 hp
      have hc : c = '/' := by simpa [hp] using hlast
      exact .inr ⟨cs, hc ▸ hcs⟩
  · next hlast =>
    refine ⟨['/'], by rw [String.toList_append, String.toList_append]; rfl, .inl ⟨rfl, ?_⟩⟩
    intro hp
    exact hlast (by rw [hp]; rfl)

theorem entries_join (h : isPlainName s = true) :
    entries (p.join ⟨s⟩).text.toList = entries p.text.toList ++ [s] := by
  obtain ⟨sep, htext, ⟨rfl, -⟩ | ⟨rfl, hempty | ⟨cs, hcs⟩⟩⟩ := toList_join (p := p) h
  · rw [htext, List.append_assoc, List.singleton_append, entries_append, entries_of_isPlainName h]
  · rw [htext, hempty]
    exact entries_of_isPlainName h
  · rw [htext, hcs, entries_snoc_slash, List.append_nil, List.append_assoc, List.singleton_append,
      entries_append, entries_of_isPlainName h]

theorem getLast?_join (h : isPlainName s = true) :
    ∃ c, c ≠ '/' ∧ (p.join ⟨s⟩).text.toList.getLast? = some c := by
  obtain ⟨sep, htext, -⟩ := toList_join (p := p) h
  have hne := toList_ne_nil_of_isPlainName h
  refine ⟨s.toList.getLast hne, fun hc => ?_, ?_⟩
  · exact not_mem_of_isPlainName h (c := '/') rfl (hc ▸ List.getLast_mem hne)
  · rw [htext, List.getLast?_append, List.getLast?_eq_some_getLast hne]
    rfl

theorem endsInSlash_join (h : isPlainName s = true) : (p.join ⟨s⟩).endsInSlash = false := by
  obtain ⟨c, hc, hlast⟩ := getLast?_join (p := p) h
  simp [endsInSlash, hlast, hc]

theorem isAbsolute_join (h : isPlainName s = true) : (p.join ⟨s⟩).isAbsolute = p.isAbsolute := by
  obtain ⟨sep, htext, hsep⟩ := toList_join (p := p) h
  by_cases hp : p.text = ""
  · have hjoined : (p.join ⟨s⟩).text.toList = s.toList := by
      rcases hsep with ⟨-, hne⟩ | ⟨rfl, -⟩
      · exact absurd hp hne
      · rw [htext, hp]
        rfl
    have hrelative : p.isAbsolute = false := by rw [isAbsolute, hp]; rfl
    rw [hrelative, isAbsolute, hjoined]
    exact isAbsolute_of_isPlainName h
  · obtain ⟨c, cs, hcs⟩ := List.exists_cons_of_ne_nil (mt String.toList_eq_nil_iff.1 hp)
    rw [isAbsolute, isAbsolute, htext, hcs]
    rfl

/-! ## Slashes at the end -/

theorem bare_cases (p : Path) :
    p.bare = p ∨ (p.bare.text ≠ "" ∧ p.bare.endsInSlash = false
      ∧ ∃ n, p.text.toList = p.bare.text.toList ++ List.replicate n '/') := by
  rw [bare]
  split
  · exact .inl rfl
  · next hne =>
    right
    generalize hkept : p.text.toList.reverse.dropWhile (· == '/') = kept at hne ⊢
    refine ⟨?_, ?_, (p.text.toList.reverse.takeWhile (· == '/')).length, ?_⟩
    · intro htext
      rw [← String.toList_eq_nil_iff, String.toList_ofList] at htext
      exact hne (by rw [htext]; rfl)
    · have hhead := List.head?_dropWhile_not (· == '/') p.text.toList.reverse
      rw [hkept] at hhead
      rw [endsInSlash, String.toList_ofList, List.getLast?_reverse, beq_eq_false_iff_ne]
      intro hslash
      rw [hslash] at hhead
      exact absurd hhead (by decide)
    · have hslashes : p.text.toList.reverse.takeWhile (· == '/')
          = List.replicate (p.text.toList.reverse.takeWhile (· == '/')).length '/' :=
        List.eq_replicate_iff.2
          ⟨rfl, fun c hc => by simpa using List.all_eq_true.1 List.all_takeWhile c hc⟩
      have hsplit := List.takeWhile_append_dropWhile (p := (· == '/')) (l := p.text.toList.reverse)
      rw [hkept, hslashes] at hsplit
      simpa using (congrArg List.reverse hsplit).symm

theorem bare_of_not_endsInSlash (h : p.endsInSlash = false) : p.bare = p := by
  rcases bare_cases p with hbare | ⟨hne, hlast, n, htext⟩
  · exact hbare
  · cases n with
    | zero =>
      rw [List.replicate_zero, List.append_nil, String.toList_inj] at htext
      cases hp : p.bare
      cases p
      simp_all
    | succ n =>
      rw [endsInSlash, htext, List.replicate_succ', ← List.append_assoc] at h
      simp at h

theorem isAbsolute_bare (p : Path) : p.bare.isAbsolute = p.isAbsolute := by
  rcases bare_cases p with hbare | ⟨hne, -, n, htext⟩
  · rw [hbare]
  · obtain ⟨c, cs, hcs⟩ := List.exists_cons_of_ne_nil (mt String.toList_eq_nil_iff.1 hne)
    rw [isAbsolute, isAbsolute, htext, hcs]
    rfl

end Path

namespace FileSystem

theorem names_eq (p : Path) :
    names p = Path.entries p.text.toList ++ if p.endsInSlash then [""] else [] := rfl

theorem names_join {p : Path} {s : String} (h : isPlainName s = true) :
    names (p.join ⟨s⟩) = Path.entries p.text.toList ++ [s] := by
  rw [names_eq, Path.entries_join h, Path.endsInSlash_join h, if_neg Bool.false_ne_true, List.append_nil]

theorem names_bare (p : Path) : names p = names p.bare ∨ names p = names p.bare ++ [""] := by
  rcases Path.bare_cases p with hbare | ⟨-, hlast, n, htext⟩
  · exact .inl (congrArg names hbare.symm)
  · have hnames : names p.bare = Path.entries p.text.toList := by
      rw [names_eq, hlast, if_neg Bool.false_ne_true, List.append_nil, htext,
        Path.entries_append_slashes]
    rw [hnames, names_eq]
    split
    · exact .inr rfl
    · exact .inl (List.append_nil _)

theorem checkPath_ok_iff {p : Path} : checkPath p = .ok () ↔
    '\x00' ∉ p.text.toList ∧ p.text ≠ "" ∧ p.text.utf8ByteSize < maxPath := by
  simp only [checkPath]
  split
  · next h => simp_all
  · split
    · next h => simp_all
    · split
      · next h => simp_all
      · next h => simp_all

/-- What may be a path may also be cut off behind some of it. -/
theorem checkPath_of_append {p q : Path} {cs : List Char}
    (h : q.text.toList = p.text.toList ++ cs) (hp : p.text ≠ "") (hq : checkPath q = .ok ()) :
    checkPath p = .ok () := by
  obtain ⟨hnul, -, hsize⟩ := checkPath_ok_iff.1 hq
  have htext : q.text = p.text ++ String.ofList cs := by
    rw [← String.toList_inj, h, String.toList_append, String.toList_ofList]
  refine checkPath_ok_iff.2 ⟨fun hmem => hnul ?_, hp, ?_⟩
  · rw [h]
    exact List.mem_append_left _ hmem
  · rw [htext, String.utf8ByteSize_append] at hsize
    omega

theorem checkPath_bare {p : Path} (h : checkPath p = .ok ()) : checkPath p.bare = .ok () := by
  rcases Path.bare_cases p with hbare | ⟨hne, -, n, htext⟩
  · rw [hbare]
    exact h
  · exact checkPath_of_append htext hne h

end FileSystem

end CommandLink
