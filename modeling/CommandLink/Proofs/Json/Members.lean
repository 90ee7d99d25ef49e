import CommandLink.Proofs.Json.Strings
/-!
# Reading written objects back

A written object is a bracket around its members, all but the first behind a comma. A table is read
back member by member, each set behind those before it; a record is read back field by field, one
step of `members` for each member written.

Results:
* `table_writeTable`: a written table of texts, read where such a table is expected.
* `members_first`, `members_next`, `members_end`: how a record takes up what is written of it.
* `read_writeObject_stop`: a record whose first member is not what it should be.
-/
namespace CommandLink.Json

/-- A member as it is written. -/
def writeMember (k : String) (v : Bytes) : Bytes := writeText k ++ 0x3A :: v

/-- Members behind other ones, as they are written. -/
def writeBehind (ms : List (String × Bytes)) : Bytes :=
  ms.flatMap fun m => 0x2C :: writeMember m.1 m.2

theorem commaSeparated_cons (p : Bytes) (ps : List Bytes) :
    commaSeparated (p :: ps) = p ++ ps.flatMap fun q => 0x2C :: q := by
  induction ps generalizing p with
  | nil => simp [commaSeparated]
  | cons q ps ih => rw [commaSeparated, ih q, List.flatMap_cons]; rfl; exact List.cons_ne_nil _ _

theorem writeObject_cons (m : String × Bytes) (ms : List (String × Bytes)) (rest : Bytes) :
    writeObject (m :: ms) ++ rest
      = 0x7B :: (writeMember m.1 m.2 ++ (writeBehind ms ++ 0x7D :: rest)) := by
  simp [writeObject, commaSeparated_cons, writeMember, writeBehind, List.flatMap_map]

theorem writeObject_nil (rest : Bytes) : writeObject [] ++ rest = 0x7B :: 0x7D :: rest := rfl

/-! ## Keys, colons and the closing bracket -/

theorem colon_colon (rest : Bytes) : colon (0x3A :: rest) = .ok rest := by
  rw [colon, skipBlanks_cons (by decide)]
  rfl

theorem close_brace (rest : Bytes) : close .object (0x7D :: rest) = (none, rest) := by
  rw [close, skipBlanks_cons (by decide)]
  rfl

theorem nextKey_first (k : String) (rest : Bytes) :
    nextKey true (writeText k ++ rest) = .ok (some k, rest) := by
  rw [nextKey, writeText_append, skipBlanks_cons (by decide)]
  simp only [show ¬(0x22 : UInt8) = 0x7D by decide, if_true, if_false, string_flatMap,
    Except.map]

theorem nextKey_next (k : String) (rest : Bytes) :
    nextKey false (0x2C :: (writeText k ++ rest)) = .ok (some k, rest) := by
  have hcomma : ∀ bs, skipBlanks (0x2C :: bs) = 0x2C :: bs := skipBlanks_cons (by decide)
  have hquote : ∀ bs, skipBlanks (0x22 :: bs) = 0x22 :: bs := skipBlanks_cons (by decide)
  simp only [nextKey, writeText_append, hcomma, hquote, show ¬(0x2C : UInt8) = 0x7D by decide,
    if_true, if_false, string_flatMap, Except.map, Bool.false_eq_true]

theorem nextKey_end (first : Bool) (rest : Bytes) :
    nextKey first (0x7D :: rest) = .ok (none, 0x7D :: rest) := by
  rw [nextKey, skipBlanks_cons (by decide)]
  rfl

/-! ## Tables of texts -/

/-- The entries of a table, with their values written. -/
def writtenEntries (es : List (String × String)) : List (String × Bytes) :=
  es.map fun e => (e.1, writeText e.2)

theorem tableOnto_behind (es : List (String × String)) (t : Table String) (rest : Bytes) {n : Nat}
    (hn : es.length < n) :
    tableOnto n false t (writeBehind (writtenEntries es) ++ 0x7D :: rest)
      = .ok (es.foldl (fun t e => t.insert e.1 e.2) t, 0x7D :: rest) := by
  induction es generalizing t n with
  | nil =>
    obtain ⟨n, rfl⟩ : ∃ m, n = m + 1 := ⟨n - 1, by simp at hn; omega⟩
    simp only [writtenEntries, writeBehind, List.map_nil, List.flatMap_nil, List.nil_append,
      tableOnto, nextKey_end, bind, Except.bind, List.foldl_nil]
  | cons e es ih =>
    obtain ⟨n, rfl⟩ : ∃ m, n = m + 1 := ⟨n - 1, by simp at hn; omega⟩
    have hrest := ih (t.insert e.1 e.2) (n := n) (by simpa using hn)
    simp only [writtenEntries, writeBehind, List.map_cons, List.flatMap_cons, writeMember,
      List.cons_append, List.append_assoc, tableOnto, nextKey_next, colon_colon, text_writeText, bind,
      Except.bind, List.foldl_cons] at hrest ⊢
    exact hrest

theorem insertSorted_last {l : List (String × String)} {k : String} (v : String)
    (h : ∀ p ∈ l, p.1 < k) : insertSorted k v l = l ++ [(k, v)] := by
  induction l with
  | nil => rfl
  | cons p l ih =>
    have hp := h p List.mem_cons_self
    have hne : k ≠ p.1 := fun e => String.lt_irrefl p.1 (by rw [e] at hp; exact hp)
    rw [insertSorted, if_neg (fun hk => String.lt_irrefl _ (String.lt_trans hp hk)), if_neg hne,
      ih fun q hq => h q (List.mem_cons_of_mem _ hq)]
    rfl

/-- Setting ascending entries behind smaller ones appends them. -/
theorem foldl_insert_ascending (es : List (String × String)) (t : Table String)
    (h : Ascending (t.entries ++ es)) :
    (es.foldl (fun t e => t.insert e.1 e.2) t).entries = t.entries ++ es := by
  induction es generalizing t with
  | nil => simp
  | cons e es ih =>
    have hlast : (t.insert e.1 e.2).entries = t.entries ++ [e] := by
      refine insertSorted_last e.2 fun p hp => ?_
      exact (List.pairwise_append.1 h).2.2 p hp e List.mem_cons_self
    rw [List.foldl_cons, ih _ (by rw [hlast]; simpa using h), hlast]
    simp

theorem length_writtenEntries_le (es : List (String × String)) (rest : Bytes) :
    es.length ≤ (writeBehind (writtenEntries es) ++ rest).length := by
  induction es with
  | nil => simp
  | cons e es ih =>
    simp only [writtenEntries, writeBehind, List.map_cons, List.flatMap_cons, List.cons_append,
      List.append_assoc, List.length_cons, List.length_append] at ih ⊢
    omega

theorem table_writeTable (t : Table String) (rest : Bytes) :
    table (writeTable t ++ rest) = .ok (t, rest) := by
  have hfold : ∀ es, t.entries = es → es.foldl (fun t e => t.insert e.1 e.2) Table.empty = t := by
    intro es he
    refine Table.ext ?_
    rw [foldl_insert_ascending es .empty (he ▸ t.ascending)]
    exact he.symm
  cases he : t.entries with
  | nil =>
    rw [writeTable, he, List.map_nil, writeObject_nil, table, skipBlanks_cons (by decide)]
    simp only [if_true, tableOnto, nextKey_end, bind, Except.bind, enclosed, close_brace]
    exact congrArg (fun t => Except.ok (t, rest)) (hfold [] he)
  | cons e es =>
    rw [writeTable, he, List.map_cons, writeObject_cons, table, skipBlanks_cons (by decide)]
    have hn : es.length < (writeMember e.1 (writeText e.2)
        ++ (writeBehind (writtenEntries es) ++ 0x7D :: rest)).length := by
      have := length_writtenEntries_le es (0x7D :: rest)
      simp only [List.length_append, writeMember, List.length_cons] at this ⊢
      omega
    have hbehind := tableOnto_behind es (Table.empty.insert e.1 e.2) rest hn
    simp only [if_true, tableOnto, writeMember, List.append_assoc, List.cons_append, nextKey_first,
      colon_colon, text_writeText, bind, Except.bind, writtenEntries] at hbehind ⊢
    rw [hbehind]
    simp only [enclosed, close_brace]
    exact congrArg (fun t => Except.ok (t, rest)) (hfold (e :: es) he)

theorem table_writeText (s : String) (rest : Bytes) :
    table (writeText s ++ rest) = .error (.here (.wrongType (.text s) "a map") rest) := by
  have hmismatch := mismatch_writeText "a map" s rest
  rw [writeText_append] at hmismatch ⊢
  rw [table, skipBlanks_cons (by decide)]
  simp only [hmismatch]
  rfl

/-! ## Records -/

namespace Schema
variable {σ α : Type} {s : Schema σ α} {k : String} {f : Field σ} {d d' : σ} {v : Bytes}

theorem members_first (d' : σ) (hk : s.field? k = some f) (hd : f.isSet d = false) {rest : Bytes}
    (hv : f.read d (v ++ rest) = .ok (d', rest)) (n : Nat) :
    s.members (n + 1) true d (writeMember k v ++ rest) = s.members n false d' rest := by
  simp only [members, writeMember, List.append_assoc, List.cons_append, nextKey_first, bind,
    Except.bind, hk, hd, colon_colon, hv, Bool.false_eq_true, if_false]

theorem members_next (d' : σ) (hk : s.field? k = some f) (hd : f.isSet d = false)
    {ms : List (String × Bytes)} {rest : Bytes}
    (hv : f.read d (v ++ (writeBehind ms ++ rest)) = .ok (d', writeBehind ms ++ rest)) (n : Nat) :
    s.members (n + 1) false d (writeBehind ((k, v) :: ms) ++ rest)
      = s.members n false d' (writeBehind ms ++ rest) := by
  simp only [writeBehind, List.flatMap_cons] at hv ⊢
  simp only [members, writeMember, List.append_assoc, List.cons_append, nextKey_next, bind,
    Except.bind, hk, hd, colon_colon] at hv ⊢
  simp only [hv, Bool.false_eq_true, if_false]

theorem members_end (first : Bool) (d : σ) (rest : Bytes) (n : Nat) :
    s.members (n + 1) first d (0x7D :: rest) = .ok (d, 0x7D :: rest) := by
  simp only [members, nextKey_end, bind, Except.bind]

/-- A written object is read back if its members are, in any number of steps that it may take. -/
theorem read_writeObject {m : String × Bytes} {ms : List (String × Bytes)} {a : α} {rest : Bytes}
    (hm : ∀ n, ms.length < n →
      s.members (n + 1) true s.start (writeMember m.1 m.2 ++ (writeBehind ms ++ 0x7D :: rest))
        = .ok (d, 0x7D :: rest))
    (hc : s.complete d (0x7D :: rest) = .ok (a, 0x7D :: rest)) :
    s.read (writeObject (m :: ms) ++ rest) = .ok (a, rest) := by
  have hlen : ms.length ≤ (writeBehind ms).length := by
    clear hm
    induction ms with
    | nil => simp
    | cons p ms ih =>
      simp only [writeBehind, List.flatMap_cons, List.length_append, List.length_cons] at ih ⊢
      omega
  rw [writeObject_cons, read, skipBlanks_cons (by decide)]
  simp only [if_true]
  rw [hm _ (by simp only [List.length_append, List.length_cons]; omega)]
  simp only [bind, Except.bind, hc, enclosed, close_brace]

theorem members_first_stop {stop : Stop} (hk : s.field? k = some f) (hd : f.isSet d = false)
    {rest : Bytes} (hv : f.read d (v ++ rest) = .error stop) (n : Nat) :
    s.members (n + 1) true d (writeMember k v ++ rest) = .error stop := by
  simp only [members, writeMember, List.append_assoc, List.cons_append, nextKey_first, bind,
    Except.bind, hk, hd, colon_colon, hv, Bool.false_eq_true, if_false]

/-- Reading a written object stops where reading its first member does. -/
theorem read_writeObject_stop {ms : List (String × Bytes)} {stop : Stop} {rest : Bytes}
    (hk : s.field? k = some f) (hd : f.isSet s.start = false)
    (hv : f.read s.start (v ++ (writeBehind ms ++ 0x7D :: rest)) = .error stop)
    (placed : stop.placed = true) :
    s.read (writeObject ((k, v) :: ms) ++ rest) = .error stop := by
  rw [writeObject_cons, read, skipBlanks_cons (by decide)]
  simp only [if_true, members_first_stop hk hd hv, bind, Except.bind, enclosed, placed]

end Schema

theorem parse_of_read {α : Type} {r : Reader α} {bs : Bytes} {a : α} (h : r bs = .ok (a, [])) :
    parse r bs = .ok a := by
  simp [parse, h, skipBlanks]

end CommandLink.Json
