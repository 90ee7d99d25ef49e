import CommandLink.Text.Numeral
/-!
# Pool of connections

Connections that are dear to set up, one for each key, shared by counting their users. The first
user's coming connects, the last one's going disconnects.

Results:
* `find?_setUsage`, `find?_remove`, `find?_enter`: what each change does to every key.
* `usage_pos`: what is stored is in use.
-/
namespace CommandLink

/-- A stored connection with the number of its users. -/
structure Pooled (κ γ : Type) where
  key : κ
  connection : γ
  usage : Nat
  used : 0 < usage

inductive PoolError where
  /-- Connecting failed, for reasons from the outermost to the innermost. -/
  | connect (key : String) (reasons : List String)
  | notAcquired (key : String)
  deriving Repr, DecidableEq

def PoolError.message : PoolError → String
  | connect key reasons => "cannot connect to " ++ key ++ ": " ++ String.intercalate ": " reasons
  | notAcquired key => key ++ " was released more often than it was acquired"

/-- Connections under distinct keys. -/
structure Pool (κ γ : Type) where
  entries : List (Pooled κ γ)
  distinct : (entries.map Pooled.key).Nodup

namespace Pool
variable {κ γ : Type} [DecidableEq κ]

def empty : Pool κ γ := ⟨[], List.nodup_nil⟩

instance : Inhabited (Pool κ γ) := ⟨empty⟩

def find? (p : Pool κ γ) (k : κ) : Option (Pooled κ γ) :=
  p.entries.find? fun e => e.key = k

/-- How many users a key has. Mirrors `ConnectionPool.usage`. -/
def usage (p : Pool κ γ) (k : κ) : Nat :=
  match p.find? k with
  | some e => e.usage
  | none => 0

/-- How many keys are connected. Mirrors `ConnectionPool.len`. -/
def size (p : Pool κ γ) : Nat := p.entries.length

/-- Changes the entry of one key, which keeps its key. -/
def setUsage (p : Pool κ γ) (k : κ) (n : Nat) (h : 0 < n) : Pool κ γ where
  entries := p.entries.map fun e => if e.key = k then { e with usage := n, used := h } else e
  distinct := by
    have : (p.entries.map fun e =>
        if e.key = k then { e with usage := n, used := h } else e).map Pooled.key
        = p.entries.map Pooled.key := by
      rw [List.map_map]
      refine List.map_congr_left fun e _ => ?_
      simp only [Function.comp_apply]
      split <;> rfl
    rw [this]
    exact p.distinct

/-- One more user of a key. -/
def share (p : Pool κ γ) (k : κ) : Pool κ γ :=
  p.setUsage k (p.usage k + 1) (Nat.succ_pos _)

/-- The first user of a key that is not connected. -/
def enter (p : Pool κ γ) (k : κ) (c : γ) : Pool κ γ :=
  if h : p.find? k = none then
    { entries := p.entries ++ [⟨k, c, 1, Nat.one_pos⟩]
      distinct := by
        rw [List.map_append, List.nodup_append]
        refine ⟨p.distinct, by simp, ?_⟩
        intro a ha b hb
        simp only [List.map_cons, List.map_nil, List.mem_singleton] at hb
        obtain ⟨e, he, rfl⟩ := List.mem_map.1 ha
        have := List.find?_eq_none.1 h e he
        subst hb
        simpa using this }
  else p

/-- A key that is connected no more. -/
def remove (p : Pool κ γ) (k : κ) : Pool κ γ where
  entries := p.entries.filter fun e => e.key ≠ k
  distinct := p.distinct.sublist (List.filter_sublist.map _)

/-- One user of a key less. Gives the connection if that was the last one. -/
def leave (p : Pool κ γ) (k : κ) : Option (Option γ × Pool κ γ) :=
  match p.find? k with
  | none => none
  | some e =>
    if h : 0 < e.usage - 1 then some (none, p.setUsage k (e.usage - 1) h)
    else some (some e.connection, p.remove k)

/-- What setting up a connection comes to: it, or why not. -/
abbrev Connecting (γ : Type) := Except (List String) γ

/-- Takes a connection, set up first if nobody has one. Mirrors `ConnectionPool.acquire`. -/
def acquire {σ : Type} (connect : κ → σ → Connecting γ × σ) (keyText : κ → String) (p : Pool κ γ)
    (k : κ) (s : σ) : Except PoolError γ × Pool κ γ × σ :=
  match p.find? k with
  | some e => (.ok e.connection, p.share k, s)
  | none =>
    match connect k s with
    | (.ok c, s) => (.ok c, p.enter k c, s)
    | (.error reasons, s) => (.error (.connect (keyText k) reasons), p, s)

/-- Gives a connection back, and takes it down if nobody else has it. Mirrors
`ConnectionPool.release`. -/
def release {σ : Type} (disconnect : κ → γ → σ → σ) (keyText : κ → String) (p : Pool κ γ) (k : κ)
    (s : σ) : Except PoolError Unit × Pool κ γ × σ :=
  match p.leave k with
  | none => (.error (.notAcquired (keyText k)), p, s)
  | some (none, p) => (.ok (), p, s)
  | some (some c, p) => (.ok (), p, disconnect k c s)

theorem find?_key {p : Pool κ γ} {k : κ} {e : Pooled κ γ} (h : p.find? k = some e) : e.key = k := by
  simpa using List.find?_some h

theorem usage_pos {p : Pool κ γ} {k : κ} {e : Pooled κ γ} (h : p.find? k = some e) :
    0 < p.usage k := by
  simp [usage, h, e.used]

theorem find?_setUsage (p : Pool κ γ) (k k' : κ) (n : Nat) (h : 0 < n) :
    (p.setUsage k n h).find? k' =
      (p.find? k').map fun e => if e.key = k then { e with usage := n, used := h } else e := by
  simp only [find?, setUsage, List.find?_map]
  congr 2
  funext e
  simp only [Function.comp_apply]
  split <;> rfl

theorem find?_remove (p : Pool κ γ) (k k' : κ) :
    (p.remove k).find? k' = if k' = k then none else p.find? k' := by
  simp only [find?, remove, List.find?_filter]
  split
  · next h =>
    subst h
    rw [List.find?_eq_none]
    intro e _
    simp
  · next h =>
    congr 1
    funext e
    by_cases he : e.key = k'
    · simp [he, h]
    · simp [he]

theorem find?_enter (p : Pool κ γ) (k k' : κ) (c : γ) (h : p.find? k = none) :
    (p.enter k c).find? k' = if k' = k then some ⟨k, c, 1, Nat.one_pos⟩ else p.find? k' := by
  have he : (p.enter k c).entries = p.entries ++ [⟨k, c, 1, Nat.one_pos⟩] := by simp [enter, h]
  simp only [find?] at h ⊢
  rw [he, List.find?_append]
  by_cases hk : k' = k
  · subst hk
    simp [h]
  · simp [hk, Ne.symm hk]

end Pool
end CommandLink
