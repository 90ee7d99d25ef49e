import CommandLink.Pool
/-!
# Turns at a pool

Callers use a pool one at a time, in the order in which they come. Whoever has the turn keeps it
while a connection is set up or taken down for it, so that nobody else meets the pool halfway.

Results:
* `step_turn_busy`: nobody gets a turn while a connection is being set up or taken down.
* `step_connected_free`, `step_disconnected_free`: no connector reports to a pool that waits for none.
* `wholeTurn_acquire`, `wholeTurn_release`: a whole turn comes to what `Pool.acquire` and
  `Pool.release` come to.
-/
namespace CommandLink

/-- What a caller wants of a pool. -/
inductive PoolCall (κ : Type) where
  | acquire (k : κ)
  | release (k : κ)
  deriving Repr, DecidableEq

/-- Who has the turn, and what is being done for it. -/
inductive PoolPhase (κ : Type) where
  | free
  | connecting (caller : Nat) (k : κ)
  | disconnecting (caller : Nat) (k : κ)

structure PoolTurns (κ γ : Type) where
  pool : Pool κ γ
  /-- The callers that wait for their turn. -/
  waiting : List (Nat × PoolCall κ)
  phase : PoolPhase κ

inductive PoolAct (κ γ : Type) where
  | connect (k : κ)
  | disconnect (k : κ) (c : γ)
  | acquired (caller : Nat) (r : Except PoolError γ)
  | released (caller : Nat) (r : Except PoolError Unit)

inductive PoolEvent (κ γ : Type) where
  | call (caller : Nat) (c : PoolCall κ)
  | turn
  | connected (r : Pool.Connecting γ)
  | disconnected

namespace PoolTurns
variable {κ γ : Type} [DecidableEq κ]

def start : PoolTurns κ γ := ⟨.empty, [], .free⟩

/-- The turn of the caller who waited longest. An entry that nobody uses any more is gone before its
connection is taken down. Mirrors `acquire` and `release` up to where they wait for the
connector. -/
def turn (keyText : κ → String) (t : PoolTurns κ γ) : PoolTurns κ γ × List (PoolAct κ γ) :=
  match t.waiting with
  | [] => (t, [])
  | (caller, .acquire k) :: rest =>
    match t.pool.find? k with
    | some e => (⟨t.pool.share k, rest, .free⟩, [.acquired caller (.ok e.connection)])
    | none => (⟨t.pool, rest, .connecting caller k⟩, [.connect k])
  | (caller, .release k) :: rest =>
    match t.pool.leave k with
    | none => (⟨t.pool, rest, .free⟩, [.released caller (.error (.notAcquired (keyText k)))])
    | some (none, p) => (⟨p, rest, .free⟩, [.released caller (.ok ())])
    | some (some c, p) => (⟨p, rest, .disconnecting caller k⟩, [.disconnect k c])

/-- The end of a turn that had to wait until its connection was set up. Mirrors `acquire` behind
`connect`. -/
def connected (keyText : κ → String) (t : PoolTurns κ γ) (caller : Nat) (k : κ) :
    Pool.Connecting γ → PoolTurns κ γ × List (PoolAct κ γ)
  | .ok c => ({ t with pool := t.pool.enter k c, phase := .free }, [.acquired caller (.ok c)])
  | .error reasons =>
    ({ t with phase := .free }, [.acquired caller (.error (.connect (keyText k) reasons))])

/-- What an event makes of the turns. An event that nobody waits for changes nothing. -/
def step (keyText : κ → String) (t : PoolTurns κ γ) (e : PoolEvent κ γ) :
    PoolTurns κ γ × List (PoolAct κ γ) :=
  match t.phase, e with
  | _, .call caller c => ({ t with waiting := t.waiting ++ [(caller, c)] }, [])
  | .free, .turn => t.turn keyText
  | .connecting caller k, .connected r => t.connected keyText caller k r
  | .disconnecting caller _, .disconnected =>
    ({ t with phase := .free }, [.released caller (.ok ())])
  | _, _ => (t, [])

/-- A caller goes away before it is told anything. It waits no longer, and if it has the turn, the
turn is over. What the connector is at work for comes to nothing more: a connection that was being set
up is not stored, and one that was being taken down is gone already. -/
def abandon (t : PoolTurns κ γ) (caller : Nat) : PoolTurns κ γ where
  pool := t.pool
  waiting := t.waiting.filter fun c => c.1 ≠ caller
  phase := match t.phase with
    | .free => .free
    | .connecting other k => if other = caller then .free else .connecting other k
    | .disconnecting other k => if other = caller then .free else .disconnecting other k

/-! ## With a connector at work -/

section
variable {σ : Type} (connect : κ → σ → Pool.Connecting γ × σ) (disconnect : κ → γ → σ → σ)
  (keyText : κ → String)

/-- The connector does what an act asks for. Gives what came of it, if it asks for anything. -/
def obey (act : PoolAct κ γ) (s : σ) : Option (PoolEvent κ γ) × σ :=
  match act with
  | .connect k =>
    let (r, s) := connect k s
    (some (.connected r), s)
  | .disconnect k c => (some .disconnected, disconnect k c s)
  | .acquired .. | .released .. => (none, s)

/-- One turn from its start to its end. Gives what the caller is told. -/
def wholeTurn (t : PoolTurns κ γ) (s : σ) : List (PoolAct κ γ) × PoolTurns κ γ × σ :=
  match t.step keyText .turn with
  | (t, [act]) =>
    match obey connect disconnect act s with
    | (some e, s) =>
      let (t, acts) := t.step keyText e
      (acts, t, s)
    | (none, s) => ([act], t, s)
  | (t, acts) => (acts, t, s)

/-- So many turns. -/
def turns : Nat → PoolTurns κ γ → σ → List (PoolAct κ γ) × PoolTurns κ γ × σ
  | 0, t, s => ([], t, s)
  | n + 1, t, s =>
    let (told, t, s) := wholeTurn connect disconnect keyText t s
    let (toldLater, t, s) := turns n t s
    (told ++ toldLater, t, s)

/-- Callers who come all at once, each with a number, and get what they want. -/
def serve (calls : List (Nat × PoolCall κ)) (t : PoolTurns κ γ) (s : σ) :
    List (PoolAct κ γ) × PoolTurns κ γ × σ :=
  let t := calls.foldl (fun t c => (t.step keyText (.call c.1 c.2)).1) t
  turns connect disconnect keyText t.waiting.length t s

end

theorem step_turn_busy {t : PoolTurns κ γ} (h : t.phase ≠ .free) (keyText : κ → String) :
    t.step keyText .turn = (t, []) := by
  unfold step
  cases hp : t.phase with
  | free => exact absurd hp h
  | connecting caller k => rfl
  | disconnecting caller k => rfl

theorem step_connected_free {t : PoolTurns κ γ} (h : t.phase = .free) (keyText : κ → String)
    (r : Pool.Connecting γ) : t.step keyText (.connected r) = (t, []) := by
  unfold step
  rw [h]

theorem step_disconnected_free {t : PoolTurns κ γ} (h : t.phase = .free) (keyText : κ → String) :
    t.step keyText .disconnected = (t, []) := by
  unfold step
  rw [h]

theorem step_turn_free {t : PoolTurns κ γ} (h : t.phase = .free) (keyText : κ → String) :
    t.step keyText .turn = t.turn keyText := by
  unfold step
  rw [h]

theorem wholeTurn_acquire {σ : Type} {t : PoolTurns κ γ} {caller : Nat} {k : κ}
    {rest : List (Nat × PoolCall κ)} (h : t.phase = .free)
    (hw : t.waiting = (caller, .acquire k) :: rest) (connect : κ → σ → Pool.Connecting γ × σ)
    (disconnect : κ → γ → σ → σ) (keyText : κ → String) (s : σ) :
    wholeTurn connect disconnect keyText t s =
      let (r, p, s) := t.pool.acquire connect keyText k s
      ([.acquired caller r], ⟨p, rest, .free⟩, s) := by
  unfold wholeTurn
  rw [step_turn_free h]
  simp only [turn, hw, Pool.acquire]
  cases hf : t.pool.find? k with
  | some e => rfl
  | none =>
    simp only [obey]
    rcases connect k s with ⟨r, s⟩
    cases r <;> rfl

theorem wholeTurn_release {σ : Type} {t : PoolTurns κ γ} {caller : Nat} {k : κ}
    {rest : List (Nat × PoolCall κ)} (h : t.phase = .free)
    (hw : t.waiting = (caller, .release k) :: rest) (connect : κ → σ → Pool.Connecting γ × σ)
    (disconnect : κ → γ → σ → σ) (keyText : κ → String) (s : σ) :
    wholeTurn connect disconnect keyText t s =
      let (r, p, s) := t.pool.release disconnect keyText k s
      ([.released caller r], ⟨p, rest, .free⟩, s) := by
  unfold wholeTurn
  rw [step_turn_free h]
  simp only [turn, hw, Pool.release]
  rcases t.pool.leave k with _ | ⟨_ | c, p⟩ <;> rfl

end PoolTurns
end CommandLink
