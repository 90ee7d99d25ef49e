import CommandLink.Proofs.Places
import CommandLink.Proofs.Pool.Uses
/-!
# The connections of a pool, from set up to taken down

A pool asks its connector to set connections up and to take them down, and goes on when the connector
has done so. The history of a pool tells of this and of what callers were told, in the order in which
it happened. Callers come and queue for their turn at any moment in between.

Results:
* `moved`: all that a step can do, and what the history tells of it.
* `Orderly`: nothing happens between a request to the connector and its answer.
* `Alternates`: connections of one key come and go in turns, each going as the one that came.
* `connections_come_and_go`: every history is like that, and the pool holds the connections that came
  and did not go.
-/
namespace CommandLink

/-- What the history of a pool tells of. -/
inductive PoolMark (κ γ : Type) where
  /-- The connector is asked for a connection. -/
  | connecting (k : κ)
  | connected (k : κ) (r : Pool.Connecting γ)
  /-- The connector is asked to take a connection down. -/
  | disconnecting (k : κ) (c : γ)
  | disconnected (k : κ)
  | told (a : PoolAnswer κ γ)

/-- A connection comes or goes. -/
inductive Turnover (γ : Type) where
  | opened (c : γ)
  | closed (c : γ)

/-- Connections that come and go in turns, a connection that goes being the one that came before.
With it the one that is there in the end. -/
inductive Alternates {γ : Type} : List (Turnover γ) → Option γ → Prop
  | nothing : Alternates [] none
  | opened {l : List (Turnover γ)} (before : Alternates l none) (c : γ) :
      Alternates (l ++ [.opened c]) (some c)
  | closed {l : List (Turnover γ)} {c : γ} (before : Alternates l (some c)) :
      Alternates (l ++ [.closed c]) none

namespace PoolMark
variable {κ γ : Type} [DecidableEq κ]

/-- What becomes of the connections of a key. One that the connector is to take down is gone. -/
def turnover? (k : κ) : PoolMark κ γ → Option (Turnover γ)
  | connected k' (.ok c) => if k' = k then some (.opened c) else none
  | disconnecting k' c => if k' = k then some (.closed c) else none
  | _ => none

/-- The comings and goings of the connections of a key. -/
def turnovers (k : κ) (history : List (PoolMark κ γ)) : List (Turnover γ) :=
  history.filterMap (turnover? k)

/-- Who is told that an acquire succeeded gets the connection that came last and did not go, and who
is told that it failed, when there is none. -/
def Handed (front : List (PoolMark κ γ)) : PoolMark κ γ → Prop
  | told (.acquired k r) => Alternates (turnovers k front) r.toOption
  | _ => True

/-- Requests to the connector do not overlap: after each of them comes its answer, and nobody is told
anything in between. With it the call that the connector is at work for in the end. -/
inductive Orderly : List (PoolMark κ γ) → Option (PoolCall κ) → Prop
  | nothing : Orderly [] none
  | told {l : List (PoolMark κ γ)} (before : Orderly l none) (a : PoolAnswer κ γ) :
      Orderly (l ++ [.told a]) none
  | connecting {l : List (PoolMark κ γ)} (before : Orderly l none) (k : κ) :
      Orderly (l ++ [.connecting k]) (some (.acquire k))
  | connected {l : List (PoolMark κ γ)} {k : κ} (before : Orderly l (some (.acquire k)))
      (r : Pool.Connecting γ) : Orderly (l ++ [.connected k r]) none
  | disconnecting {l : List (PoolMark κ γ)} (before : Orderly l none) (k : κ) (c : γ) :
      Orderly (l ++ [.disconnecting k c]) (some (.release k))
  | disconnected {l : List (PoolMark κ γ)} {k : κ} (before : Orderly l (some (.release k))) :
      Orderly (l ++ [.disconnected k]) none

/-- What callers were told. -/
def answers (history : List (PoolMark κ γ)) : List (PoolAnswer κ γ) :=
  history.filterMap fun
    | .told a => some a
    | _ => none

variable {k k' : κ}

@[simp] theorem turnovers_append (k : κ) (a b : List (PoolMark κ γ)) :
    turnovers k (a ++ b) = turnovers k a ++ turnovers k b :=
  List.filterMap_append

@[simp] theorem turnovers_nil (k : κ) : turnovers k ([] : List (PoolMark κ γ)) = [] := rfl

@[simp] theorem turnovers_told (k : κ) (a : PoolAnswer κ γ) (l : List (PoolMark κ γ)) :
    turnovers k (told a :: l) = turnovers k l := rfl

@[simp] theorem turnovers_connecting (k k' : κ) (l : List (PoolMark κ γ)) :
    turnovers k (connecting k' :: l) = turnovers k l := rfl

@[simp] theorem turnovers_failed (k k' : κ) (reasons : List String) (l : List (PoolMark κ γ)) :
    turnovers k (connected k' (.error reasons) :: l) = turnovers k l := rfl

@[simp] theorem turnovers_disconnected (k k' : κ) (l : List (PoolMark κ γ)) :
    turnovers k (disconnected k' :: l) = turnovers k l := rfl

theorem turnovers_connected (k k' : κ) (c : γ) (l : List (PoolMark κ γ)) :
    turnovers k (connected k' (.ok c) :: l)
      = if k' = k then .opened c :: turnovers k l else turnovers k l := by
  unfold turnovers
  rw [List.filterMap_cons, turnover?]
  split <;> simp_all

theorem turnovers_disconnecting (k k' : κ) (c : γ) (l : List (PoolMark κ γ)) :
    turnovers k (disconnecting k' c :: l)
      = if k' = k then .closed c :: turnovers k l else turnovers k l := by
  unfold turnovers
  rw [List.filterMap_cons, turnover?]
  split <;> simp_all

end PoolMark

namespace Pool
variable {κ γ σ : Type} [DecidableEq κ] {p p' : Pool κ γ} {k k' : κ} {s s' : σ}
  {connect : κ → σ → Connecting γ × σ} {disconnect : κ → γ → σ → σ} {keyText : κ → String}

/-- The connection that is stored for a key. -/
def connection? (p : Pool κ γ) (k : κ) : Option γ := (p.find? k).map Pooled.connection

theorem connection?_of_find? {e : Pooled κ γ} (h : p.find? k = some e) :
    p.connection? k = some e.connection := by
  rw [connection?, h, Option.map_some]

@[simp] theorem connection?_setUsage (p : Pool κ γ) (k k' : κ) (n : Nat) (h : 0 < n) :
    (p.setUsage k n h).connection? k' = p.connection? k' := by
  unfold connection?
  rw [find?_setUsage, Option.map_map]
  congr 1
  funext e
  simp only [Function.comp_apply]
  split <;> rfl

theorem connection?_enter (h : p.find? k = none) (c : γ) :
    (p.enter k c).connection? k' = if k' = k then some c else p.connection? k' := by
  unfold connection?
  rw [find?_enter p k k' c h]
  split <;> rfl

theorem connection?_remove (p : Pool κ γ) (k k' : κ) :
    (p.remove k).connection? k' = if k' = k then none else p.connection? k' := by
  unfold connection?
  rw [find?_remove]
  split <;> rfl

/-- Whoever acquires gets the connection that is stored, or what connecting came to, which is stored
from then on. -/
theorem connection?_acquire {r : Except PoolError γ}
    (h : p.acquire connect keyText k s = (r, p', s')) :
    (∀ c, r = .ok c → p.connection? k = some c ∨ (connect k s).1 = .ok c)
    ∧ ∀ k' c, p'.connection? k' = some c → p.connection? k' = some c ∨ k' = k ∧ r = .ok c := by
  unfold acquire at h
  cases hfind : p.find? k with
  | some e =>
    rw [hfind] at h
    cases h
    refine ⟨?_, fun k' c hc => .inl ?_⟩
    · intro c hc
      cases hc
      exact .inl (connection?_of_find? hfind)
    · rwa [share, connection?_setUsage] at hc
  | none =>
    rw [hfind] at h
    cases hconnect : connect k s with
    | mk outcome s₁ =>
      rw [hconnect] at h
      cases outcome with
      | error reasons =>
        cases h
        exact ⟨nofun, fun _ _ hc => .inl hc⟩
      | ok c₀ =>
        cases h
        refine ⟨fun c hc => .inr ?_, fun k' c hc => ?_⟩
        · cases hc
          rfl
        · rw [connection?_enter hfind] at hc
          by_cases hk : k' = k
          · rw [if_pos hk] at hc
            cases hc
            exact .inr ⟨hk, rfl⟩
          · rw [if_neg hk] at hc
            exact .inl hc

/-- A release stores nothing. -/
theorem connection?_release {r : Except PoolError Unit}
    (h : p.release disconnect keyText k s = (r, p', s')) {c : γ} (hc : p'.connection? k' = some c) :
    p.connection? k' = some c := by
  unfold release leave at h
  cases hfind : p.find? k with
  | none =>
    rw [hfind] at h
    cases h
    exact hc
  | some e =>
    rw [hfind] at h
    by_cases hothers : 0 < e.usage - 1
    · simp only [dif_pos hothers] at h
      cases h
      rwa [connection?_setUsage] at hc
    · simp only [dif_neg hothers] at h
      cases h
      rw [connection?_remove] at hc
      by_cases hk : k' = k
      · rw [if_pos hk] at hc
        cases hc
      · rwa [if_neg hk] at hc

end Pool

namespace PoolTurns
variable {κ γ : Type} [DecidableEq κ] {keyText : κ → String} {t t' : PoolTurns κ γ}
  {history new : List (PoolMark κ γ)} {e : PoolEvent κ γ}

/-! ## The history of a pool -/

/-- What the connector reports to a pool that waits for it. -/
def report? (t : PoolTurns κ γ) (e : PoolEvent κ γ) : Option (PoolMark κ γ) :=
  match t.phase, e with
  | .connecting _ k, .connected r => some (.connected k r)
  | .disconnecting _ k, .disconnected => some (.disconnected k)
  | _, _ => none

/-- What the history tells of an act. -/
def mark? (t : PoolTurns κ γ) (act : PoolAct κ γ) : Option (PoolMark κ γ) :=
  match act with
  | .connect k => some (.connecting k)
  | .disconnect k c => some (.disconnecting k c)
  | .acquired .. | .released .. => (t.told? act).map .told

/-- What the history tells of a step. -/
def marks (keyText : κ → String) (t : PoolTurns κ γ) (e : PoolEvent κ γ) : List (PoolMark κ γ) :=
  (t.report? e).toList ++ (t.step keyText e).2.filterMap t.mark?

/-- What can become of a pool where callers come at any time and have their turns, with its history
until then. -/
inductive Recorded (keyText : κ → String) : PoolTurns κ γ → List (PoolMark κ γ) → Prop
  | start : Recorded keyText .start []
  | step {t : PoolTurns κ γ} {history : List (PoolMark κ γ)} (before : Recorded keyText t history)
      (e : PoolEvent κ γ) :
      Recorded keyText (t.step keyText e).1 (history ++ t.marks keyText e)

theorem answers_marks (keyText : κ → String) (t : PoolTurns κ γ) (e : PoolEvent κ γ) :
    PoolMark.answers (t.marks keyText e) = (t.step keyText e).2.filterMap t.told? := by
  have hreport : PoolMark.answers (t.report? e).toList = [] := by
    unfold report?
    split <;> rfl
  unfold marks
  rw [PoolMark.answers, List.filterMap_append, ← PoolMark.answers, hreport, List.nil_append,
    List.filterMap_filterMap]
  congr 1
  funext act
  cases act with
  | connect k => rfl
  | disconnect k c => rfl
  | acquired caller r =>
    unfold mark?
    cases t.told? (.acquired caller r) <;> rfl
  | released caller r =>
    unfold mark?
    cases t.told? (.released caller r) <;> rfl

/-- The history is of the calls that are accounted for. -/
theorem reachable_of_recorded (h : Recorded keyText t history) :
    Reachable keyText t (PoolMark.answers history) := by
  induction h with
  | start => exact .start
  | step _ e ih =>
    unfold PoolMark.answers at ih ⊢
    rw [List.filterMap_append, ← PoolMark.answers, ← PoolMark.answers, answers_marks]
    exact ih.step e

/-! ## What a step does -/

/-- All that a step can do, and what the history tells of it. -/
inductive Moved (keyText : κ → String) (t : PoolTurns κ γ) :
    PoolEvent κ γ → PoolTurns κ γ → List (PoolMark κ γ) → Prop
  | came (caller : Nat) (c : PoolCall κ) :
      Moved keyText t (.call caller c) { t with waiting := t.waiting ++ [(caller, c)] } []
  | nothing (e : PoolEvent κ γ) (idle : e = .turn → t.phase = .free → t.waiting = []) :
      Moved keyText t e t []
  | shared {caller : Nat} {k : κ} {rest : List (Nat × PoolCall κ)} {stored : Pooled κ γ}
      (free : t.phase = .free) (first : t.waiting = (caller, .acquire k) :: rest)
      (found : t.pool.find? k = some stored) :
      Moved keyText t .turn ⟨t.pool.share k, rest, .free⟩
        [.told (.acquired k (.ok stored.connection))]
  | connecting {caller : Nat} {k : κ} {rest : List (Nat × PoolCall κ)}
      (free : t.phase = .free) (first : t.waiting = (caller, .acquire k) :: rest)
      (missing : t.pool.find? k = none) :
      Moved keyText t .turn ⟨t.pool, rest, .connecting caller k⟩ [.connecting k]
  | refused {caller : Nat} {k : κ} {rest : List (Nat × PoolCall κ)}
      (free : t.phase = .free) (first : t.waiting = (caller, .release k) :: rest)
      (missing : t.pool.find? k = none) :
      Moved keyText t .turn ⟨t.pool, rest, .free⟩
        [.told (.released k (.error (.notAcquired (keyText k))))]
  | left {caller : Nat} {k : κ} {rest : List (Nat × PoolCall κ)} {stored : Pooled κ γ}
      (free : t.phase = .free) (first : t.waiting = (caller, .release k) :: rest)
      (found : t.pool.find? k = some stored) (others : 0 < stored.usage - 1) :
      Moved keyText t .turn ⟨t.pool.setUsage k (stored.usage - 1) others, rest, .free⟩
        [.told (.released k (.ok ()))]
  | disconnecting {caller : Nat} {k : κ} {rest : List (Nat × PoolCall κ)} {stored : Pooled κ γ}
      (free : t.phase = .free) (first : t.waiting = (caller, .release k) :: rest)
      (found : t.pool.find? k = some stored) (last : stored.usage = 1) :
      Moved keyText t .turn ⟨t.pool.remove k, rest, .disconnecting caller k⟩
        [.disconnecting k stored.connection]
  | connected {caller : Nat} {k : κ} (phase : t.phase = .connecting caller k) (c : γ) :
      Moved keyText t (.connected (.ok c)) { t with pool := t.pool.enter k c, phase := .free }
        [.connected k (.ok c), .told (.acquired k (.ok c))]
  | failed {caller : Nat} {k : κ} (phase : t.phase = .connecting caller k) (reasons : List String) :
      Moved keyText t (.connected (.error reasons)) { t with phase := .free }
        [.connected k (.error reasons),
          .told (.acquired k (.error (.connect (keyText k) reasons)))]
  | disconnected {caller : Nat} {k : κ} (phase : t.phase = .disconnecting caller k) :
      Moved keyText t .disconnected { t with phase := .free }
        [.disconnected k, .told (.released k (.ok ()))]

theorem moved_turn (free : t.phase = .free) :
    Moved keyText t .turn (t.turn keyText).1
      ((t.turn keyText).2.filterMap t.mark?) := by
  unfold turn
  cases hw : t.waiting with
  | nil => exact .nothing _ fun _ _ => hw
  | cons next rest =>
    obtain ⟨caller, c⟩ := next
    cases c with
    | acquire k =>
      have hkey : t.key? = some k := by
        unfold key?
        rw [free, hw]
        rfl
      cases hfind : t.pool.find? k with
      | some stored => simpa [hfind, mark?, told?, hkey] using Moved.shared free hw hfind
      | none => simpa [hfind, mark?] using Moved.connecting free hw hfind
    | release k =>
      have hkey : t.key? = some k := by
        unfold key?
        rw [free, hw]
        rfl
      simp only [Pool.leave]
      cases hfind : t.pool.find? k with
      | none => simpa [mark?, told?, hkey] using Moved.refused free hw hfind
      | some stored =>
        by_cases hothers : 0 < stored.usage - 1
        · simpa [mark?, told?, hkey, hothers] using Moved.left free hw hfind hothers
        · have hlast : stored.usage = 1 := by
            have := stored.used
            omega
          simpa [mark?, hothers] using Moved.disconnecting free hw hfind hlast

theorem moved (keyText : κ → String) (t : PoolTurns κ γ) (e : PoolEvent κ γ) :
    Moved keyText t e (t.step keyText e).1 (t.marks keyText e) := by
  have ignored (hstep : t.step keyText e = (t, [])) (hreport : t.report? e = none)
      (hbusy : e = .turn → t.phase ≠ .free) :
      Moved keyText t e (t.step keyText e).1 (t.marks keyText e) := by
    unfold marks
    rw [hstep, hreport]
    exact .nothing e fun he free => absurd free (hbusy he)
  cases e with
  | call caller c =>
    have hreport : t.report? (.call caller c) = none := by
      unfold report?
      split <;> simp_all
    unfold marks
    rw [step, hreport]
    exact .came caller c
  | turn =>
    have hreport : t.report? .turn = none := by
      unfold report?
      split <;> simp_all
    by_cases free : t.phase = .free
    · unfold marks
      rw [step_turn_free free, hreport]
      exact moved_turn free
    · exact ignored (step_turn_busy free keyText) hreport fun _ => free
  | connected r =>
    cases hp : t.phase with
    | free => exact ignored (step_connected_free hp keyText r) (by simp only [report?, hp]) (by simp)
    | disconnecting caller k =>
      exact ignored (by simp only [step, hp]) (by simp only [report?, hp]) (by simp)
    | connecting caller k =>
      have hkey : t.key? = some k := by
        unfold key?
        rw [hp]
      cases r with
      | ok c =>
        simpa [marks, report?, step, connected, hp, mark?, told?, hkey] using
          (Moved.connected hp c : Moved keyText t _ _ _)
      | error reasons =>
        simpa [marks, report?, step, connected, hp, mark?, told?, hkey] using
          (Moved.failed hp reasons : Moved keyText t _ _ _)
  | disconnected =>
    cases hp : t.phase with
    | free => exact ignored (step_disconnected_free hp keyText) (by simp only [report?, hp]) (by simp)
    | connecting caller k =>
      exact ignored (by simp only [step, hp]) (by simp only [report?, hp]) (by simp)
    | disconnecting caller k =>
      have hkey : t.key? = some k := by
        unfold key?
        rw [hp]
      simpa [marks, report?, step, hp, mark?, told?, hkey] using
        (Moved.disconnected hp : Moved keyText t _ _ _)

/-! ## Every history -/

/-- The call that the connector is at work for. -/
def call? (t : PoolTurns κ γ) : Option (PoolCall κ) :=
  match t.phase with
  | .free => none
  | .connecting _ k => some (.acquire k)
  | .disconnecting _ k => some (.release k)

theorem orderly_moved (h : PoolMark.Orderly history t.call?) (hm : Moved keyText t e t' new) :
    PoolMark.Orderly (history ++ new) t'.call? := by
  cases hm with
  | came caller c => simpa [call?] using h
  | nothing e idle => simpa using h
  | shared free first found =>
    rw [call?, free] at h
    exact h.told _
  | connecting free first missing =>
    rw [call?, free] at h
    exact h.connecting _
  | refused free first missing =>
    rw [call?, free] at h
    exact h.told _
  | left free first found others =>
    rw [call?, free] at h
    exact h.told _
  | disconnecting free first found last =>
    rw [call?, free] at h
    exact h.disconnecting _ _
  | @connected caller k phase c =>
    rw [call?, phase] at h
    rw [List.append_cons]
    exact (h.connected (.ok c)).told (.acquired k (.ok c))
  | @failed caller k phase reasons =>
    rw [call?, phase] at h
    rw [List.append_cons]
    exact (h.connected (.error reasons)).told (.acquired k _)
  | @disconnected caller k phase =>
    rw [call?, phase] at h
    rw [List.append_cons]
    exact h.disconnected.told (.released k (.ok ()))

/-- Nobody has a connection that is being set up. -/
theorem missing_of_recorded (h : Recorded keyText t history) (caller : Nat) (k : κ)
    (hp : t.phase = .connecting caller k) : t.pool.find? k = none := by
  have hturn := inTurn_reachable (reachable_of_recorded h)
  rw [InTurn, hp] at hturn
  exact hturn.1

theorem alternates_moved {k : κ} (h : Alternates (PoolMark.turnovers k history) (t.pool.connection? k))
    (hmissing : ∀ caller k, t.phase = .connecting caller k → t.pool.find? k = none)
    (hm : Moved keyText t e t' new) :
    Alternates (PoolMark.turnovers k (history ++ new)) (t'.pool.connection? k) := by
  rw [PoolMark.turnovers_append]
  cases hm with
  | came caller c => simpa using h
  | nothing e idle => simpa using h
  | shared free first found => simpa [Pool.share] using h
  | connecting free first missing => simpa using h
  | refused free first missing => simpa using h
  | left free first found others => simpa using h
  | @disconnecting caller k₀ rest stored free first found last =>
    rw [PoolMark.turnovers_disconnecting, Pool.connection?_remove]
    by_cases hk : k = k₀
    · subst hk
      rw [if_pos rfl, if_pos rfl]
      rw [Pool.connection?_of_find? found] at h
      exact h.closed
    · rw [if_neg (Ne.symm hk), if_neg hk]
      simpa using h
  | @connected caller k₀ phase c =>
    have missing := hmissing caller k₀ phase
    rw [PoolMark.turnovers_connected, PoolMark.turnovers_told, Pool.connection?_enter missing]
    by_cases hk : k = k₀
    · subst hk
      rw [if_pos rfl, if_pos rfl]
      rw [Pool.connection?, missing, Option.map_none] at h
      exact h.opened c
    · rw [if_neg (Ne.symm hk), if_neg hk]
      simpa using h
  | failed phase reasons => simpa using h
  | disconnected phase => simpa using h

theorem handed_snoc {m : PoolMark κ γ}
    (h : Throughout (fun front m _ => PoolMark.Handed front m) history)
    (hm : PoolMark.Handed history m) :
    Throughout (fun front m _ => PoolMark.Handed front m) (history ++ [m]) := by
  refine h.append (fun _ _ _ hthere => hthere) fun front a back hnew => ?_
  obtain ⟨rfl, rfl, -⟩ := eq_of_snoc (l := []) hnew (by simp)
  simpa using hm

theorem handed_moved (h : Throughout (fun front m _ => PoolMark.Handed front m) history)
    (halternates : ∀ k, Alternates (PoolMark.turnovers k history) (t.pool.connection? k))
    (hmissing : ∀ caller k, t.phase = .connecting caller k → t.pool.find? k = none)
    (hm : Moved keyText t e t' new) :
    Throughout (fun front m _ => PoolMark.Handed front m) (history ++ new) := by
  cases hm with
  | came caller c => simpa using h
  | nothing e idle => simpa using h
  | @shared caller k rest stored free first found =>
    have hstored := halternates k
    rw [Pool.connection?_of_find? found] at hstored
    exact handed_snoc h hstored
  | connecting free first missing => exact handed_snoc h trivial
  | refused free first missing => exact handed_snoc h trivial
  | left free first found others => exact handed_snoc h trivial
  | disconnecting free first found last => exact handed_snoc h trivial
  | @connected caller k phase c =>
    have hnone := halternates k
    rw [Pool.connection?, hmissing caller k phase, Option.map_none] at hnone
    rw [List.append_cons]
    refine handed_snoc (handed_snoc h trivial) ?_
    rw [PoolMark.Handed, PoolMark.turnovers_append, PoolMark.turnovers_connected, if_pos rfl]
    exact hnone.opened c
  | @failed caller k phase reasons =>
    have hnone := halternates k
    rw [Pool.connection?, hmissing caller k phase, Option.map_none] at hnone
    rw [List.append_cons]
    refine handed_snoc (handed_snoc h trivial) ?_
    rw [PoolMark.Handed, PoolMark.turnovers_append, PoolMark.turnovers_failed,
      PoolMark.turnovers_nil, List.append_nil]
    exact hnone
  | @disconnected caller k phase =>
    rw [List.append_cons]
    exact handed_snoc (handed_snoc h trivial) trivial

/-- What is true of a pool and its history at any moment. -/
structure Faithful (t : PoolTurns κ γ) (history : List (PoolMark κ γ)) : Prop where
  orderly : PoolMark.Orderly history t.call?
  alternates (k : κ) : Alternates (PoolMark.turnovers k history) (t.pool.connection? k)
  handed : Throughout (fun front m _ => PoolMark.Handed front m) history

theorem faithful_of_recorded (h : Recorded keyText t history) : t.Faithful history := by
  induction h with
  | start => exact ⟨.nothing, fun _ => .nothing, .nil _⟩
  | @step t history before e ih =>
    have hmissing := missing_of_recorded before
    have hm := moved keyText t e
    exact ⟨orderly_moved ih.orderly hm, fun k => alternates_moved (ih.alternates k) hmissing hm,
      handed_moved ih.handed ih.alternates hmissing hm⟩

/-! ## When the connector is asked -/

/-- The connector is asked for a connection exactly by an acquire that has its turn and finds nobody
who uses the key. -/
theorem connecting_mem_marks_iff {k : κ} : .connecting k ∈ t.marks keyText e
    ↔ e = .turn ∧ t.phase = .free ∧ t.pool.usage k = 0
      ∧ ∃ caller rest, t.waiting = (caller, .acquire k) :: rest := by
  have hm := moved keyText t e
  generalize (t.step keyText e).1 = t', t.marks keyText e = new at hm ⊢
  rw [Pool.usage_eq_zero_iff]
  constructor
  · intro h
    cases hm with
    | @connecting caller k₀ rest free first missing =>
      simp only [List.mem_singleton, PoolMark.connecting.injEq] at h
      subst h
      exact ⟨rfl, free, missing, caller, rest, first⟩
    | came | nothing | shared | refused | left | disconnecting | connected | failed
    | disconnected => simp at h
  · intro h
    obtain ⟨rfl, free, missing, caller, rest, first⟩ := h
    cases hm with
    | nothing _ idle => simp [idle rfl free] at first
    | shared _ first' found =>
      rw [first] at first'
      cases first'
      rw [missing] at found
      cases found
    | connecting _ first' missing' =>
      rw [first] at first'
      cases first'
      exact List.mem_singleton_self _
    | refused _ first' | left _ first' | disconnecting _ first' =>
      rw [first] at first'
      cases first'

/-- The connector is asked to take a connection down exactly by a release that has its turn and leaves
nobody who uses the key, and it gets the connection that was stored. -/
theorem disconnecting_mem_marks_iff {k : κ} {c : γ} : .disconnecting k c ∈ t.marks keyText e
    ↔ e = .turn ∧ t.phase = .free ∧ t.pool.connection? k = some c
      ∧ (t.step keyText e).1.pool.usage k = 0
      ∧ ∃ caller rest, t.waiting = (caller, .release k) :: rest := by
  have hm := moved keyText t e
  generalize (t.step keyText e).1 = t', t.marks keyText e = new at hm ⊢
  constructor
  · intro h
    cases hm with
    | @disconnecting caller k₀ rest stored free first found last =>
      simp only [List.mem_singleton, PoolMark.disconnecting.injEq] at h
      obtain ⟨rfl, rfl⟩ := h
      refine ⟨rfl, free, Pool.connection?_of_find? found, ?_, caller, rest, first⟩
      rw [Pool.usage_eq_zero_iff, Pool.find?_remove, if_pos rfl]
    | came | nothing | shared | connecting | refused | left | connected | failed
    | disconnected => simp at h
  · intro h
    obtain ⟨rfl, free, stored, gone, caller, rest, first⟩ := h
    cases hm with
    | nothing _ idle => simp [idle rfl free] at first
    | shared _ first' | connecting _ first' =>
      rw [first] at first'
      cases first'
    | refused _ first' missing =>
      rw [first] at first'
      cases first'
      rw [Pool.connection?, missing] at stored
      cases stored
    | left _ first' found others =>
      rw [first] at first'
      cases first'
      rw [Pool.usage_setUsage others found] at gone
      omega
    | disconnecting _ first' found last =>
      rw [first] at first'
      cases first'
      rw [Pool.connection?_of_find? found] at stored
      cases stored
      exact List.mem_singleton_self _

/-- However callers come and have their turns, the connector is asked for one thing after another and
answers before anything else is told. The connections of a key come and go in turns, each going as the
one that came; the pool stores the one that came and did not go, and whoever acquires the key meanwhile
gets it. Setting up is asked for exactly by an acquire that finds nobody who uses the key, taking down
exactly by the release that leaves nobody who does. -/
theorem connections_come_and_go (h : Recorded keyText t history) :
    PoolMark.Orderly history t.call?
    ∧ (∀ k, Alternates (PoolMark.turnovers k history) (t.pool.connection? k))
    ∧ Throughout (fun front m _ => PoolMark.Handed front m) history
    ∧ (∀ e k, .connecting k ∈ t.marks keyText e
      ↔ e = .turn ∧ t.phase = .free ∧ t.pool.usage k = 0
        ∧ ∃ caller rest, t.waiting = (caller, .acquire k) :: rest)
    ∧ ∀ e k c, .disconnecting k c ∈ t.marks keyText e
      ↔ e = .turn ∧ t.phase = .free ∧ t.pool.connection? k = some c
        ∧ (t.step keyText e).1.pool.usage k = 0
        ∧ ∃ caller rest, t.waiting = (caller, .release k) :: rest :=
  have hfaithful := faithful_of_recorded h
  ⟨hfaithful.orderly, hfaithful.alternates, hfaithful.handed,
    fun _ _ => connecting_mem_marks_iff, fun _ _ _ => disconnecting_mem_marks_iff⟩

/-- Connecting fails for one caller, two callers share what comes of the next attempt, and when both
have given it back, a fourth one has another connection set up. -/
theorem connections_come_and_go_again : ∃ (t : PoolTurns Nat Nat) (history : List (PoolMark Nat Nat)),
    Recorded Text.decimal t history
    ∧ PoolMark.turnovers 7 history = [.opened 5, .closed 5, .opened 6]
    ∧ Alternates [.opened 5, .closed 5, .opened 6] (t.pool.connection? 7)
    ∧ t.pool.connection? 7 = some 6 := by
  have hfailed : Recorded Text.decimal (γ := Nat) _ _ :=
    ((Recorded.start.step (.call 1 (.acquire 7))).step .turn).step (.connected (.error ["no answer"]))
  have hcome := (((hfailed.step (.call 2 (.acquire 7))).step .turn).step
    (.call 3 (.acquire 7))).step (.connected (.ok 5))
  have hshared := hcome.step .turn
  have hgiven := (((hshared.step (.call 2 (.release 7))).step .turn).step
    (.call 3 (.release 7))).step .turn
  have hagain := (((hgiven.step .disconnected).step (.call 4 (.acquire 7))).step .turn).step
    (.connected (.ok 6))
  obtain ⟨-, hturns, -⟩ := connections_come_and_go hagain
  exact ⟨_, _, hagain, rfl, hturns 7, rfl⟩

end PoolTurns
end CommandLink
