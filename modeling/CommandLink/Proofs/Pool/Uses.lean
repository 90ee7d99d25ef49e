import CommandLink.Pool.Turns
import Mathlib.Data.List.Nodup
/-!
# Accounting for the users of a pool

What the callers of a pool were told accounts for its users: a key has as many as there were
successful acquires of it, less the successful releases. Callers take turns, so however their calls
meet, they were told what they would have been told one after another.

Results:
* `acquire_spec`, `release_spec`: what a call does, to its own key and to the others.
* `served_of_reachable`: calls that meet at a pool come to calls one after another.
* `uses_accounted`: the account of a pool's users.
-/
namespace CommandLink

/-- What a caller is told about a key in the end. -/
inductive PoolAnswer (κ γ : Type) where
  | acquired (k : κ) (r : Except PoolError γ)
  | released (k : κ) (r : Except PoolError Unit)

namespace Pool
variable {κ γ σ : Type} [DecidableEq κ] {p p' : Pool κ γ} {k k' : κ} {s s' : σ}
  {connect : κ → σ → Connecting γ × σ} {disconnect : κ → γ → σ → σ} {keyText : κ → String}

/-! ## What a pool holds -/

/-- The keys that are connected. -/
def keys (p : Pool κ γ) : List κ := p.entries.map Pooled.key

theorem mem_keys_of_find? {e : Pooled κ γ} (h : p.find? k = some e) : k ∈ p.keys :=
  find?_key h ▸ List.mem_map_of_mem (List.mem_of_find?_eq_some h)

theorem find?_of_mem {e : Pooled κ γ} (h : e ∈ p.entries) : p.find? e.key = some e := by
  cases hfind : p.find? e.key with
  | none => exact absurd (List.find?_eq_none.1 hfind e h) (by simp)
  | some e' =>
    have hmem : e' ∈ p.entries := List.mem_of_find?_eq_some hfind
    rw [List.inj_on_of_nodup_map p.distinct hmem h (find?_key hfind)]

theorem usage_of_find? {e : Pooled κ γ} (h : p.find? k = some e) : p.usage k = e.usage := by
  rw [usage, h]

theorem usage_eq_zero_iff : p.usage k = 0 ↔ p.find? k = none := by
  cases h : p.find? k with
  | none => simp [usage, h]
  | some e => simpa using Nat.ne_of_gt (usage_pos h)

theorem mem_keys_iff : k ∈ p.keys ↔ 0 < p.usage k := by
  rw [Nat.pos_iff_ne_zero, Ne, usage_eq_zero_iff]
  constructor
  · intro h hnone
    obtain ⟨e, he, rfl⟩ := List.mem_map.1 h
    rw [find?_of_mem he] at hnone
    cases hnone
  · intro h
    obtain ⟨e, he⟩ := Option.ne_none_iff_exists'.1 h
    exact mem_keys_of_find? he

theorem size_eq_zero (h : ∀ k, p.usage k = 0) : p.size = 0 := by
  unfold size
  rw [List.length_eq_zero_iff, List.eq_nil_iff_forall_not_mem]
  intro e he
  have hused := usage_pos (find?_of_mem he)
  rw [h] at hused
  omega

theorem usage_congr (h : p'.find? k = p.find? k) : p'.usage k = p.usage k := by
  rw [usage, h, usage]

theorem find?_setUsage_ne {n : Nat} (hn : 0 < n) (h : k' ≠ k) :
    (p.setUsage k n hn).find? k' = p.find? k' := by
  rw [find?_setUsage]
  cases hfind : p.find? k' with
  | none => rfl
  | some e => rw [Option.map_some, if_neg (find?_key hfind ▸ h)]

theorem usage_setUsage {e : Pooled κ γ} {n : Nat} (hn : 0 < n) (h : p.find? k = some e) :
    (p.setUsage k n hn).usage k = n := by
  rw [usage, find?_setUsage, h, Option.map_some, if_pos (find?_key h)]

/-! ## What a call does -/

/-- Acquiring fails exactly where nobody has the key and connecting fails. -/
theorem acquire_spec {r : Except PoolError γ} (h : p.acquire connect keyText k s = (r, p', s')) :
    ((∃ e, r = .error e) ↔ p.usage k = 0 ∧ ∃ reasons, (connect k s).1 = .error reasons)
    ∧ (∀ e, r = .error e → p' = p)
    ∧ (∀ c, r = .ok c → p'.usage k = p.usage k + 1)
    ∧ ∀ k', k' ≠ k → p'.find? k' = p.find? k' := by
  rw [acquire] at h
  cases hfind : p.find? k with
  | some e =>
    rw [hfind] at h
    cases h
    have hused : p.usage k ≠ 0 := Nat.ne_of_gt (usage_pos hfind)
    refine ⟨by simp [hused], by simp, fun _ _ => usage_setUsage _ hfind,
      fun k' hk => find?_setUsage_ne _ hk⟩
  | none =>
    rw [hfind] at h
    have hzero : p.usage k = 0 := usage_eq_zero_iff.2 hfind
    cases hconnect : connect k s with
    | mk outcome s₁ =>
      rw [hconnect] at h
      cases outcome with
      | ok c =>
        cases h
        refine ⟨by simp, by simp, fun _ _ => ?_, fun k' hk => ?_⟩
        · rw [usage, find?_enter p k k c hfind, if_pos rfl, hzero]
        · rw [find?_enter p k k' c hfind, if_neg hk]
      | error reasons =>
        cases h
        exact ⟨by simp [hzero], fun _ _ => rfl, by simp, fun _ _ => rfl⟩

/-- Releasing fails exactly where nobody has the key. -/
theorem release_spec {r : Except PoolError Unit}
    (h : p.release disconnect keyText k s = (r, p', s')) :
    (r = .error (.notAcquired (keyText k)) ↔ p.usage k = 0)
    ∧ (∀ e, r = .error e → e = .notAcquired (keyText k) ∧ p' = p)
    ∧ (r = .ok () → p'.usage k + 1 = p.usage k)
    ∧ ∀ k', k' ≠ k → p'.find? k' = p.find? k' := by
  rw [release, leave] at h
  cases hfind : p.find? k with
  | none =>
    rw [hfind] at h
    cases h
    exact ⟨by simp [usage_eq_zero_iff.2 hfind], fun e he => ⟨(Except.error.inj he).symm, rfl⟩,
      by simp, fun _ _ => rfl⟩
  | some e =>
    rw [hfind] at h
    have husage := usage_of_find? hfind
    have hused := e.used
    have hne : p.usage k ≠ 0 := Nat.ne_of_gt (usage_pos hfind)
    by_cases hlast : 0 < e.usage - 1
    · simp only [dif_pos hlast] at h
      cases h
      refine ⟨by simp [hne], by simp, fun _ => ?_, fun k' hk => find?_setUsage_ne _ hk⟩
      rw [usage_setUsage _ hfind]
      omega
    · simp only [dif_neg hlast] at h
      cases h
      refine ⟨by simp [hne], by simp, fun _ => ?_, fun k' hk => ?_⟩
      · have hgone : (p.remove k).usage k = 0 := by
          rw [usage_eq_zero_iff, find?_remove, if_pos rfl]
        omega
      · rw [find?_remove, if_neg hk]

/-- What an acquire that succeeds does to the users of each key. -/
theorem usage_acquired {c : γ} (h : p.acquire connect keyText k s = (.ok c, p', s')) (k' : κ) :
    p'.usage k' = p.usage k' + (k == k').toNat := by
  obtain ⟨-, -, hdone, hothers⟩ := acquire_spec h
  by_cases hk : k = k'
  · subst hk
    rw [hdone c rfl, beq_self_eq_true, Bool.toNat_true]
  · rw [usage_congr (hothers k' (Ne.symm hk)), beq_false_of_ne hk, Bool.toNat_false, Nat.add_zero]

/-- What a release that succeeds does to the users of each key. -/
theorem usage_released (h : p.release disconnect keyText k s = (.ok (), p', s')) (k' : κ) :
    p'.usage k' + (k == k').toNat = p.usage k' := by
  obtain ⟨-, -, hdone, hothers⟩ := release_spec h
  by_cases hk : k = k'
  · subst hk
    rw [← hdone rfl, beq_self_eq_true, Bool.toNat_true]
  · rw [usage_congr (hothers k' (Ne.symm hk)), beq_false_of_ne hk, Bool.toNat_false, Nat.add_zero]

/-! ## One call after another -/

/-- A call and what its caller is told. -/
def answer (connect : κ → σ → Connecting γ × σ) (disconnect : κ → γ → σ → σ) (keyText : κ → String)
    (p : Pool κ γ) (c : PoolCall κ) (s : σ) : PoolAnswer κ γ × Pool κ γ × σ :=
  match c with
  | .acquire k =>
    let (r, p, s) := p.acquire connect keyText k s
    (.acquired k r, p, s)
  | .release k =>
    let (r, p, s) := p.release disconnect keyText k s
    (.released k r, p, s)

/-- What callers can be told one after another, and the pool after that. Each of them may find another
connector, so connecting may come to anything at any time. -/
inductive Served (keyText : κ → String) : List (PoolAnswer κ γ) → Pool κ γ → Prop
  | start : Served keyText [] .empty
  | call {told : List (PoolAnswer κ γ)} {p p' : Pool κ γ} (before : Served keyText told p)
      (c : PoolCall κ) {σ : Type} (connect : κ → σ → Connecting γ × σ) (disconnect : κ → γ → σ → σ)
      {s s' : σ} {a : PoolAnswer κ γ} (h : p.answer connect disconnect keyText c s = (a, p', s')) :
      Served keyText (told ++ [a]) p'

theorem Served.acquired {told : List (PoolAnswer κ γ)} (h : Served keyText told p) (outcome : Connecting γ)
    {r : Except PoolError γ}
    (hcall : p.acquire (fun _ s => (outcome, s)) keyText k () = (r, p', ())) :
    Served keyText (told ++ [.acquired k r]) p' :=
  h.call (.acquire k) (fun _ s => (outcome, s)) (fun _ _ s => s) (by rw [answer, hcall])

theorem Served.released {told : List (PoolAnswer κ γ)} (h : Served keyText told p)
    {r : Except PoolError Unit} (hcall : p.release (fun _ _ s => s) keyText k () = (r, p', ())) :
    Served keyText (told ++ [.released k r]) p' :=
  h.call (.release k) (fun _ s => (.error [], s)) (fun _ _ s => s) (by rw [answer, hcall])

/-- The successful acquires of a key. -/
def acquires (k : κ) (told : List (PoolAnswer κ γ)) : Nat :=
  told.countP fun
    | .acquired k' (.ok _) => k' = k
    | _ => false

/-- The successful releases of a key. -/
def releases (k : κ) (told : List (PoolAnswer κ γ)) : Nat :=
  told.countP fun
    | .released k' (.ok _) => k' = k
    | _ => false

/-- The users of a pool are accounted for by what callers were told. -/
structure Accounted (told : List (PoolAnswer κ γ)) (p : Pool κ γ) : Prop where
  balance (k : κ) : p.usage k + releases k told = acquires k told
  used {e : Pooled κ γ} (h : e ∈ p.entries) : 1 ≤ e.usage ∧ p.usage e.key = e.usage
  size : ∃ ks : List κ, ks.Nodup ∧ (∀ k, k ∈ ks ↔ 0 < p.usage k) ∧ p.size = ks.length

/-- One more answer, in the account of a key. -/
theorem balance_answer {c : PoolCall κ} {a : PoolAnswer κ γ}
    (h : p.answer connect disconnect keyText c s = (a, p', s')) (k : κ) :
    p'.usage k + releases k [a] = p.usage k + acquires k [a] := by
  cases c with
  | acquire k₀ =>
    cases hcall : p.acquire connect keyText k₀ s with
    | mk r rest =>
      obtain ⟨p₁, s₁⟩ := rest
      obtain ⟨-, hfailed, -⟩ := acquire_spec hcall
      rw [answer, hcall] at h
      cases h
      cases r with
      | error e =>
        rw [hfailed e rfl]
        rfl
      | ok c =>
        rw [usage_acquired hcall k]
        by_cases hk : k₀ = k <;> simp [acquires, releases, hk]
  | release k₀ =>
    cases hcall : p.release disconnect keyText k₀ s with
    | mk r rest =>
      obtain ⟨p₁, s₁⟩ := rest
      obtain ⟨-, hfailed, -⟩ := release_spec hcall
      rw [answer, hcall] at h
      cases h
      cases r with
      | error e =>
        rw [(hfailed e rfl).2]
        rfl
      | ok u =>
        rw [← usage_released hcall k]
        by_cases hk : k₀ = k <;> simp [acquires, releases, hk]

theorem accounted_of_served {told : List (PoolAnswer κ γ)} (h : Served keyText told p) :
    Accounted told p := by
  refine ⟨fun k => ?_, fun {e} he => ⟨e.used, usage_of_find? (find?_of_mem he)⟩,
    p.keys, p.distinct, fun k => mem_keys_iff, (List.length_map _).symm⟩
  induction h with
  | start => rfl
  | call _ c connect disconnect hcall ih =>
    have hanswer := balance_answer hcall k
    rw [releases, acquires] at ih hanswer ⊢
    rw [List.countP_append, List.countP_append]
    omega

end Pool

/-! ## Calls that meet -/

namespace PoolTurns
variable {κ γ : Type} [DecidableEq κ] {keyText : κ → String} {t : PoolTurns κ γ}
  {told : List (PoolAnswer κ γ)}

/-- The key that the turn in progress is about, or else the next one. -/
def key? (t : PoolTurns κ γ) : Option κ :=
  match t.phase with
  | .connecting _ k | .disconnecting _ k => some k
  | .free => t.waiting.head?.map fun
    | (_, .acquire k) | (_, .release k) => k

/-- What an act tells a caller, if anything. -/
def told? (t : PoolTurns κ γ) : PoolAct κ γ → Option (PoolAnswer κ γ)
  | .acquired _ r => t.key?.map (.acquired · r)
  | .released _ r => t.key?.map (.released · r)
  | .connect _ | .disconnect _ _ => none

/-- What can become of a pool where callers come at any time and have their turns, with what they were
told until then. -/
inductive Reachable (keyText : κ → String) : PoolTurns κ γ → List (PoolAnswer κ γ) → Prop
  | start : Reachable keyText .start []
  | step {t : PoolTurns κ γ} {told : List (PoolAnswer κ γ)} (before : Reachable keyText t told)
      (e : PoolEvent κ γ) :
      Reachable keyText (t.step keyText e).1 (told ++ (t.step keyText e).2.filterMap t.told?)

/-- What was told so far was told to callers one after another. While a connection is taken down, the
pool is that after the turn in progress, of which nobody was told yet. -/
def InTurn (keyText : κ → String) (t : PoolTurns κ γ) (told : List (PoolAnswer κ γ)) : Prop :=
  match t.phase with
  | .free => Pool.Served keyText told t.pool
  | .connecting _ k => t.pool.find? k = none ∧ Pool.Served keyText told t.pool
  | .disconnecting _ k => ∃ p c, Pool.Served keyText told p ∧ p.leave k = some (some c, t.pool)

theorem inTurn_free (hp : t.phase = .free) :
    t.InTurn keyText told ↔ Pool.Served keyText told t.pool := by
  rw [InTurn, hp]

/-- A turn ends at once, or it waits for the connector. -/
theorem inTurn_turn (hp : t.phase = .free) (h : t.InTurn keyText told) :
    (t.turn keyText).1.InTurn keyText (told ++ (t.turn keyText).2.filterMap t.told?) := by
  have hserved := (inTurn_free hp).1 h
  cases hw : t.waiting with
  | nil =>
    have hturn : t.turn keyText = (t, []) := by rw [turn, hw]
    rw [hturn]
    simpa using h
  | cons next rest =>
    obtain ⟨caller, c⟩ := next
    cases c with
    | acquire k =>
      have hkey : t.key? = some k := by rw [key?, hp, hw]; rfl
      cases hfind : t.pool.find? k with
      | some e =>
        have hturn : t.turn keyText
            = (⟨t.pool.share k, rest, .free⟩, [.acquired caller (.ok e.connection)]) := by
          simp only [turn, hw, hfind]
        rw [hturn]
        simpa [told?, hkey, InTurn] using
          hserved.acquired (.error []) (k := k) (by simp only [Pool.acquire, hfind])
      | none =>
        have hturn : t.turn keyText = (⟨t.pool, rest, .connecting caller k⟩, [.connect k]) := by
          simp only [turn, hw, hfind]
        rw [hturn]
        refine ⟨hfind, ?_⟩
        rw [show [PoolAct.connect k].filterMap t.told? = [] from rfl, List.append_nil]
        exact hserved
    | release k =>
      have hkey : t.key? = some k := by rw [key?, hp, hw]; rfl
      cases hleave : t.pool.leave k with
      | none =>
        have hturn : t.turn keyText
            = (⟨t.pool, rest, .free⟩, [.released caller (.error (.notAcquired (keyText k)))]) := by
          simp only [turn, hw, hleave]
        rw [hturn]
        simpa [told?, hkey, InTurn] using
          hserved.released (k := k) (by simp only [Pool.release, hleave])
      | some left =>
        obtain ⟨last, p⟩ := left
        cases last with
        | none =>
          have hturn : t.turn keyText = (⟨p, rest, .free⟩, [.released caller (.ok ())]) := by
            simp only [turn, hw, hleave]
          rw [hturn]
          simpa [told?, hkey, InTurn] using
            hserved.released (k := k) (by simp only [Pool.release, hleave])
        | some c =>
          have hturn : t.turn keyText = (⟨p, rest, .disconnecting caller k⟩, [.disconnect k c]) := by
            simp only [turn, hw, hleave]
          rw [hturn]
          refine ⟨t.pool, c, ?_, hleave⟩
          rw [show [PoolAct.disconnect k c].filterMap t.told? = [] from rfl, List.append_nil]
          exact hserved

theorem inTurn_connected {caller : Nat} {k : κ} (hp : t.phase = .connecting caller k)
    (h : t.InTurn keyText told) (r : Pool.Connecting γ) :
    (t.connected keyText caller k r).1.InTurn keyText
      (told ++ (t.connected keyText caller k r).2.filterMap t.told?) := by
  rw [InTurn, hp] at h
  obtain ⟨hfind, hserved⟩ := h
  have hkey : t.key? = some k := by rw [key?, hp]
  -- the connector that the caller found did what was reported
  cases r with
  | ok c =>
    simpa [connected, told?, hkey, InTurn] using
      hserved.acquired (.ok c) (k := k) (by simp only [Pool.acquire, hfind])
  | error reasons =>
    simpa [connected, told?, hkey, InTurn] using
      hserved.acquired (.error reasons) (k := k) (by simp only [Pool.acquire, hfind])

theorem inTurn_step (h : t.InTurn keyText told) (e : PoolEvent κ γ) :
    (t.step keyText e).1.InTurn keyText (told ++ (t.step keyText e).2.filterMap t.told?) := by
  have unchanged (hstep : t.step keyText e = (t, [])) : (t.step keyText e).1.InTurn keyText
      (told ++ (t.step keyText e).2.filterMap t.told?) := by
    rw [hstep]
    simpa using h
  cases e with
  | call caller c =>
    have hstep : t.step keyText (.call caller c)
        = ({ t with waiting := t.waiting ++ [(caller, c)] }, []) := by rw [step]
    rw [hstep]
    simpa [InTurn] using h
  | turn =>
    by_cases hp : t.phase = .free
    · rw [step_turn_free hp]
      exact inTurn_turn hp h
    · exact unchanged (step_turn_busy hp keyText)
  | connected r =>
    cases hp : t.phase with
    | free => exact unchanged (step_connected_free hp keyText r)
    | connecting caller k =>
      have hstep : t.step keyText (.connected r) = t.connected keyText caller k r := by
        simp only [step, hp]
      rw [hstep]
      exact inTurn_connected hp h r
    | disconnecting caller k => exact unchanged (by simp only [step, hp])
  | disconnected =>
    cases hp : t.phase with
    | free => exact unchanged (step_disconnected_free hp keyText)
    | connecting caller k => exact unchanged (by simp only [step, hp])
    | disconnecting caller k =>
      have hstep : t.step keyText .disconnected
          = ({ t with phase := .free }, [.released caller (.ok ())]) := by simp only [step, hp]
      rw [InTurn, hp] at h
      obtain ⟨p, c, hserved, hleave⟩ := h
      have hkey : t.key? = some k := by rw [key?, hp]
      rw [hstep]
      simpa [told?, hkey, InTurn] using
        hserved.released (k := k) (by simp only [Pool.release, hleave])

theorem inTurn_reachable (h : Reachable keyText t told) : t.InTurn keyText told := by
  induction h with
  | start => exact .start
  | step _ e ih => exact inTurn_step ih e

theorem served_of_reachable (h : Reachable keyText t told) (hp : t.phase = .free) :
    Pool.Served keyText told t.pool :=
  (inTurn_free hp).1 (inTurn_reachable h)

/-- After any calls, one after another and with whatever connectors, the users of each key are the
successful acquires less the successful releases; what is stored is in use, and as many keys are
connected as are in use. Calls that meet, with any connector, come to calls one after another whenever
nobody has the turn. An acquire fails exactly where nobody has the key and connecting fails, a release
exactly where nobody has the key; who fails leaves the whole pool, and who does not, all other keys. -/
theorem uses_accounted (keyText : κ → String) :
    (∀ (told : List (PoolAnswer κ γ)) (p : Pool κ γ), Pool.Served keyText told p →
      Pool.Accounted told p)
    ∧ (∀ (t : PoolTurns κ γ) (told : List (PoolAnswer κ γ)), Reachable keyText t told →
      t.phase = .free → Pool.Served keyText told t.pool)
    ∧ (∀ (σ : Type) (connect : κ → σ → Pool.Connecting γ × σ) (p p' : Pool κ γ) (k : κ) (s s' : σ)
      (r : Except PoolError γ), p.acquire connect keyText k s = (r, p', s') →
      ((∃ e, r = .error e) ↔ p.usage k = 0 ∧ ∃ reasons, (connect k s).1 = .error reasons)
      ∧ (∀ e, r = .error e → p' = p)
      ∧ (∀ c, r = .ok c → p'.usage k = p.usage k + 1)
      ∧ ∀ k', k' ≠ k → p'.find? k' = p.find? k')
    ∧ ∀ (σ : Type) (disconnect : κ → γ → σ → σ) (p p' : Pool κ γ) (k : κ) (s s' : σ)
      (r : Except PoolError Unit), p.release disconnect keyText k s = (r, p', s') →
      (r = .error (.notAcquired (keyText k)) ↔ p.usage k = 0)
      ∧ (∀ e, r = .error e → e = .notAcquired (keyText k) ∧ p' = p)
      ∧ (r = .ok () → p'.usage k + 1 = p.usage k)
      ∧ ∀ k', k' ≠ k → p'.find? k' = p.find? k' :=
  ⟨fun _ _ h => Pool.accounted_of_served h, fun _ _ h hp => served_of_reachable h hp,
    fun _ _ _ _ _ _ _ _ h => Pool.acquire_spec h, fun _ _ _ _ _ _ _ _ h => Pool.release_spec h⟩

/-- Two callers share a connection, and one of them gives it back. -/
theorem uses_accounted_shared : ∃ (t : PoolTurns Nat Nat) (told : List (PoolAnswer Nat Nat)),
    Reachable Text.decimal t told ∧ told.length = 3 ∧ t.pool.usage 7 = 1 := by
  have hcome : Reachable Text.decimal (γ := Nat) _ _ :=
    (Reachable.start.step (.call 1 (.acquire 7))).step (.call 2 (.acquire 7))
  have hshared := ((hcome.step .turn).step (.connected (.ok 0))).step .turn
  have hgiven := (hshared.step (.call 1 (.release 7))).step .turn
  obtain ⟨hserved, hmeet, -⟩ := uses_accounted (κ := Nat) (γ := Nat) Text.decimal
  have hbalance := (hserved _ _ (hmeet _ _ hgiven rfl)).balance 7
  exact ⟨_, _, hgiven, rfl, Nat.succ.inj hbalance⟩

end PoolTurns
end CommandLink
