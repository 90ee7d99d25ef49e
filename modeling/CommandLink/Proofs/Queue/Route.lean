import CommandLink.Proofs.Queue.Boundary
/-!
# Where requests go

A request is written over a stream that was connected to its endpoint, be it for the request itself
or for an earlier one, and only if its frame is not too large.

Results:
* `routed_change`: every change keeps to that.
* `routed_reachable`: so does every queue.
-/
namespace CommandLink

namespace Log
variable {χ : Type}

/-- A stream was connected to an endpoint. -/
def Leads (log : List (Mark χ)) (x : χ) (e : EndpointName) : Prop := ∃ k, .connected k e x ∈ log

theorem Leads.add {log : List (Mark χ)} {x : χ} {e : EndpointName} (h : Leads log x e)
    (new : List (Mark χ)) : Leads (log ++ new) x e := by
  obtain ⟨k, hm⟩ := h
  exact ⟨k, List.mem_append_left _ hm⟩

/-- A request was put that can be sent, and it was meant for the endpoint that a stream leads to. -/
def Meant (log : List (Mark χ)) (k : Nat) (x : χ) : Prop :=
  ∃ r, (puts log)[k]? = some r ∧ r.encode.length ≤ Frame.maxSize ∧ Leads log x r.destination

theorem Meant.add {log : List (Mark χ)} {k : Nat} {x : χ} (h : Meant log k x)
    (new : List (Mark χ)) : Meant (log ++ new) k x := by
  obtain ⟨r, hr, hl, hx⟩ := h
  refine ⟨r, ?_, hl, hx.add new⟩
  obtain ⟨hk, -⟩ := List.getElem?_eq_some_iff.1 hr
  rw [puts_append, List.getElem?_append_left hk, hr]

end Log

namespace Sight
variable {χ : Type} {s s' : Sight χ}

open Log

/-- Where cached channels lead to, the one in use, and those that requests were written over. -/
structure Routed (s : Sight χ) : Prop where
  cached : ∀ p ∈ s.cache, ∀ x, p.2.stream = some x → Leads s.log x p.1
  inUse : ∀ r c x, s.phase.placed? = some r → s.phase.channel? = some c → c.stream = some x →
    Leads s.log x r.destination
  wrote : ∀ k x bs a, .wrote k x bs a ∈ s.log → Meant s.log k x

/-- A change that writes nothing. -/
theorem Routed.add (h : s.Routed) {new : List (Mark χ)} (hlog : s'.log = s.log ++ new)
    (hcache : ∀ p ∈ s'.cache, p ∈ s.cache ∨ ∀ x, p.2.stream = some x → Leads s.log x p.1)
    (hnew : ∀ k x bs a, .wrote k x bs a ∉ new)
    (hin : ∀ r c x, s'.phase.placed? = some r → s'.phase.channel? = some c → c.stream = some x →
      Leads (s.log ++ new) x r.destination) : s'.Routed := by
  refine ⟨fun p hp x hx => ?_, fun r c x hr hc hx => ?_, fun k x bs a hm => ?_⟩
  · rw [hlog]
    rcases hcache p hp with hp | hleads
    · exact (h.cached p hp x hx).add new
    · exact (hleads x hx).add new
  · rw [hlog]
    exact hin r c x hr hc hx
  · rw [hlog] at hm ⊢
    rcases List.mem_append.1 hm with hm | hm
    · exact (h.wrote k x bs a hm).add new
    · exact absurd hm (hnew k x bs a)

/-- The phase has the same request and channel, or none. -/
theorem Routed.same (h : s.Routed) {new : List (Mark χ)} (hlog : s'.log = s.log ++ new)
    (hcache : ∀ p ∈ s'.cache, p ∈ s.cache) (hnew : ∀ k x bs a, .wrote k x bs a ∉ new)
    (hp : s'.phase.channel? = none ∨
      s'.phase.channel? = s.phase.channel? ∧ s'.phase.placed? = s.phase.placed?) : s'.Routed := by
  refine h.add hlog (fun p hp => .inl (hcache p hp)) hnew fun r c x hr hc hx => ?_
  rcases hp with hnone | ⟨hchannel, hplaced⟩
  · rw [hnone] at hc
    cases hc
  · rw [hplaced] at hr
    rw [hchannel] at hc
    exact (h.inUse r c x hr hc hx).add new

theorem not_wrote_releases {new : List (Mark χ)} (h : Releases new) :
    ∀ k x bs a, .wrote k x bs a ∉ new := fun k x bs a hm => by
  obtain ⟨y, r, he⟩ := h _ hm
  cases he

theorem Reached.leads {r : Request} {since : Nat} {c : Channel χ} {x : χ} {m : Mark χ}
    (h : Reached s r since c x m) (hs : s.Routed) :
    c.stream = some x ∧ Leads (s.log ++ [m]) x r.destination
      ∧ ∀ k y bs a, .wrote k y bs a ∉ [m] := by
  cases h with
  | again hp hx =>
    refine ⟨hx, ?_, by simp⟩
    exact (hs.inUse r c x (congrArg QueuePhase.placed? hp) (congrArg QueuePhase.channel? hp) hx).add _
  | anew hp hx =>
    exact ⟨hx, ⟨_, List.mem_append_right _ (List.mem_singleton_self _)⟩, by simp⟩

/-- A request that is being sent is meant for the endpoint that its stream leads to. -/
theorem Routed.meant (hs : s.Routed) (ho : s.InOrder) (hf : s.InFlight) {r : Request} {since : Nat}
    {c : Channel χ} {o : Frame.Outgoing} {x : χ} (hp : s.phase = .sending r since c o)
    (hx : c.stream = some x) : Meant s.log s.number x ∧ Leads s.log x r.destination := by
  have hleads := hs.inUse r c x (congrArg QueuePhase.placed? hp) (congrArg QueuePhase.channel? hp) hx
  rw [InFlight, hp] at hf
  obtain ⟨r', hr', hbare⟩ := ho.flight (congrArg QueuePhase.request? hp)
  have hdestination : r'.bare.destination = r.bare.destination :=
    congrArg Request.destination hbare
  refine ⟨⟨r', hr', ?_, ?_⟩, hleads⟩
  · rw [Request.encode_bare hbare]
    exact hf.1
  · rwa [show r'.destination = r.destination from hdestination]

/-- The request in flight is written over its stream, among other things that write nothing. -/
theorem Routed.sent (hs : s.Routed) {x : χ} (hmeant : Meant s.log s.number x) {bs : Bytes}
    {a : Frame.Acceptance} {rest : List (Mark χ)}
    (hlog : s'.log = s.log ++ (.wrote s.number x bs a :: rest))
    (hrest : ∀ k x bs a, .wrote k x bs a ∉ rest)
    (hcache : ∀ p ∈ s'.cache, p ∈ s.cache ∨ p.2.stream = some x ∧ Leads s.log x p.1)
    (hin : ∀ r c y, s'.phase.placed? = some r → s'.phase.channel? = some c → c.stream = some y →
      y = x ∧ Leads s.log x r.destination) : s'.Routed := by
  refine ⟨fun p hp y hy => ?_, fun r c y hr hc hy => ?_, fun k y bs' a' hm => ?_⟩
  · rw [hlog]
    rcases hcache p hp with hp | ⟨hx, hleads⟩
    · exact (hs.cached p hp y hy).add _
    · rw [hx] at hy
      cases hy
      exact hleads.add _
  · obtain ⟨rfl, hleads⟩ := hin r c y hr hc hy
    rw [hlog]
    exact hleads.add _
  · rw [hlog] at hm ⊢
    rcases List.mem_append.1 hm with hm | hm
    · exact (hs.wrote k y bs' a' hm).add _
    rcases List.mem_cons.1 hm with hm | hm
    · cases hm
      exact hmeant.add _
    · exact absurd hm (hrest k y bs' a')

/-- What goes wrong is noted without a word of writing, or it is a write that failed. -/
theorem Mishap.wrote {r : Request} {c : Channel χ} {x : χ} {marks : List (Mark χ)}
    {response : Response} (h : Mishap s r c x marks response) :
    (∀ k y bs a, .wrote k y bs a ∉ marks) ∨ ∃ since o bs a,
      s.phase = .sending r since c o ∧ c.stream = some x ∧ marks = [.wrote s.number x bs a] := by
  cases h with
  | tooLarge hr =>
    left
    cases hr <;> simp
  | unsent hp hx => exact .inr ⟨_, _, _, _, hp, hx, rfl⟩
  | unanswered => exact .inl (by simp)
  | malformed => exact .inl (by simp)
  | cancelled => exact .inl (by simp)

theorem routed_change (ho : s.InOrder) (hf : s.InFlight) (hs : s.Routed) (h : Change s s') :
    s'.Routed := by
  cases h with
  | same => exact hs
  | put r hp => exact hs.same rfl (fun p hp => hp) (by simp) (.inr ⟨rfl, rfl⟩)
  | refused r hp => exact hs.same rfl (fun p hp => hp) (by simp) (.inr ⟨rfl, rfl⟩)
  | began since hp =>
    exact hs.same (List.append_nil _).symm (fun p hp => hp) (by simp) (.inl rfl)
  | dropped e =>
    exact hs.same rfl (fun p hp => (List.mem_filter.1 hp).1)
      (not_wrote_releases (releases_flatMap _)) (.inr ⟨rfl, rfl⟩)
  | stopped hp =>
    exact hs.same rfl (fun p hp => absurd hp (by simp)) (not_wrote_releases (releases_flatMap _))
      (.inl rfl)
  | @checkedOut r since c hp hc =>
    refine hs.add (List.append_nil _).symm (fun p hp => .inl (List.mem_filter.1 hp).1) (by simp)
      fun r' c' x hr' hc' hx => ?_
    cases hr'
    cases hc'
    exact (hs.cached _ (mem_of_lookup hc) x hx).add []
  | missing hp =>
    exact hs.same (List.append_nil _).symm (fun p hp => hp) (by simp) (.inl rfl)
  | stale hp =>
    refine hs.same rfl (fun p hp => hp) (fun k y bs a hm => ?_) (.inl rfl)
    exact not_wrote_releases (releases_closing _) k y bs a ((List.mem_cons.1 hm).resolve_left (by simp))
  | unreachable e hp => exact hs.same rfl (fun p hp => hp) (by simp) (.inl rfl)
  | reached hr =>
    obtain ⟨hx, hleads, hnew⟩ := hr.leads hs
    refine hs.add rfl (fun p hp => .inl hp) hnew fun r' c' y hr' hc' hy => ?_
    cases hr'
    cases hc'
    rw [hx] at hy
    cases hy
    exact hleads
  | advanced hp hx =>
    obtain ⟨hmeant, hleads⟩ := hs.meant ho hf hp hx
    refine hs.sent hmeant rfl (by simp) (fun p hp => .inl hp) fun r' c' y hr' hc' hy => ?_
    cases hr'
    cases hc'
    rw [hx] at hy
    cases hy
    exact ⟨rfl, hleads⟩
  | delivered hp hx =>
    obtain ⟨hmeant, hleads⟩ := hs.meant ho hf hp hx
    refine hs.sent hmeant rfl (by simp) (fun p hp => ?_) fun r' c' y hr' => by cases hr'
    rcases List.mem_cons.1 hp with rfl | hp
    · exact .inr ⟨hx, hleads⟩
    · exact .inl hp
  | asked hp hx =>
    obtain ⟨hmeant, hleads⟩ := hs.meant ho hf hp hx
    refine hs.sent hmeant rfl (by simp) (fun p hp => .inl hp) fun r' c' y hr' hc' hy => ?_
    cases hr'
    cases hc'
    rw [hx] at hy
    cases hy
    exact ⟨rfl, hleads⟩
  | heard hp =>
    exact hs.same rfl (fun p hp => hp) (by simp) (.inr ⟨by rw [hp]; rfl, by rw [hp]; rfl⟩)
  | @answered r since c x i p payload response hp hx =>
    have hleads := hs.inUse r c x (congrArg QueuePhase.placed? hp)
      (congrArg QueuePhase.channel? hp) hx
    refine hs.add rfl (fun q hq => ?_) (by simp) fun r' c' y hr' => by cases hr'
    rcases List.mem_cons.1 hq with rfl | hq
    · refine .inr fun y hy => ?_
      rw [hx] at hy
      cases hy
      exact hleads
    · exact .inl hq
  | @failed r c x marks response hm =>
    have hrest : ∀ k y bs a, .wrote k y bs a ∉ Log.closing c
        ++ [Mark.ended s.number (some x) (.failed r response)] := fun k y bs a hm' => by
      rcases List.mem_append.1 hm' with hm' | hm'
      · exact not_wrote_releases (releases_closing c) k y bs a hm'
      · cases List.mem_singleton.1 hm'
    rcases hm.wrote with hnew | ⟨since, o, bs, a, hp, hx, rfl⟩
    · refine hs.same rfl (fun p hp => hp) (fun k y bs a hm' => ?_) (.inl rfl)
      exact (List.mem_append.1 hm').elim (hnew k y bs a) (hrest k y bs a)
    · exact hs.sent (hs.meant ho hf hp hx).1 rfl hrest (fun p hp => .inl hp)
        fun r' c' y hr' => by cases hr'

theorem routed_reachable {w : Watched χ} (h : w.Reachable) : w.sight.Routed :=
  Watched.reachable_induction (P := Routed)
    ⟨fun p hp => absurd hp (by simp), fun r c x hr => (by cases hr),
      fun k x bs a hm => absurd hm (by simp)⟩
    (fun _ _ hw hs hc => routed_change (inOrder_reachable hw) (inFlight_reachable hw) hs hc) h

end Sight
end CommandLink
