import CommandLink.Proofs.Queue.Ledger
/-!
# The order of requests

The requests that were put are those that ended, the one in flight and those that wait, in this
order, and nothing is done for a request before it is put.

Results:
* `inOrder_change`: every change keeps this order.
* `InOrder.take`, `InOrder.ended`, `InOrder.flight`: which request has which place.
* `begun_change`: what is done, is done for requests that were put.
-/
namespace CommandLink

/-- A request, however far it has come. -/
def Request.bare (r : Request) : Request := { r with progress := .created }

theorem Request.encode_bare {r r' : Request} (h : r.bare = r'.bare) : r.encode = r'.encode := by
  have hreceiver := congrArg Request.receiver h
  have haction := congrArg Request.action h
  have hparameters := congrArg Request.parameters h
  have hmode := congrArg Request.mode h
  exact Request.encode_congr hreceiver haction hparameters hmode

namespace Sight
variable {χ : Type} {s s' : Sight χ}

open Log

/-- The requests that were put are those that ended, the one in flight and those that wait. -/
structure InOrder (s : Sight χ) : Prop where
  all : (puts s.log).map Request.bare = (endings s.log).map (fun e => e.request.bare)
    ++ (s.phase.request?.toList ++ s.requests).map Request.bare
  stopped : s.phase = .stopped → s.requests = []

/-- What is added to a log accounts for what comes and goes. -/
theorem InOrder.add (hs : s.InOrder) {new : List (Mark χ)} (hlog : s'.log = s.log ++ new)
    (hall : (s.phase.request?.toList ++ s.requests ++ puts new).map Request.bare
      = (endings new).map (fun e => e.request.bare)
        ++ (s'.phase.request?.toList ++ s'.requests).map Request.bare)
    (hstopped : s'.phase = .stopped → s'.requests = []) : s'.InOrder := by
  refine ⟨?_, hstopped⟩
  have hbefore := hs.all
  simp only [hlog, puts_append, endings_append, List.map_append, List.append_assoc]
    at hbefore hall ⊢
  rw [hbefore, List.append_assoc, List.append_assoc, hall]

theorem inOrder_change (hs : s.InOrder) (h : Change s s') : s'.InOrder := by
  cases h with
  | same => exact hs
  | put r hp => exact hs.add rfl (by simp [puts, endings, Request.bare]) fun h => absurd h hp
  | refused r hp =>
    have hr := hs.stopped hp
    refine hs.add rfl ?_ hs.stopped
    simp [puts, endings, hp, hr, QueuePhase.request?, Ending.failed, Request.bare]
  | began since hp hr =>
    refine hs.add (List.append_nil _).symm ?_ fun h => by cases h
    simp [puts, endings, hp, hr, QueuePhase.request?, Request.bare]
  | dropped e =>
    refine hs.add rfl ?_ hs.stopped
    simp [puts_releases (releases_flatMap _), endings_releases (releases_flatMap _)]
  | stopped hp hr =>
    refine hs.add rfl ?_ fun _ => hr
    simp [puts_releases (releases_flatMap _), endings_releases (releases_flatMap _), hp,
      QueuePhase.request?]
  | checkedOut hp =>
    refine hs.add (List.append_nil _).symm ?_ fun h => by cases h
    simp [puts, endings, hp, QueuePhase.request?]
  | missing hp =>
    refine hs.add (List.append_nil _).symm ?_ fun h => by cases h
    simp [puts, endings, hp, QueuePhase.request?]
  | @stale r since c x p hp =>
    refine hs.add rfl ?_ fun h => by cases h
    rw [← List.singleton_append, puts_append, endings_append, puts_releases (releases_closing c),
      endings_releases (releases_closing c)]
    simp [puts, endings, hp, QueuePhase.request?]
  | unreachable e hp =>
    refine hs.add rfl ?_ fun h => by cases h
    simp [puts, endings, hp, QueuePhase.request?, Ending.failed, Request.bare]
  | reached hr =>
    refine hs.add rfl ?_ fun h => by cases h
    rw [hr.request?.1, hr.request?.2, endings_during hr.during]
    simp [QueuePhase.request?]
  | advanced hp =>
    refine hs.add rfl ?_ fun h => by cases h
    simp [puts, endings, hp, QueuePhase.request?]
  | delivered hp =>
    refine hs.add rfl ?_ fun h => by cases h
    simp [puts, endings, hp, QueuePhase.request?, Ending.completed, Request.bare]
  | asked hp =>
    refine hs.add rfl ?_ fun h => by cases h
    simp [puts, endings, hp, QueuePhase.request?]
  | heard hp =>
    refine hs.add rfl ?_ fun h => by cases h
    simp [puts, endings, hp, QueuePhase.request?]
  | answered hp =>
    refine hs.add rfl ?_ fun h => by cases h
    simp [puts, endings, hp, QueuePhase.request?, Ending.completed, Request.bare]
  | @failed r c x marks response hm =>
    refine hs.add rfl ?_ fun h => by cases h
    rw [puts_append, puts_append, hm.request?.1, hm.request?.2,
      puts_releases (releases_closing c), endings_append, endings_append,
      endings_during hm.during, endings_releases (releases_closing c)]
    simp [puts, endings, QueuePhase.request?, Ending.failed, Request.bare]

theorem inOrder_reachable {w : Watched χ} (h : w.Reachable) : w.sight.InOrder :=
  Watched.reachable_induction (P := InOrder) ⟨rfl, fun _ => rfl⟩
    (fun _ _ _ hs hc => inOrder_change hs hc) h
/-! ## Places -/

theorem InOrder.length (hs : s.InOrder) :
    (puts s.log).length = s.number + (s.phase.request?.toList ++ s.requests).length := by
  have h := congrArg List.length hs.all
  rwa [List.length_append, List.length_map, List.length_map, List.length_map] at h

/-- The requests that ended are the first that were put. -/
theorem InOrder.take (hs : s.InOrder) :
    (endings s.log).map (fun e => e.request.bare)
      = ((puts s.log).take s.number).map Request.bare := by
  rw [List.map_take, hs.all]
  exact (List.take_left' (List.length_map _)).symm

/-- A request that ended was put in its place. -/
theorem InOrder.ended (hs : s.InOrder) (hn : Numbered s.log) {k : Nat} {x : Option χ} {e : Ending}
    (hm : .ended k x e ∈ s.log) : ∃ r, (puts s.log)[k]? = some r ∧ r.bare = e.request.bare := by
  have h := congrArg (·[k]?) hs.all
  have hend := hn.endings_getElem? hm
  have hlt : k < (endings s.log).length := hn.ended_lt hm
  simp only [List.getElem?_map] at h
  rw [List.getElem?_append_left (by simpa using hlt), List.getElem?_map, hend] at h
  obtain ⟨r, hr, he⟩ := Option.map_eq_some_iff.1 h
  exact ⟨r, hr, he⟩

/-- The request in flight was put in its place. -/
theorem InOrder.flight (hs : s.InOrder) {r : Request} (hr : s.phase.request? = some r) :
    ∃ r', (puts s.log)[s.number]? = some r' ∧ r'.bare = r.bare := by
  have h := congrArg (·[s.number]?) hs.all
  have hlen : ((endings s.log).map fun e => e.request.bare).length = s.number := List.length_map _
  simp only [List.getElem?_map] at h
  rw [List.getElem?_append_right (by omega), hlen, Nat.sub_self, hr] at h
  obtain ⟨r', hr', he⟩ := Option.map_eq_some_iff.1 h
  exact ⟨r', hr', he⟩

/-- Whatever is done for a request, it was put before. -/
def Begun (s : Sight χ) : Prop :=
  ∀ m ∈ s.log, ∀ k, m.number? = some k → k < (puts s.log).length

theorem begun_change (ho : s'.InOrder) (hs : s.Begun) (h : Change s s') : s'.Begun := by
  obtain ⟨new, last, hlog, hnew, hlast, hturn⟩ := log_change h
  have hgrow : (puts s.log).length ≤ (puts s'.log).length := by
    rw [hlog, puts_append, List.length_append]
    exact Nat.le_add_right _ _
  have hlen := ho.length
  have hle := number_change h
  have hended : last ≠ [] → s.number < (puts s'.log).length := fun hne => by
    rcases hlast with rfl | ⟨x, e, rfl, -⟩
    · exact absurd rfl hne
    · have := number_ended hlog hnew
      omega
  intro m hm k hk
  rw [hlog] at hm
  rcases List.mem_append.1 hm with hm | hm
  · exact Nat.lt_of_lt_of_le (hs m hm k hk) hgrow
  rcases List.mem_append.1 hm with hm | hm
  · rw [(hnew m hm).2 k hk]
    rcases hturn with hnone | hflight | hne
    · rw [hnone m hm] at hk
      cases hk
    · obtain ⟨r, hr⟩ := Option.isSome_iff_exists.1 hflight
      rw [hr] at hlen
      simp at hlen
      omega
    · exact hended hne
  · rcases hlast with rfl | ⟨x, e, rfl, -⟩
    · cases hm
    · cases List.mem_singleton.1 hm
      cases hk
      exact hended (by simp)

theorem begun_reachable {w : Watched χ} (h : w.Reachable) : w.sight.Begun :=
  Watched.reachable_induction (P := Begun) (fun m hm => absurd hm (by simp))
    (fun _ _ hw hs hc => begun_change (inOrder_change (inOrder_reachable hw) hc) hs hc) h

end Sight
end CommandLink
