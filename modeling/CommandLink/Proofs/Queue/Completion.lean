import CommandLink.Proofs.Queue.Outcome
/-!
# How requests end

Every request that is put ends exactly once, in its turn, and its listeners are told then.

Results:
* `each_ends_once_in_order`: all that callers and listeners can rely on.
-/
namespace CommandLink

namespace Watched
variable {χ : Type} {w : Watched χ}

open Log

theorem isStopped_iff {q : RequestQueue χ} : q.isStopped = true ↔ q.phase = .stopped := by
  unfold RequestQueue.isStopped
  cases q.phase <;> simp

/-- The requests that ended are the first that were put, in their order, and every one was once the
queue has stopped; the listeners that were told are theirs, each told once, in its order, of that
ending. No byte of a request is written before those in front of it have ended, and how a request
ended tells what was written and read for it. -/
theorem each_ends_once_in_order (h : w.Reachable) :
    (endings w.log).map (fun e => e.request.bare)
        = ((puts w.log).take (number w.log)).map Request.bare
    ∧ (w.queue.isStopped → number w.log = (puts w.log).length)
    ∧ (notices w.log).map Notice.listener
        = ((puts w.log).take (number w.log)).flatMap Request.listeners
    ∧ (∀ n ∈ notices w.log, ∃ k x e, .ended k x e ∈ w.log ∧ n.listener ∈ e.request.listeners
        ∧ n.request = e.request ∧ n.response = e.response)
    ∧ (∀ front k x bs a back, w.log = front ++ .wrote k x bs a :: back →
        number front = k ∧ ∃ r, (puts w.log)[k]? = some r
          ∧ writtenBy k w.log <+: Frame.ofPayload r.encode)
    ∧ ∀ k x e, .ended k x e ∈ w.log →
        (∃ r, (puts w.log)[k]? = some r ∧ r.bare = e.request.bare)
          ∧ e.Tells (writtenBy k w.log) (readBy k w.log) := by
  have horder := Sight.inOrder_reachable h
  have hnumbered := Sight.numbered_reachable h
  have hflight := Sight.inFlight_reachable h
  have houtcomes := Sight.outcomes_reachable h
  have htake : (endings w.log).map (fun e => e.request.bare)
      = ((puts w.log).take (number w.log)).map Request.bare := horder.take
  refine ⟨htake, fun hs => ?_, ?_, fun n hn => ?_, fun front k x bs a back he => ?_,
    fun k x e hm => ⟨horder.ended hnumbered hm, (houtcomes k x e hm).tells⟩⟩
  · have hp : w.sight.phase = .stopped := isStopped_iff.1 hs
    have hlen := horder.length
    rw [hp, horder.stopped hp] at hlen
    exact hlen.symm
  · have hlisteners : ∀ rs : List Request,
        rs.flatMap Request.listeners = (rs.map Request.bare).flatMap Request.listeners := fun rs => by
      rw [List.flatMap_map]
      rfl
    rw [hlisteners, ← htake, notices, List.map_flatMap, List.flatMap_map]
    simp only [Ending.map_listener_notices]
    rfl
  · obtain ⟨e, he, hn⟩ := List.mem_flatMap.1 hn
    obtain ⟨k, x, hm⟩ := mem_endings he
    exact ⟨k, x, e, hm, Ending.mem_notices.1 hn⟩
  · have hm : .wrote k x bs a ∈ w.log := by rw [he]; simp
    have hk : k < (puts w.log).length := Sight.begun_reachable h _ hm k rfl
    exact ⟨hnumbered front _ back he k rfl, _, List.getElem?_eq_getElem hk,
      Sight.writtenBy_begins hnumbered horder hflight houtcomes (List.getElem?_eq_getElem hk)⟩

/-- A request that waits for a response, with a listener that breaks down. -/
def ping : Request := (Request.start .agent "Echo" "ping").addListener ⟨"a", true⟩

/-- The frame of it, nothing of it written yet. -/
def pingFrame : Frame.Outgoing := .ofParts [Bytes.big32 ping.encode.length, ping.encode]

/-- A request fails while it is being written; then the queue stops. -/
theorem each_ends_once_in_order_broken :
    ∃ w : Watched Nat, w.Reachable ∧ w.queue.isStopped ∧ number w.log = (puts w.log).length
      ∧ (notices w.log).map Notice.listener = [⟨"a", true⟩] := by
  have hasked : Reachable (χ := Nat)
      ⟨⟨.connecting { ping with progress := .inFlight } 0, [], [], false, 0, []⟩, [.put ping]⟩ :=
    ((Reachable.start.put ping).event .turn trivial).event .turn trivial
  have hsending : Reachable (χ := Nat)
      ⟨⟨.sending { ping with progress := .inFlight } 0 (.opened "c" 0) pingFrame, [], [], false, 0,
        []⟩, [.put ping, .connected 0 .agent 0]⟩ :=
    hasked.event (.connected (.ok (.opened "c" 0))) ⟨0, rfl, by simp⟩
  have hfailed := hsending.event (.wrote (.failed ⟨.brokenPipe, "gone"⟩)) trivial
  have hstopped := hfailed.shutdown.event .turn trivial
  obtain ⟨-, hall, hlisteners, -⟩ := each_ends_once_in_order hstopped
  have h := hall rfl
  refine ⟨_, hstopped, rfl, h, ?_⟩
  rw [hlisteners, h]
  rfl

end Watched
end CommandLink
