import CommandLink.Proofs.Closing.Unaided
import CommandLink.Proofs.Queue.Holdings
/-!
# A queue that does one thing at a time

Closing a channel can take a while, and a queue waits for it before it goes on. Callers go on
meanwhile, and so does the response that a request in flight is waiting for: if it comes in while the
channel of another endpoint is being closed, that closing is broken off. The channel is out of the
cache by then, and its parts go without the peer being told.

Results:
* `image`: a queue at any moment is one that does everything at once, but for the order in which it
  gives streams back and for what peers are told.
-/
namespace CommandLink

/-- A queue under observation, with what it has set about and not yet done, in order. -/
structure Paced (χ : Type) where
  queue : RequestQueue χ
  due : List (Mark χ)
  log : List (Mark χ)

namespace QueuePhase
variable {χ : Type}

/-- Whether a response is awaited. -/
def awaits : QueuePhase χ → Bool
  | awaiting _ _ _ _ => true
  | _ => false

end QueuePhase

namespace Paced
variable {χ : Type}

/-- What is still done of a closing that is broken off. -/
def brokenOff (due : List (Mark χ)) : List (Mark χ) :=
  due.filter fun
    | .released _ .shutDown => false
    | _ => true

def start : Paced χ := ⟨.start, [], []⟩

/-- The queue with what has been noted so far. -/
def watched (w : Paced χ) : Watched χ := ⟨w.queue, w.log⟩

/-- A caller puts a request. A queue that has stopped refuses it at once. -/
def put (w : Paced χ) (r : Request) : Paced χ :=
  { w with
    queue := (w.queue.put r).1
    log := (w.watched.put r).log }

/-- Something happens that the queue waits for, or it takes its turn. What it then does is due. Once
no response is awaited any more, a closing that went on beside is broken off. -/
def event (w : Paced χ) (e : QueueEvent χ) : Paced χ :=
  let next := w.queue.step e
  { queue := next.1
    due := (if next.1.phase.awaits then w.due else brokenOff w.due)
      ++ next.2.map (Watched.marked (Log.number w.log) (Watched.via? w.queue e))
    log := w.log ++ Watched.shown (Log.number w.log) w.queue e }

/-- What can happen to a queue: it goes on only once nothing is due, but a response can come in
whenever one is awaited. The close call is the one that is consumed. -/
inductive Move (w : Paced χ) : Option CloseCall → Paced χ → Prop
  | put (r : Request) : Move w none (w.put r)
  | takeNumber : Move w none { w with queue := w.queue.takeNumber.2 }
  | deliver (c : CloseCall) (taken : c.number ≤ w.queue.taken) :
    Move w none { w with queue := w.queue.deliver c }
  | shutdown : Move w none { w with queue := w.queue.shutdown }
  | turn (done : w.due = []) : Move w w.queue.consumes? (w.event .turn)
  | came (e : QueueEvent χ) (he : e ≠ .turn) (fits : w.watched.Fits e)
      (done : w.due = [] ∨ ∃ s, e = .read s) : Move w none (w.event e)
  | perform {m : Mark χ} {rest : List (Mark χ)} (h : w.due = m :: rest) :
    Move w none { w with due := rest, log := w.log ++ [m] }

/-- A queue after any calls and any behaviour of its streams, be it in the middle of something. -/
inductive Reachable : Paced χ → Prop
  | start : Reachable start
  | move {w w' : Paced χ} {c : Option CloseCall} (before : Reachable w) (move : Move w c w') :
    Reachable w'

/-! ## What is noted all the same -/

section Alike

variable {a b l : List (Mark χ)}

@[simp] theorem brokenOff_append (a b : List (Mark χ)) :
    brokenOff (a ++ b) = brokenOff a ++ brokenOff b :=
  List.filter_append ..

theorem brokenOff_brokenOff (l : List (Mark χ)) : brokenOff (brokenOff l) = brokenOff l := by
  simp [brokenOff]

/-- The same is noted, in another order maybe, and but for what peers are told. -/
def Alike (a b : List (Mark χ)) : Prop := (brokenOff a).Perm (brokenOff b)

theorem Alike.append (h : Alike a b) (l : List (Mark χ)) : Alike (a ++ l) (b ++ l) := by
  rw [Alike, brokenOff_append, brokenOff_append]
  exact h.append_right _

theorem Alike.trans {c : List (Mark χ)} (h : Alike a b) (h' : Alike b c) : Alike a c :=
  List.Perm.trans h h'

theorem mem_brokenOff {m : Mark χ} (hm : ∀ x, m ≠ .released x .shutDown) :
    m ∈ brokenOff l ↔ m ∈ l := by
  rw [brokenOff, List.mem_filter, and_iff_left]
  split
  · next x => exact absurd rfl (hm x)
  · rfl

theorem Alike.mem (h : Alike a b) {m : Mark χ} (hm : ∀ x, m ≠ .released x .shutDown) :
    m ∈ a ↔ m ∈ b := by
  rw [← mem_brokenOff hm, List.Perm.mem_iff h, mem_brokenOff hm]

/-- What does not see how peers are told sees the same. -/
theorem filterMap_brokenOff {β : Type} {f : Mark χ → Option β}
    (hf : ∀ x, f (.released x .shutDown) = none) (l : List (Mark χ)) :
    (brokenOff l).filterMap f = l.filterMap f := by
  rw [brokenOff, List.filterMap_filter]
  refine List.filterMap_congr fun m _ => ?_
  split
  · rw [if_neg Bool.false_ne_true, hf]
  · exact if_pos rfl

theorem Alike.filterMap (h : Alike a b) {β : Type} {f : Mark χ → Option β}
    (hf : ∀ x, f (.released x .shutDown) = none) : (a.filterMap f).Perm (b.filterMap f) := by
  rw [← filterMap_brokenOff hf a, ← filterMap_brokenOff hf b]
  exact List.Perm.filterMap f h

theorem Alike.returned (h : Alike a b) : (Log.returned a).Perm (Log.returned b) :=
  h.filterMap fun _ => rfl

theorem Alike.number (h : Alike a b) : Log.number a = Log.number b :=
  (h.filterMap fun _ => rfl).length_eq

end Alike

/-! ## At once or one after another -/

/-- A request ends with what is done last before the queue is idle again. -/
def Concludes (next : RequestQueue χ × List (QueueAct χ)) : Prop :=
  ∀ e, .ended e ∈ next.2 → next.1.phase = .idle

section Concludes
open RequestQueue

variable (q : RequestQueue χ)

theorem concludes_nil {q : RequestQueue χ} : Concludes (q, []) := fun e he => by cases he

theorem concludes_endWith (acts : List (QueueAct χ)) (e : Ending) : Concludes (q.endWith acts e) :=
  fun _ _ => rfl

theorem concludes_closeCached (e : EndpointName) : Concludes (q.closeCached e) := fun e' he =>
  absurd he (not_ended_flatMap_closing _ e')

theorem concludes_sendOver (r : Request) (since : Nat) (c : Channel χ) :
    Concludes (q.sendOver r since c) := by
  unfold sendOver
  split
  · exact concludes_nil
  · exact concludes_endWith q _ _

theorem concludes_sent (r : Request) (since : Nat) (c : Channel χ) :
    Concludes (q.sent r since c) := by
  unfold sent
  split
  · exact concludes_endWith _ _ _
  · exact concludes_nil

theorem concludes_received (r : Request) (c : Channel χ)
    (outcome : Except LinkError (Option Bytes)) : Concludes (q.received r c outcome) := by
  unfold received
  split
  · split
    · exact concludes_endWith _ _ _
    · exact concludes_endWith _ _ _
  · exact concludes_endWith _ _ _
  · exact concludes_endWith _ _ _

theorem concludes_turn : Concludes q.turn := by
  unfold turn
  split
  · split
    · exact concludes_nil
    · split
      · exact fun e he => absurd he (not_ended_flatMap_closing _ e)
      · split
        · exact concludes_closeCached _ _
        · exact concludes_nil
  · split
    · exact concludes_closeCached _ _
    · split
      · exact concludes_nil
      · exact concludes_nil
  · split
    · simp only
      split
      · split
        · exact concludes_endWith _ _ _
        · exact concludes_nil
      · exact concludes_closeCached _ _
    · exact concludes_nil
  · exact concludes_nil

theorem concludes_step (e : QueueEvent χ) : Concludes (q.step e) := by
  unfold step
  split
  · exact concludes_turn q
  · exact concludes_sendOver q _ _ _
  · exact fun e he => absurd he (not_ended_closing _ e)
  · exact concludes_sendOver q _ _ _
  · exact concludes_endWith q _ _
  · split
    · exact concludes_endWith q _ _
    · split
      · exact concludes_nil
      · exact concludes_sent q _ _ _
  · split
    · exact concludes_nil
    · exact concludes_received q _ _ _
  · exact concludes_nil

end Concludes

variable {w w' : Paced χ}

/-- What is due while a request is in flight, or once the queue has stopped, is to give streams
back. -/
def Releasing (w : Paced χ) : Prop := w.queue.phase ≠ .idle → Log.Releases w.due

theorem releases_brokenOff {due : List (Mark χ)} (h : Log.Releases due) :
    Log.Releases (brokenOff due) :=
  fun m hm => h m (List.mem_filter.1 hm).1

theorem releases_event (hw : w.due = [] ∨ Log.Releases w.due) (e : QueueEvent χ) :
    Releasing (w.event e) := by
  intro hp m hm
  rcases List.mem_append.1 hm with hm | hm
  · have hdue : Log.Releases w.due := by
      rcases hw with hw | hw
      · rw [hw]
        exact fun m hm => by cases hm
      · exact hw
    split at hm
    · exact hdue m hm
    · exact releases_brokenOff hdue m hm
  · obtain ⟨a, ha, rfl⟩ := List.mem_map.1 hm
    cases a with
    | release x r => exact ⟨x, r, rfl⟩
    | ended e' => exact absurd (concludes_step w.queue e e' ha) hp

/-- A queue that does everything at once, and has come just as far. -/
structure Image (w : Paced χ) (v : Watched χ) : Prop where
  reachable : v.Reachable
  queue : v.queue = w.queue
  log : Alike v.log (w.log ++ w.due)

theorem Image.number {v : Watched χ} (h : Image w v) (hdue : Log.Releases w.due) :
    Log.number v.log = Log.number w.log := by
  rw [h.log.number, Log.number_append, Log.number_during (Log.during_releases 0 hdue), Nat.add_zero]

theorem Image.event {v : Watched χ} (h : Image w v) {e : QueueEvent χ} (hdue : Log.Releases w.due)
    (fits : v.Fits e) : Image (w.event e) (v.event e) := by
  refine ⟨h.reachable.event e fits, by rw [Watched.event, Paced.event, h.queue], ?_⟩
  have hlog := h.log
  rw [Alike, brokenOff_append] at hlog
  have hdone : brokenOff (if (w.queue.step e).1.phase.awaits then w.due else brokenOff w.due)
      = brokenOff w.due := by
    split
    · rfl
    · exact brokenOff_brokenOff _
  simp only [Alike, Watched.event, Paced.event, h.queue, h.number hdue, brokenOff_append, hdone]
  -- what was due is noted behind what has come in
  rw [← List.append_assoc]
  refine List.Perm.append_right _ ?_
  refine (hlog.append_right _).trans ?_
  rw [List.append_assoc, List.append_assoc]
  exact List.perm_append_comm.append_left _

theorem releases_nil : Log.Releases ([] : List (Mark χ)) := fun m hm => by cases hm

/-- Nothing but releases is due when something comes in. -/
theorem Releasing.came (h : Releasing w) {e : QueueEvent χ} (fits : w.watched.Fits e)
    (done : w.due = [] ∨ ∃ s, e = .read s) : Log.Releases w.due := by
  rcases done with done | ⟨s, rfl⟩
  · rw [done]
    exact releases_nil
  · refine h fun hp => ?_
    simp [Watched.Fits, watched, hp] at fits

/-- A stream that is new is new as well where everything is done at once. -/
theorem Image.fits {v : Watched χ} (h : Image w v) (hdue : Log.Releases w.due) {e : QueueEvent χ}
    (fits : w.watched.Fits e) : v.Fits e := by
  have hfresh {k : Nat} {e : EndpointName} {x : χ} (hm : .connected k e x ∈ v.log) :
      .connected k e x ∈ w.log := by
    refine (List.mem_append.1 ((h.log.mem (by simp)).1 hm)).resolve_right fun hd => ?_
    obtain ⟨y, r, he⟩ := hdue _ hd
    cases he
  revert fits
  simp only [Watched.Fits, watched, h.queue]
  split
  · exact id
  · exact id
  · rintro ⟨x, hx, hnew⟩
    exact ⟨x, hx, fun k e hm => hnew k e (hfresh hm)⟩
  all_goals exact id

theorem Image.put {v : Watched χ} (h : Image w v) (hw : Releasing w) (r : Request) :
    Image (w.put r) (v.put r) := by
  refine ⟨h.reachable.put r, by rw [Watched.put, Paced.put, h.queue], ?_⟩
  have hnumber : (v.queue.put r).2.map (Watched.marked (Log.number v.log) none)
      = (w.queue.put r).2.map (Watched.marked (Log.number w.log) none) := by
    rw [h.queue, RequestQueue.put]
    split
    · next hstopped => rw [h.number (hw fun hp => by simp [RequestQueue.isStopped, hp] at hstopped)]
    · rfl
  have hlog := h.log
  rw [Alike, brokenOff_append] at hlog
  simp only [Alike, Watched.put, Paced.put, watched, hnumber, brokenOff_append]
  refine (hlog.append_right _).trans ?_
  rw [List.append_assoc, List.append_assoc]
  exact List.perm_append_comm.append_left _

theorem phase_put (q : RequestQueue χ) (r : Request) : (q.put r).1.phase = q.phase := by
  unfold RequestQueue.put
  split <;> rfl

theorem phase_deliver (q : RequestQueue χ) (c : CloseCall) : (q.deliver c).phase = q.phase := by
  unfold RequestQueue.deliver
  split <;> rfl

theorem image (h : Reachable w) : Releasing w ∧ ∃ v, Image w v := by
  induction h with
  | start => exact ⟨fun _ => releases_nil, _, .start, rfl, .refl _⟩
  | @move w w' c before move ih =>
    obtain ⟨hreleasing, v, hv⟩ := ih
    cases move with
    | put r => exact ⟨fun hp => hreleasing (phase_put w.queue r ▸ hp), _, hv.put hreleasing r⟩
    | takeNumber =>
      exact ⟨hreleasing, _, hv.reachable.takeNumber, by rw [hv.queue], hv.log⟩
    | deliver c taken =>
      exact ⟨fun hp => hreleasing (phase_deliver w.queue c ▸ hp), _,
        hv.reachable.deliver c (by rwa [hv.queue]), by rw [hv.queue], hv.log⟩
    | shutdown => exact ⟨hreleasing, _, hv.reachable.shutdown, by rw [hv.queue], hv.log⟩
    | turn done =>
      have hdue : Log.Releases w.due := done ▸ releases_nil
      exact ⟨releases_event (.inl done) _, _, hv.event hdue v.fits_turn⟩
    | came e he fits done =>
      have hdue := hreleasing.came fits done
      exact ⟨releases_event (.inr hdue) e, _, hv.event hdue (hv.fits hdue fits)⟩
    | @perform m rest hdue =>
      refine ⟨fun hp m' hm => hreleasing hp m' (hdue ▸ List.mem_cons_of_mem m hm), v, hv.reachable,
        hv.queue, ?_⟩
      have hlog := hv.log
      rwa [hdue, List.append_cons] at hlog

end Paced
end CommandLink
