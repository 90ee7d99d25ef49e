import CommandLink.Proofs.Queue.Books
import CommandLink.Proofs.Queue.Turn
/-!
# Streams at the boundary of a frame

A cached channel stands between two frames, in both directions, and nobody waits on it. A channel on
which anything went wrong is given back at once and not used again, and where the look at a cached
channel finds anything, the request goes over a new one.

Results:
* `silent_change`: what was given back is not used.
* `turn_change`: over which stream the request in flight goes.
* `cached_at_boundary`: all that can be relied on about the streams of a queue.
-/
namespace CommandLink

namespace Sight
variable {χ : Type} [DecidableEq χ] {s s' : Sight χ}

open Log

/-! ## What was given back -/

omit [DecidableEq χ] in
theorem unused_releases {new : List (Mark χ)} (h : Releases new) : ∀ m ∈ new, m.used? = none :=
  fun m hm => by
    obtain ⟨x, r, rfl⟩ := h m hm
    rfl

/-- A stream in good order is used. -/
theorem silent_use {log : List (Mark χ)} (h : Silent log) {x : χ} {last : Option Nat} {got : Bytes}
    (hkept : Kept log x last got) {m : Mark χ} (hm : m.used? = some x) : Silent (log ++ [m]) :=
  silent_snoc h fun y hy => by
    rw [hm] at hy
    cases hy
    exact hkept.unreleased

theorem Reached.silent {r : Request} {since : Nat} {c : Channel χ} {x : χ} {m : Mark χ}
    (h : Reached s r since c x m) (hb : s.Books) (hs : Silent s.log) : Silent (s.log ++ [m]) := by
  cases h with
  | again hp hx => exact silent_use hs (hb.inUse hp rfl rfl hx).2 rfl
  | anew => exact silent_snoc hs fun y hy => by cases hy

theorem Mishap.silent {r : Request} {c : Channel χ} {x : χ} {marks : List (Mark χ)}
    {response : Response} (h : Mishap s r c x marks response) (hb : s.Books) (hs : Silent s.log) :
    Silent (s.log ++ marks) := by
  cases h with
  | tooLarge hr => exact hr.silent hb hs
  | unsent hp hx => exact silent_use hs (hb.inUse hp rfl rfl hx).2 rfl
  | unanswered hp hx => exact silent_use hs (hb.inUse hp rfl rfl hx).2 rfl
  | malformed hp hx => exact silent_use hs (hb.inUse hp rfl rfl hx).2 rfl
  | cancelled => rwa [List.append_nil]

theorem silent_change (hb : s.Books) (hs : Silent s.log) (h : Change s s') : Silent s'.log := by
  have hended : ∀ k (x : Option χ) e, ∀ m ∈ [Mark.ended k x e], m.used? = none := fun k x e m hm => by
    rw [List.mem_singleton.1 hm]
    rfl
  cases h with
  | same => exact hs
  | put => exact silent_unused hs fun m hm => by rw [List.mem_singleton.1 hm]; rfl
  | refused =>
    refine silent_unused hs fun m hm => ?_
    rcases List.mem_cons.1 hm with rfl | hm
    · rfl
    · exact hended _ _ _ m hm
  | began => exact hs
  | dropped => exact silent_unused hs (unused_releases (releases_flatMap _))
  | stopped => exact silent_unused hs (unused_releases (releases_flatMap _))
  | checkedOut => exact hs
  | missing => exact hs
  | @stale r since c x p hp hx =>
    show Silent (s.log ++ ([.probed s.number x p] ++ closing c))
    rw [← List.append_assoc]
    exact silent_unused (silent_use hs (hb.inUse hp rfl rfl hx).2 rfl)
      (unused_releases (releases_closing c))
  | unreachable => exact silent_unused hs (hended _ _ _)
  | reached hr => exact hr.silent hb hs
  | advanced hp hx => exact silent_use hs (hb.inUse hp rfl rfl hx).2 rfl
  | @delivered r since c x o bs a hp hx =>
    show Silent (s.log ++ ([.wrote s.number x bs a] ++ [_]))
    rw [← List.append_assoc]
    exact silent_unused (silent_use hs (hb.inUse hp rfl rfl hx).2 rfl) (hended _ _ _)
  | asked hp hx => exact silent_use hs (hb.inUse hp rfl rfl hx).2 rfl
  | heard hp hx => exact silent_use hs (hb.inUse hp rfl rfl hx).2 rfl
  | @answered r since c x i p payload response hp hx =>
    show Silent (s.log ++ ([.read s.number x p] ++ [_]))
    rw [← List.append_assoc]
    exact silent_unused (silent_use hs (hb.inUse hp rfl rfl hx).2 rfl) (hended _ _ _)
  | @failed r c x marks response hm =>
    show Silent (s.log ++ (marks ++ (closing c ++ [_])))
    rw [← List.append_assoc]
    refine silent_unused (hm.silent hb hs) fun m hm' => ?_
    rcases List.mem_append.1 hm' with hm' | hm'
    · exact unused_releases (releases_closing c) m hm'
    · exact hended _ _ _ m hm'

/-! ## The stream of a turn -/

theorem Reached.turn {r : Request} {since : Nat} {c : Channel χ} {x : χ} {m : Mark χ}
    (h : Reached s r since c x m) (hb : s.Books) (hs : Turn s.log s.number s.phase)
    (o : Frame.Outgoing) : Turn (s.log ++ [m]) s.number (.sending r since c o) := by
  cases h with
  | again hp =>
    rw [hp] at hs
    exact hs.probed _ rfl x (.ok .empty) (fun h => absurd rfl h) rfl rfl
  | anew hp hx fresh =>
    rw [hp] at hs
    refine hs.connected rfl hx r.destination rfl rfl fun j p hm => ?_
    exact (hb.fresh fresh).1 _ hm rfl

/-- Whatever goes wrong, the request in flight was written over one stream. -/
theorem Mishap.turn {r : Request} {c : Channel χ} {x : χ} {marks : List (Mark χ)}
    {response : Response} (h : Mishap s r c x marks response) (hb : s.Books)
    (hs : Turn s.log s.number s.phase) : ∃ phase, Turn (s.log ++ marks) s.number phase := by
  cases h with
  | @tooLarge since m e hr => exact ⟨_, hr.turn hb hs (.ofParts [])⟩
  | unsent hp hx => exact ⟨_, hs.wrote (congrArg QueuePhase.chosen? hp) hx _ _⟩
  | unanswered => exact ⟨_, hs.add _ (by simp) (by simp)⟩
  | malformed => exact ⟨_, hs.add _ (by simp) (by simp)⟩
  | cancelled => exact ⟨_, by rw [List.append_nil]; exact hs⟩

theorem turn_change (hn : Numbered s.log) (hb : s.Books) (hs : Turn s.log s.number s.phase)
    (h : Change s s') : Turn s'.log s'.number s'.phase := by
  cases h with
  | same => exact hs
  | put r hp =>
    exact turn_during (hs.add _ (by simp) (by simp)) rfl (during_singleton rfl (.inl rfl))
  | refused r hp =>
    exact turn_ended [.put r] (hs.add _ (by simp) (by simp)) hn rfl
      (during_singleton rfl (.inl rfl)) (by rw [hp]; rfl)
  | began since hp =>
    rw [hp] at hs
    exact hs.move rfl fun _ => rfl
  | dropped e =>
    exact turn_during (hs.releases (releases_flatMap _)) rfl
      (during_releases _ (releases_flatMap _))
  | stopped hp =>
    rw [hp] at hs
    exact turn_during ((hs.releases (releases_flatMap _)).move rfl fun _ => rfl) rfl
      (during_releases _ (releases_flatMap _))
  | checkedOut hp =>
    rw [hp] at hs
    exact hs.move rfl fun _ => rfl
  | missing hp =>
    rw [hp] at hs
    exact hs.move rfl fun h => by cases h
  | @stale r since c x p hp hx hne =>
    rw [hp] at hs
    have hprobed := hs.probed (.connecting r since) rfl x p (fun _ => rfl) rfl rfl
    have hclosed := hprobed.releases (releases_closing c)
    rw [List.append_assoc] at hclosed
    exact turn_during hclosed rfl
      (during_append (during_singleton rfl (.inr rfl)) (during_releases _ (releases_closing c)))
  | unreachable e hp =>
    exact turn_ended [] (hs.add _ (by simp) (by simp)) hn rfl
      (fun m hm => absurd hm (by simp)) rfl
  | reached hr => exact turn_during (hr.turn hb hs _) rfl hr.during
  | @advanced r since c x o o' bs a hp hx =>
    have hwrote := hs.wrote (congrArg QueuePhase.chosen? hp) hx bs a
    rw [hp] at hwrote
    exact turn_during (hwrote.move rfl fun h => by cases h) rfl (during_singleton rfl (.inr rfl))
  | @delivered r since c x o bs a hp hx =>
    exact turn_ended [.wrote s.number x bs a]
      (hs.wrote (congrArg QueuePhase.chosen? hp) hx _ _) hn rfl (during_singleton rfl (.inr rfl)) rfl
  | @asked r since c x o bs a hp hx =>
    have hwrote := hs.wrote (congrArg QueuePhase.chosen? hp) hx bs a
    rw [hp] at hwrote
    exact turn_during (hwrote.move rfl fun h => by cases h) rfl (during_singleton rfl (.inr rfl))
  | heard hp =>
    rw [hp] at hs
    exact turn_during ((hs.add _ (by simp) (by simp)).move rfl fun h => by cases h) rfl
      (during_singleton rfl (.inr rfl))
  | @answered r since c x i p =>
    exact turn_ended [.read s.number x p] (hs.add _ (by simp) (by simp)) hn rfl
      (during_singleton rfl (.inr rfl)) rfl
  | @failed r c x marks response hm =>
    obtain ⟨phase, hturn⟩ := hm.turn hb hs
    have hclosed := hturn.releases (releases_closing c)
    rw [List.append_assoc] at hclosed
    exact turn_ended (marks ++ closing c) hclosed hn (by rw [List.append_assoc])
      (during_append hm.during (during_releases _ (releases_closing c))) rfl

theorem silent_reachable {w : Watched χ} (h : w.Reachable) : Silent w.log :=
  Watched.reachable_induction (P := fun s => Silent s.log) (fun front m back he => by simp at he)
    (fun _ _ hw hs hc => silent_change (books_reachable hw) hs hc) h

theorem turn_reachable {w : Watched χ} (h : w.Reachable) :
    Turn w.log w.sight.number w.queue.phase :=
  Watched.reachable_induction (P := fun s => Turn s.log s.number s.phase) (turn_nil _)
    (fun _ _ hw hs hc => turn_change (numbered_reachable hw) (books_reachable hw) hs hc) h

/-! ## What was spoilt -/

/-- What is held was not given back. -/
theorem Books.held (hb : s.Books) {x : χ} (h : s.Held x) : ∃ last got, Kept s.log x last got := by
  rcases h with ⟨p, hp, hx⟩ | ⟨c, hc, hx⟩
  · obtain ⟨y, hy, hkept⟩ := hb.cached p hp
    rw [hx] at hy
    cases hy
    exact ⟨_, _, hkept⟩
  · obtain ⟨y, hy, hkept⟩ := hb.current c hc
    rw [hx] at hy
    cases hy
    exact ⟨_, _, hkept⟩

/-- A stream that is spoilt was given back. -/
theorem Books.spoils (hb : s.Books) {m : Mark χ} {x : χ} (hm : m ∈ s.log) (h : m.Spoils x) :
    Gone s.log x ∧ ¬ s.Held x := by
  have hnot : ¬ s.Held x := fun hheld => by
    obtain ⟨last, got, hkept⟩ := hb.held hheld
    exact hkept.clean m hm h
  obtain ⟨k, e, hc⟩ := hb.introduced m hm x (Mark.spoils_about h)
  exact ⟨(hb.known k e x hc).resolve_left hnot, hnot⟩

end Sight

/-- Something went wrong on a stream. -/
inductive Log.Spoiled {χ : Type} (x : χ) (log : List (Mark χ)) : Prop
  | sendFailed {k : Nat} {bs : Bytes} {a : Frame.Acceptance} (hm : .wrote k x bs a ∈ log)
      (ha : a.goesOn = false)
  | readFailed {k : Nat} {p : Except IoError Frame.ReadStatus} (hm : .read k x p ∈ log)
      (hp : Frame.goesOn p = false)
  | partlyWritten {k : Nat} {e : Ending} (hm : .ended k (some x) e ∈ log)
      (hw : writtenBy k log ≠ Frame.ofPayload e.request.encode)
  /-- No response came in, or a part of one. -/
  | partlyRead {k : Nat} {e : Ending} (hm : .ended k (some x) e ∈ log)
      (hmode : e.request.mode = .response)
      (hr : ∀ p, p.length ≤ Frame.maxSize → readBy k log ≠ Frame.ofPayload p)
  | malformed {k : Nat} {e : Ending} {p : Bytes} {cause : LinkError}
      (hm : .ended k (some x) e ∈ log) (hl : p.length ≤ Frame.maxSize)
      (hr : readBy k log = Frame.ofPayload p) (hd : Response.decode p = .error cause)
  | cancelled {k : Nat} {r : Request}
      (hm : .ended k (some x) (.failed r RequestQueue.closedInFlight) ∈ log)
  | stale {k : Nat} {p : Except IoError Frame.ReadStatus} (hm : .probed k x p ∈ log)
      (hp : p ≠ .ok .empty)

namespace Sight
variable {χ : Type} {s : Sight χ}

open Log

theorem Outcomes.spoiled (hs : s.Outcomes) {x : χ} (h : Spoiled x s.log) :
    ∃ m ∈ s.log, m.Spoils x := by
  cases h with
  | sendFailed hm ha => exact ⟨_, hm, rfl, ha⟩
  | readFailed hm hp => exact ⟨_, hm, rfl, hp⟩
  | partlyWritten hm hw =>
    exact ⟨_, hm, rfl, fun he => hw ((hs _ _ _ hm).written_completed he)⟩
  | partlyRead hm hmode hr =>
    refine ⟨_, hm, rfl, fun he => ?_⟩
    rcases (hs _ _ _ hm).read_completed he with ⟨hno, -⟩ | ⟨p, response, hl, hread, -⟩
    · cases hmode.symm.trans hno
    · exact hr p hl hread
  | malformed hm hl hr hd =>
    refine ⟨_, hm, rfl, fun he => ?_⟩
    rcases (hs _ _ _ hm).read_completed he with ⟨-, hread⟩ | ⟨p, response, hl', hread, hok⟩
    · exact Frame.ofPayload_ne_nil _ (hr.symm.trans hread)
    · rw [decode_of_read hl' hread hl hr, hok] at hd
      cases hd
  | cancelled hm => exact ⟨_, hm, rfl, fun he => by cases he⟩
  | stale hm hp => exact ⟨_, hm, rfl, hp⟩

end Sight

namespace Watched
variable {χ : Type} [DecidableEq χ] {w : Watched χ}

open Log

omit [DecidableEq χ] in
theorem channel?_sight (w : Watched χ) : w.sight.phase.channel? = w.queue.inUse := by
  simp only [sight, RequestQueue.inUse]
  cases w.queue.phase <;> rfl

omit [DecidableEq χ] in
/-- The channel over which the request in flight is written is in use. -/
theorem inUse_of_chosen? {c : Channel χ} (h : w.queue.phase.chosen? = some c) :
    w.queue.inUse = some c := by
  unfold RequestQueue.inUse
  cases hp : w.queue.phase with
  | sending r since d o => rwa [hp] at h
  | awaiting r since d i => rwa [hp] at h
  | _ =>
    rw [hp] at h
    cases h

/-- A cached channel is open, both ways there went whole frames over it, every request that was
written over it has ended, and nobody uses it. A stream on which something went wrong is given back,
neither cached nor in use; and what was given back is never used again. Where the look at a cached
channel finds anything, the request is written over none but a channel that was connected for it. -/
theorem cached_at_boundary (h : w.Reachable) :
    (∀ p ∈ w.queue.cache, p.2.isOpen ∧ ∃ x, p.2.stream = some x
      ∧ Frame.Whole ((writtenTo x w.log).map Prod.snd) ∧ Frame.Whole (consumedFrom x w.log)
      ∧ (∀ k bs a, .wrote k x bs a ∈ w.log → ∃ via e, .ended k via e ∈ w.log)
      ∧ (∀ c, w.queue.inUse = some c → c.stream ≠ some x) ∧ ∀ r, .released x r ∉ w.log)
    ∧ (∀ x, Spoiled x w.log → .released x .shutDown ∈ w.log ∧ .released x .stream ∈ w.log
      ∧ (∀ p ∈ w.queue.cache, p.2.stream ≠ some x)
      ∧ ∀ c, w.queue.inUse = some c → c.stream ≠ some x)
    ∧ (∀ front m back x r, w.log = front ++ m :: back → .released x r ∈ front → m.used? ≠ some x)
    ∧ ∀ k x s y bs a, .probed k x s ∈ w.log → s ≠ .ok .empty → .wrote k y bs a ∈ w.log →
        y ≠ x ∧ ∃ e, .connected k e y ∈ w.log := by
  have hnumbered := Sight.numbered_reachable h
  have hbooks := Sight.books_reachable h
  have hturn := Sight.turn_reachable h
  refine ⟨fun p hp => ?_, fun x hx => ?_, fun front m back x r he hr hm => ?_,
    fun k x s y bs a hs hne hy => hturn.anew k x s hs hne y bs a hy⟩
  · obtain ⟨x, hx, hkept⟩ := hbooks.cached p hp
    have hinUse : ∀ c, w.queue.inUse = some c → c.stream ≠ some x := fun c hc he => by
      rw [← channel?_sight] at hc
      exact hbooks.aside c hc p hp (hx.trans he.symm)
    refine ⟨(poised_reachable h).cache p hp, x, hx, hkept.account.whole,
      hkept.account.whole_consumed, fun k bs a hm => ?_, hinUse, hkept.unreleased⟩
    have hle := hnumbered.le hm rfl
    rcases Nat.lt_or_eq_of_le hle with hlt | rfl
    · exact hnumbered.exists_ended hlt
    · -- the request in flight goes over another stream
      obtain ⟨c, hc, hcx⟩ := hturn.writes x bs a hm
      exact absurd hcx (hinUse c (inUse_of_chosen? hc))
  · obtain ⟨m, hm, hspoils⟩ := (Sight.outcomes_reachable h).spoiled hx
    obtain ⟨hgone, hnot⟩ := hbooks.spoils hm hspoils
    refine ⟨hgone.shutDown, hgone.released, fun p hp he => hnot (.inl ⟨p, hp, he⟩),
      fun c hc he => hnot (.inr ⟨c, ?_, he⟩)⟩
    rwa [channel?_sight]
  · exact Sight.silent_reachable h front m back he x hm r hr

/-- A request that waits for no response. -/
def nudge : Request := { Request.start .agent "Echo" "nudge" with mode := .noResponse }

/-- The frame of it, nothing of it written yet. -/
def nudgeFrame : Frame.Outgoing := .ofParts [Bytes.big32 nudge.encode.length, nudge.encode]

/-- A queue in a phase of that request, or behind it. -/
def nudging (phase : QueuePhase Nat) (cache : List (EndpointName × Channel Nat))
    (log : List (Mark Nat)) : Watched Nat :=
  ⟨⟨phase, [], [], false, 0, cache⟩, log⟩

/-- What is noted when it is sent over a stream. -/
def nudged (k x : Nat) : List (Mark Nat) :=
  [.wrote k x (Bytes.big32 nudge.encode.length) (.took 4),
    .wrote k x nudge.encode (.took nudge.encode.length),
    .ended k (some x) (.completed { nudge with progress := .inFlight } none)]

/-- A cached channel is found to be closed by the peer, and a request goes over a new one. -/
theorem cached_at_boundary_stale :
    ∃ w : Watched Nat, w.Reachable ∧ w.queue.cache = [(.agent, .opened "c" 1)]
      ∧ Frame.Whole ((writtenTo 1 w.log).map Prod.snd) ∧ .released 0 .stream ∈ w.log := by
  have hasked : Reachable (nudging (.connecting { nudge with progress := .inFlight } 0) []
      [.put nudge]) := ((Reachable.start.put nudge).event .turn trivial).event .turn trivial
  have hsending : Reachable (nudging
      (.sending { nudge with progress := .inFlight } 0 (.opened "c" 0) nudgeFrame) []
      [.put nudge, .connected 0 .agent 0]) :=
    hasked.event (.connected (.ok (.opened "c" 0))) ⟨0, rfl, by simp [nudging]⟩
  have hhalf := hsending.event (.wrote (.took 4)) (fun bs h => by cases h; decide)
  have hsent : Reachable (nudging .idle [(.agent, .opened "c" 0)]
      ([.put nudge, .connected 0 .agent 0] ++ nudged 0 0)) :=
    hhalf.event (.wrote (.took nudge.encode.length)) (fun bs h => by cases h; exact Nat.le_refl _)
  have hstale : Reachable (nudging (.connecting { nudge with progress := .inFlight } 0) []
      ([.put nudge, .connected 0 .agent 0] ++ nudged 0 0 ++ [.put nudge, .probed 1 0 (.ok .eof),
        .released 0 .shutDown, .released 0 .stream])) :=
    (((hsent.put nudge).event .turn trivial).event .turn trivial).event (.probed (.ok .eof)) trivial
  have hanew : Reachable (nudging
      (.sending { nudge with progress := .inFlight } 0 (.opened "c" 1) nudgeFrame) []
      ([.put nudge, .connected 0 .agent 0] ++ nudged 0 0 ++ [.put nudge, .probed 1 0 (.ok .eof),
        .released 0 .shutDown, .released 0 .stream, .connected 1 .agent 1])) :=
    hstale.event (.connected (.ok (.opened "c" 1))) ⟨1, rfl, by simp [nudging, nudged]⟩
  have hhalf' := hanew.event (.wrote (.took 4)) (fun bs h => by cases h; decide)
  have hdone := hhalf'.event (.wrote (.took nudge.encode.length))
    (fun bs h => by cases h; exact Nat.le_refl _)
  obtain ⟨hcached, hspoiled, -⟩ := cached_at_boundary hdone
  obtain ⟨-, x, hx, hwhole, -⟩ := hcached (.agent, .opened "c" 1) List.mem_cons_self
  cases hx
  refine ⟨_, hdone, rfl, hwhole, (hspoiled 0 ?_).2.1⟩
  exact .stale (k := 1) (p := .ok .eof) (by simp [event, nudging]) (by simp)

end Watched
end CommandLink
