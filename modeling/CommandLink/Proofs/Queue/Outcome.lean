import CommandLink.Proofs.Queue.Order
/-!
# What becomes of a request

How a request ends follows from the bytes that were written and read for it, whatever the streams
did.

Results:
* `Outcome.tells`: an ending tells what was written and read.
* `inFlight_change`: what was written and read for the request in flight.
* `outcomes_change`: what was written and read for those that ended.
* `writtenBy_begins`: what was written for any request is a beginning of its frame.
-/
namespace CommandLink

/-- What was written and read for the request that is in a phase. -/
def QueuePhase.Flight {χ : Type} (written read : Bytes) : QueuePhase χ → Prop
  | sending r _ _ o => r.encode.length ≤ Frame.maxSize ∧ o.left ≠ []
      ∧ written ++ o.left = Frame.ofPayload r.encode ∧ read = []
  | awaiting r _ _ i => r.encode.length ≤ Frame.maxSize ∧ r.mode = .response
      ∧ written = Frame.ofPayload r.encode ∧ read = i.taken
  | idle | draining _ _ | probing _ _ _ | connecting _ _ | stopped => written = [] ∧ read = []

/-- How a request ends for which these bytes were written and read. -/
inductive Outcome (written read : Bytes) : Ending → Prop
  | delivered {r : Request} (hm : r.mode = .noResponse)
      (hw : written = Frame.ofPayload r.encode) (hr : read = []) :
      Outcome written read (.completed r none)
  | answered {r : Request} {payload : Bytes} {response : Response} (hm : r.mode = .response)
      (hw : written = Frame.ofPayload r.encode) (hl : payload.length ≤ Frame.maxSize)
      (hr : read = Frame.ofPayload payload) (hd : Response.decode payload = .ok response) :
      Outcome written read (.completed r (some response))
  | malformed {r : Request} {payload : Bytes} {e : LinkError} (hm : r.mode = .response)
      (hw : written = Frame.ofPayload r.encode) (hl : payload.length ≤ Frame.maxSize)
      (hr : read = Frame.ofPayload payload) (hd : Response.decode payload = .error e) :
      Outcome written read (.failed r (.error ("malformed response: " ++ e.message)))
  | broken {r : Request} {text : String} (hw : written <+: Frame.ofPayload r.encode)
      (hm : r.mode = .noResponse → written ≠ Frame.ofPayload r.encode)
      (hr : ∀ p, p.length ≤ Frame.maxSize → read ≠ Frame.ofPayload p) :
      Outcome written read (.failed r (.exception text))

/-- A request for which nothing was written ends as failed. -/
theorem Outcome.unheard (r : Request) (text : String) :
    Outcome [] [] (.failed r (.exception text)) :=
  .broken List.nil_prefix (fun _ h => Frame.ofPayload_ne_nil _ h.symm)
    fun p _ h => Frame.ofPayload_ne_nil p h.symm

theorem Outcome.written_begins {written read : Bytes} {e : Ending} (h : Outcome written read e) :
    written <+: Frame.ofPayload e.request.encode := by
  cases h with
  | delivered _ hw => exact hw ▸ List.prefix_refl _
  | answered _ hw => exact hw ▸ List.prefix_refl _
  | malformed _ hw => exact hw ▸ List.prefix_refl _
  | broken hw => exact hw

/-- A request that is completed was written as a whole. -/
theorem Outcome.written_completed {written read : Bytes} {e : Ending}
    (h : Outcome written read e) (he : e.request.progress = .completed) :
    written = Frame.ofPayload e.request.encode := by
  cases h with
  | delivered _ hw => exact hw
  | answered _ hw => exact hw
  | malformed => cases he
  | broken => cases he

/-- What was read for a request that is completed is one response, if it waited for one. -/
theorem Outcome.read_completed {written read : Bytes} {e : Ending}
    (h : Outcome written read e) (he : e.request.progress = .completed) :
    (e.request.mode = .noResponse ∧ read = []) ∨ ∃ p response, p.length ≤ Frame.maxSize
      ∧ read = Frame.ofPayload p ∧ Response.decode p = .ok response := by
  cases h with
  | delivered hm _ hr => exact .inl ⟨hm, hr⟩
  | answered _ _ hl hr hd => exact .inr ⟨_, _, hl, hr, hd⟩
  | malformed => cases he
  | broken => cases he

/-- An ending tells what was written and read for its request. -/
structure Ending.Tells (written read : Bytes) (e : Ending) : Prop where
  delivered : e.request.progress = .completed ∧ e.response = none ↔
    e.request.mode = .noResponse ∧ written = Frame.ofPayload e.request.encode
  answered : ∀ response, e.request.progress = .completed ∧ e.response = some response ↔
    e.request.mode = .response ∧ ∃ p, p.length ≤ Frame.maxSize ∧ read = Frame.ofPayload p
      ∧ Response.decode p = .ok response
  malformed : e.request.progress = .failed ∧ (∃ m, e.response = some (.error m)) ↔
    ∃ p cause, p.length ≤ Frame.maxSize ∧ read = Frame.ofPayload p
      ∧ Response.decode p = .error cause
  otherwise : e.request.progress = .completed ∨ e.request.progress = .failed
    ∧ ((∃ m, e.response = some (.error m)) ∨ ∃ m, e.response = some (.exception m))

/-- A frame that was read decodes in one way. -/
theorem decode_of_read {read p p' : Bytes} (hp : p.length ≤ Frame.maxSize)
    (hr : read = Frame.ofPayload p) (hp' : p'.length ≤ Frame.maxSize)
    (hr' : read = Frame.ofPayload p') : p' = p :=
  Frame.ofPayload_inj hp' hp (hr'.symm.trans hr)

theorem Outcome.tells {written read : Bytes} {e : Ending} (h : Outcome written read e) :
    e.Tells written read := by
  cases h with
  | delivered hm hw hr =>
    refine ⟨⟨fun _ => ⟨hm, hw⟩, fun _ => ⟨rfl, rfl⟩⟩, fun response => ⟨?_, ?_⟩, ⟨?_, ?_⟩, .inl rfl⟩
    · rintro ⟨-, h⟩
      cases h
    · rintro ⟨h, -⟩
      cases hm.symm.trans h
    · rintro ⟨h, -⟩
      cases h
    · rintro ⟨p, cause, -, h, -⟩
      exact absurd (h.symm.trans hr) (Frame.ofPayload_ne_nil p)
  | answered hm hw hl hr hd =>
    refine ⟨⟨?_, ?_⟩, fun response => ⟨?_, ?_⟩, ⟨?_, ?_⟩, .inl rfl⟩
    · rintro ⟨-, h⟩
      cases h
    · rintro ⟨h, -⟩
      cases hm.symm.trans h
    · rintro ⟨-, h⟩
      cases h
      exact ⟨hm, _, hl, hr, hd⟩
    · rintro ⟨-, p, hp, h, hd'⟩
      rw [decode_of_read hl hr hp h, hd] at hd'
      cases hd'
      exact ⟨rfl, rfl⟩
    · rintro ⟨h, -⟩
      cases h
    · rintro ⟨p, cause, hp, h, hd'⟩
      rw [decode_of_read hl hr hp h, hd] at hd'
      cases hd'
  | malformed hm hw hl hr hd =>
    refine ⟨⟨?_, ?_⟩, fun response => ⟨?_, ?_⟩, ⟨?_, ?_⟩, .inr ⟨rfl, .inl ⟨_, rfl⟩⟩⟩
    · rintro ⟨h, -⟩
      cases h
    · rintro ⟨h, -⟩
      cases hm.symm.trans h
    · rintro ⟨h, -⟩
      cases h
    · rintro ⟨-, p, hp, h, hd'⟩
      rw [decode_of_read hl hr hp h, hd] at hd'
      cases hd'
    · intro _
      exact ⟨_, _, hl, hr, hd⟩
    · intro _
      exact ⟨rfl, _, rfl⟩
  | broken hw hm hr =>
    refine ⟨⟨?_, ?_⟩, fun response => ⟨?_, ?_⟩, ⟨?_, ?_⟩, .inr ⟨rfl, .inr ⟨_, rfl⟩⟩⟩
    · rintro ⟨h, -⟩
      cases h
    · rintro ⟨h, hall⟩
      exact absurd hall (hm h)
    · rintro ⟨h, -⟩
      cases h
    · rintro ⟨-, p, hp, h, -⟩
      exact absurd h (hr p hp)
    · rintro ⟨-, m, h⟩
      cases h
    · rintro ⟨p, cause, hp, h, -⟩
      exact absurd h (hr p hp)
namespace Sight
variable {χ : Type} {s s' : Sight χ}

open Log

/-! ## The bytes of a request -/

/-- What was written for the request in flight. -/
def written (s : Sight χ) : Bytes := writtenBy s.number s.log

/-- What was read for the request in flight. -/
def read (s : Sight χ) : Bytes := readBy s.number s.log

theorem tally {new : List (Mark χ)} (hlog : s'.log = s.log ++ new)
    (hnew : During s.number new) :
    s'.written = s.written ++ writtenBy s.number new ∧ s'.read = s.read ++ readBy s.number new := by
  have hn := number_during_log hlog hnew
  rw [written, read, hn, hlog, writtenBy_append, readBy_append]
  exact ⟨rfl, rfl⟩

/-- When a request has ended, nothing was written or read for the next. -/
theorem tally_ended (hs : Numbered s.log) (new : List (Mark χ)) {x : Option χ} {e : Ending}
    (hlog : s'.log = s.log ++ (new ++ [.ended s.number x e])) (hnew : During s.number new) :
    s'.written = [] ∧ s'.read = [] := by
  have hn := number_ended hlog hnew
  have hlt : Log.number s.log < s.number + 1 := Nat.lt_succ_self _
  rw [written, read, hn, hlog, writtenBy_append, readBy_append, writtenBy_append, readBy_append,
    hs.writtenBy_nil hlt, hs.readBy_nil hlt, writtenBy_during hnew (by omega),
    readBy_during hnew (by omega)]
  exact ⟨rfl, rfl⟩

/-- What was written and read accords with the phase. -/
def InFlight (s : Sight χ) : Prop := s.phase.Flight s.written s.read

/-- Marks by which nothing is written or read. -/
theorem InFlight.quiet (hs : s.InFlight) (new : List (Mark χ)) (hlog : s'.log = s.log ++ new)
    (hnew : During s.number new) (hw : writtenBy s.number new = [])
    (hr : readBy s.number new = []) (hp : s.phase.Flight s.written s.read →
      s'.phase.Flight s.written s.read) : s'.InFlight := by
  obtain ⟨hwritten, hread⟩ := tally hlog hnew
  rw [InFlight, hwritten, hread, hw, hr, List.append_nil, List.append_nil]
  exact hp hs

theorem tally_wrote {x : χ} {bs : Bytes} {a : Frame.Acceptance}
    (hlog : s'.log = s.log ++ [.wrote s.number x bs a]) :
    s'.written = s.written ++ a.bytesTaken bs ∧ s'.read = s.read := by
  obtain ⟨hw, hr⟩ := tally hlog (during_singleton rfl (.inr rfl))
  refine ⟨?_, hr.trans (List.append_nil _)⟩
  rw [hw]
  simp [writtenBy, Mark.writtenBy]

theorem tally_read {x : χ} {p : Except IoError Frame.ReadStatus}
    (hlog : s'.log = s.log ++ [.read s.number x p]) :
    s'.written = s.written ∧ s'.read = s.read ++ Frame.bytesRead p := by
  obtain ⟨hw, hr⟩ := tally hlog (during_singleton rfl (.inr rfl))
  refine ⟨hw.trans (List.append_nil _), ?_⟩
  rw [hr]
  simp [readBy, Mark.readBy]

theorem inFlight_wrote {x : χ} {bs : Bytes} {a : Frame.Acceptance}
    (hlog : s'.log = s.log ++ [.wrote s.number x bs a])
    (h : s'.phase.Flight (s.written ++ a.bytesTaken bs) s.read) : s'.InFlight := by
  obtain ⟨hw, hr⟩ := tally_wrote hlog
  rwa [InFlight, hw, hr]

theorem inFlight_read {x : χ} {p : Except IoError Frame.ReadStatus}
    (hlog : s'.log = s.log ++ [.read s.number x p])
    (h : s'.phase.Flight s.written (s.read ++ Frame.bytesRead p)) : s'.InFlight := by
  obtain ⟨hw, hr⟩ := tally_read hlog
  rwa [InFlight, hw, hr]

/-- Getting hold of a channel writes and reads nothing. -/
theorem Reached.quiet {r : Request} {since : Nat} {c : Channel χ} {x : χ} {m : Mark χ}
    (h : Reached s r since c x m) (k : Nat) : writtenBy k [m] = [] ∧ readBy k [m] = [] := by
  cases h <;> exact ⟨rfl, rfl⟩

theorem Reached.flight {r : Request} {since : Nat} {c : Channel χ} {x : χ} {m : Mark χ}
    (h : Reached s r since c x m) (hs : s.InFlight) : s.written = [] ∧ s.read = [] := by
  unfold InFlight at hs
  cases h with
  | again hp => rwa [hp] at hs
  | anew hp => rwa [hp] at hs

theorem inFlight_change (hn : Numbered s.log) (hs : s.InFlight) (h : Change s s') :
    s'.InFlight := by
  cases h with
  | same => exact hs
  | put => exact hs.quiet _ rfl (during_singleton rfl (.inl rfl)) rfl rfl id
  | refused r hp =>
    unfold InFlight
    rw [hp]
    exact tally_ended (s := s) hn [.put r] rfl (during_singleton rfl (.inl rfl))
  | began since hp =>
    refine hs.quiet [] (List.append_nil _).symm (fun m hm => absurd hm (by simp)) rfl rfl ?_
    rw [hp]
    exact id
  | dropped e =>
    exact hs.quiet _ rfl (during_releases _ (releases_flatMap _))
      (writtenBy_releases _ (releases_flatMap _)) (readBy_releases _ (releases_flatMap _)) id
  | stopped hp =>
    refine hs.quiet _ rfl (during_releases _ (releases_flatMap _))
      (writtenBy_releases _ (releases_flatMap _)) (readBy_releases _ (releases_flatMap _)) ?_
    rw [hp]
    exact id
  | checkedOut hp =>
    refine hs.quiet [] (List.append_nil _).symm (fun m hm => absurd hm (by simp)) rfl rfl ?_
    rw [hp]
    exact id
  | missing hp =>
    refine hs.quiet [] (List.append_nil _).symm (fun m hm => absurd hm (by simp)) rfl rfl ?_
    rw [hp]
    exact id
  | @stale r since c x p hp =>
    refine hs.quiet ([.probed s.number x p] ++ closing c) rfl
      (during_append (during_singleton rfl (.inr rfl)) (during_releases _ (releases_closing c)))
      ?_ ?_ ?_
    · rw [writtenBy_append, writtenBy_releases _ (releases_closing c)]
      rfl
    · rw [readBy_append, readBy_releases _ (releases_closing c)]
      rfl
    · rw [hp]
      exact id
  | unreachable e hp =>
    exact tally_ended hn [] rfl (fun m hm => absurd hm (by simp))
  | reached hr ho =>
    obtain ⟨hw, hread⟩ := hr.flight hs
    refine hs.quiet _ rfl hr.during (hr.quiet _).1 (hr.quiet _).2 fun _ => ?_
    have hleft := Frame.Outgoing.left_start ho
    refine ⟨Frame.Outgoing.fits_of_start ho, ?_, ?_, hread⟩
    · rw [hleft]
      exact Frame.ofPayload_ne_nil _
    · rw [hw, hleft]
      rfl
  | advanced hp hx hl ha ho =>
    rw [InFlight, hp] at hs
    obtain ⟨hfit, -, hall, hread⟩ := hs
    refine inFlight_wrote rfl ⟨hfit, fun hnil => ?_, ?_, hread⟩
    · rw [Frame.Outgoing.left_eq_nil.1 hnil] at ho
      cases ho
    · rw [List.append_assoc, ← hl, hall]
  | delivered => exact tally_ended hn [_] rfl (during_singleton rfl (.inr rfl))
  | asked hp hx hl ha hm =>
    rw [InFlight, hp] at hs
    obtain ⟨hfit, -, hall, hread⟩ := hs
    exact inFlight_wrote rfl ⟨hfit, hm, by rw [← hl, hall], hread⟩
  | heard hp hx hi ht =>
    rw [InFlight, hp] at hs
    obtain ⟨hfit, hm, hall, hread⟩ := hs
    exact inFlight_read rfl ⟨hfit, hm, hall, by rw [ht, hread]⟩
  | answered => exact tally_ended hn [_] rfl (during_singleton rfl (.inr rfl))
  | @failed r c x marks response hm =>
    refine tally_ended hn (marks ++ closing c) (x := some x) (e := .failed r response) ?_
      (during_append hm.during (during_releases _ (releases_closing c)))
    rw [List.append_assoc]

theorem inFlight_reachable {w : Watched χ} (h : w.Reachable) : w.sight.InFlight :=
  Watched.reachable_induction (P := InFlight) ⟨rfl, rfl⟩
    (fun _ _ hw hs hc => inFlight_change (numbered_reachable hw) hs hc) h

/-! ## What becomes of the requests -/

/-- Requests that ended did so as what was written and read for them says. -/
def Outcomes (s : Sight χ) : Prop :=
  ∀ k x e, .ended k x e ∈ s.log → Outcome (writtenBy k s.log) (readBy k s.log) e

theorem Outcomes.past (hs : s.Outcomes) (hn : Numbered s.log) (h : Change s s') {k : Nat}
    {x : Option χ} {e : Ending} (hm : .ended k x e ∈ s.log) :
    Outcome (writtenBy k s'.log) (readBy k s'.log) e := by
  have hk := hn.ended_lt hm
  rw [writtenBy_past h hk, readBy_past h hk]
  exact hs k x e hm

theorem Outcomes.during (hs : s.Outcomes) (hn : Numbered s.log) (h : Change s s')
    (new : List (Mark χ)) (hlog : s'.log = s.log ++ new) (hnew : During s.number new) :
    s'.Outcomes := by
  intro k x e hm
  rw [hlog] at hm
  rcases List.mem_append.1 hm with hm | hm
  · exact hs.past hn h hm
  · cases (hnew _ hm).1

theorem Outcomes.ended (hs : s.Outcomes) (hn : Numbered s.log) (h : Change s s')
    (new : List (Mark χ)) {x : Option χ} {e : Ending}
    (hlog : s'.log = s.log ++ (new ++ [.ended s.number x e])) (hnew : During s.number new)
    (ho : Outcome (s.written ++ writtenBy s.number new) (s.read ++ readBy s.number new) e) :
    s'.Outcomes := by
  intro k x' e' hm
  have hm' := hm
  rw [hlog] at hm'
  rcases List.mem_append.1 hm' with hm' | hm'
  · exact hs.past hn h hm'
  rcases List.mem_append.1 hm' with hm' | hm'
  · cases (hnew _ hm').1
  · cases List.mem_singleton.1 hm'
    have hw : writtenBy s.number [.ended s.number x e] = [] := rfl
    have hr : readBy s.number [.ended s.number x e] = [] := rfl
    rw [hlog, writtenBy_append, readBy_append, writtenBy_append, readBy_append, hw, hr,
      List.append_nil, List.append_nil]
    exact ho

/-- Whatever goes wrong, it goes wrong before a whole frame has come back, unless what came back is
no response. -/
theorem Mishap.outcome {r : Request} {c : Channel χ} {x : χ} {marks : List (Mark χ)}
    {response : Response} (h : Mishap s r c x marks response) (hp : s.Poised)
    (hs : s.InFlight) :
    Outcome (s.written ++ writtenBy s.number marks) (s.read ++ readBy s.number marks)
      (.failed r response) := by
  cases h with
  | tooLarge hr =>
    obtain ⟨hw, hread⟩ := hr.flight hs
    rw [hw, hread, (hr.quiet _).1, (hr.quiet _).2]
    exact .unheard r _
  | @unsent since o bs a e hphase hx hb hw ha =>
    rw [InFlight, hphase] at hs
    obtain ⟨-, hne, hall, hread⟩ := hs
    have hwrote : writtenBy s.number [.wrote s.number x bs a] = [] := by
      simp [writtenBy, Mark.writtenBy, ha]
    rw [hwrote, List.append_nil, hread]
    refine .broken ⟨_, hall⟩ (fun _ he => hne ?_) fun p _ he => Frame.ofPayload_ne_nil p he.symm
    rw [he] at hall
    exact List.append_right_eq_self.1 hall
  | @unanswered since i p text hphase hx hi =>
    rw [InFlight, hphase] at hs
    obtain ⟨-, hm, hall, hread⟩ := hs
    have hread' : readBy s.number [.read s.number x p] = Frame.bytesRead p := by
      simp [readBy, Mark.readBy]
    rw [hall, hread, hread']
    refine .broken ?_ (fun hn => by rw [hm] at hn; cases hn) hi
    exact ⟨[], by rw [List.append_nil]; exact List.append_nil _⟩
  | @malformed since i p payload e hphase hx hl hi hd =>
    rw [InFlight, hphase] at hs
    obtain ⟨-, hm, hall, hread⟩ := hs
    refine .malformed hm ?_ hl ?_ hd
    · rw [hall]
      exact List.append_nil _
    · rw [hread, ← hi]
      simp [readBy, Mark.readBy]
  | @cancelled since i hphase hx =>
    have hsound : i.Sound := by
      have := hp.phase
      rw [hphase] at this
      exact this.2
    rw [InFlight, hphase] at hs
    obtain ⟨-, hm, hall, hread⟩ := hs
    rw [hall, hread]
    refine .broken ⟨[], ?_⟩ (fun hn => by rw [hm] at hn; cases hn) fun q hq => ?_
    · rw [List.append_nil]
      exact List.append_nil _
    · have := Frame.Intake.taken_ne_ofPayload hsound hq []
      rw [List.append_nil] at this
      show i.taken ++ [] ≠ _
      rwa [List.append_nil]

theorem outcomes_change (hp : s.Poised) (hn : Numbered s.log) (hf : s.InFlight)
    (hs : s.Outcomes) (h : Change s s') : s'.Outcomes := by
  have hc := h
  cases h with
  | same => exact hs
  | put => exact hs.during hn hc _ rfl (during_singleton rfl (.inl rfl))
  | refused r hphase =>
    rw [InFlight, hphase] at hf
    refine hs.ended hn hc [.put r] rfl (during_singleton rfl (.inl rfl)) ?_
    rw [hf.1, hf.2]
    exact .unheard r _
  | began => exact hs
  | dropped => exact hs.during hn hc _ rfl (during_releases _ (releases_flatMap _))
  | stopped => exact hs.during hn hc _ rfl (during_releases _ (releases_flatMap _))
  | checkedOut => exact hs
  | missing => exact hs
  | @stale r since c x p =>
    exact hs.during hn hc ([.probed s.number x p] ++ closing c) rfl
      (during_append (during_singleton rfl (.inr rfl)) (during_releases _ (releases_closing c)))
  | @unreachable r since e hphase =>
    rw [InFlight, hphase] at hf
    refine hs.ended hn hc [] rfl (fun m hm => absurd hm (by simp)) ?_
    rw [hf.1, hf.2]
    exact .unheard r _
  | reached hr => exact hs.during hn hc _ rfl hr.during
  | advanced => exact hs.during hn hc _ rfl (during_singleton rfl (.inr rfl))
  | @delivered r since c x o bs a hphase hx hl ha hm =>
    rw [InFlight, hphase] at hf
    obtain ⟨-, -, hall, hread⟩ := hf
    refine hs.ended hn hc [_] rfl (during_singleton rfl (.inr rfl))
      (.delivered hm ?_ ?_)
    · rw [← hall, hl]
      simp [writtenBy, Mark.writtenBy]
    · rw [hread]
      rfl
  | asked => exact hs.during hn hc _ rfl (during_singleton rfl (.inr rfl))
  | heard => exact hs.during hn hc _ rfl (during_singleton rfl (.inr rfl))
  | @answered r since c x i p payload response hphase hx hl hi hgo hd =>
    rw [InFlight, hphase] at hf
    obtain ⟨-, hm, hall, hread⟩ := hf
    refine hs.ended hn hc [_] rfl (during_singleton rfl (.inr rfl))
      (.answered hm ?_ hl ?_ hd)
    · rw [hall]
      exact List.append_nil _
    · rw [hread, ← hi]
      simp [readBy, Mark.readBy]
  | @failed r c x marks response hm =>
    have ho := hm.outcome hp hf
    refine hs.ended hn hc (marks ++ closing c) (x := some x) (e := .failed r response) ?_
      (during_append hm.during (during_releases _ (releases_closing c))) ?_
    · rw [List.append_assoc]
    · rwa [writtenBy_append, readBy_append, writtenBy_releases _ (releases_closing c),
        readBy_releases _ (releases_closing c), List.append_nil, List.append_nil]

theorem outcomes_reachable {w : Watched χ} (h : w.Reachable) : w.sight.Outcomes :=
  Watched.reachable_induction (P := Outcomes) (fun k x e hm => absurd hm (by simp))
    (fun _ _ hw hs hc => outcomes_change (Watched.poised_reachable hw) (numbered_reachable hw)
      (inFlight_reachable hw) hs hc) h

/-- What was written for a request is a beginning of its frame. -/
theorem writtenBy_begins (hn : Numbered s.log) (ho : s.InOrder) (hf : s.InFlight)
    (hs : s.Outcomes) {k : Nat} {r : Request} (hr : (puts s.log)[k]? = some r) :
    writtenBy k s.log <+: Frame.ofPayload r.encode := by
  rcases Nat.lt_trichotomy k s.number with hk | rfl | hk
  · obtain ⟨x, e, hm⟩ := hn.exists_ended hk
    obtain ⟨r', hr', hbare⟩ := ho.ended hn hm
    rw [hr] at hr'
    cases hr'
    rw [Request.encode_bare hbare]
    exact (hs k x e hm).written_begins
  · have hw : s.written = writtenBy s.number s.log := rfl
    rw [← hw]
    unfold InFlight at hf
    cases hp : s.phase with
    | sending r' since c o =>
      obtain ⟨r'', hr'', hbare⟩ := ho.flight (congrArg QueuePhase.request? hp)
      rw [hr] at hr''
      cases hr''
      rw [hp] at hf
      rw [Request.encode_bare hbare]
      exact ⟨_, hf.2.2.1⟩
    | awaiting r' since c i =>
      obtain ⟨r'', hr'', hbare⟩ := ho.flight (congrArg QueuePhase.request? hp)
      rw [hr] at hr''
      cases hr''
      rw [hp] at hf
      rw [Request.encode_bare hbare]
      exact hf.2.2.1 ▸ List.prefix_refl _
    | _ =>
      rw [hp] at hf
      rw [hf.1]
      exact List.nil_prefix
  · rw [hn.writtenBy_nil hk]
    exact List.nil_prefix

end Sight
end CommandLink
