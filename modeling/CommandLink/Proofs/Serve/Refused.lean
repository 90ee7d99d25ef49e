import CommandLink.Proofs.Codec
import CommandLink.Proofs.Serve.Visit
/-!
# Frames that are refused

A frame that holds no request, or one for a receiver that nobody knows, is answered with an error. The
answer quotes what was wrong, and escaping can make it longer than the frame was.

Results:
* `answer_refused`: what such a frame is answered with.
* `midway_step`: no move can do anything but bring the frame in and its answer out.
* `refused_frame`: the answer is written and the next frame is served, if a frame can hold the answer.
* `too_long_to_refuse`: a frame that is not too large, with an answer that is.
-/
namespace CommandLink

namespace Frame.Intake

/-- What becomes of an intake for which a frame comes in, fed no more than it wants. -/
theorem feed_toward {i : Intake} (hi : i.Sound) {bs : Bytes} (hb : bs.length ≤ i.wanted)
    {p more rest : Bytes} (hp : p.length ≤ maxSize)
    (h : i.taken ++ (bs ++ more) = ofPayload p ++ rest) :
    (∃ i', i.feed bs = (.more i', []) ∧ i'.Sound ∧ i'.taken ++ more = ofPayload p ++ rest)
    ∨ i.feed bs = (.frame p, []) ∧ more = rest := by
  rw [← List.append_assoc] at h
  rcases feed_wanted hi hb with ⟨i', he, hs, ht⟩ | ⟨q, he, hq, ht⟩ | ⟨size, he, hsize, ht, hbig⟩
  · exact .inl ⟨i', he, hs, by rw [ht, h]⟩
  · rw [ht] at h
    obtain ⟨rfl, rfl⟩ := ofPayload_append_inj hq hp h
    exact .inr ⟨he, rfl⟩
  · -- the header in front would be that of the frame, which is not too large
    rw [ht, ofPayload, List.append_assoc] at h
    obtain ⟨hheader, -⟩ := List.append_inj h (by rw [Bytes.length_big32, Bytes.length_big32])
    rw [ht, hheader, ofBig_header hp] at hbig
    omega

end Frame.Intake

namespace Service
variable {σ : Type} {v : Service σ} {p : Bytes}

/-- A payload that is no request, or one that waits for the response of a receiver that nobody
knows. -/
def Refuses (v : Service σ) (p : Bytes) : Prop :=
  (∃ cause, Request.decode p v.endpoint = .error cause)
  ∨ ∃ request, Request.decode p v.endpoint = .ok request ∧ request.mode = .response
    ∧ v.receivers.get? request.receiver = none

theorem answer_refused (h : v.Refuses p) :
    ∃ r : Response, r.verdict = .error ∧ ∀ s, v.answer p s = (.response r, s) := by
  cases h with
  | inl h =>
    obtain ⟨cause, hdecode⟩ := h
    exact ⟨refusal cause, rfl, answer_malformed hdecode⟩
  | inr h =>
    obtain ⟨request, hdecode, hmode, hunknown⟩ := h
    refine ⟨.error ("unknown receiver '" ++ request.receiver ++ "'"), rfl, fun s => ?_⟩
    unfold answer
    rw [hdecode]
    dsimp only
    rw [Registry.dispatch_unknown hunknown, hmode]

end Service

/-- A frame that comes in with other bytes behind it, and a response that is the answer to it and
changes nothing. -/
structure Exchange {σ : Type} (v : Service σ) where
  payload : Bytes
  fits : payload.length ≤ Frame.maxSize
  rest : Bytes
  response : Response
  answered (s : σ) : v.answer payload s = (.response response, s)

namespace Exchange
variable {σ : Type} {v : Service σ}

/-- What comes in. -/
def coming (x : Exchange v) : Bytes := Frame.ofPayload x.payload ++ x.rest

/-- What is written, if it can be. -/
def frame (x : Exchange v) : Bytes := Frame.ofPayload x.response.encode

/-- The request that is handed over, if there is one. -/
def handed (x : Exchange v) : List Request := (v.request? x.payload).toList

/-- A read brings more of the frame in, or all that was missing, and it is answered. -/
theorem read (x : Exchange v) (channel : String) {i : Frame.Intake} (hi : i.Sound) {bs more : Bytes}
    (hb : bs.length ≤ i.wanted) (h : i.taken ++ (bs ++ more) = x.coming) (s : σ) :
    (∃ i', (Serving.reading i).step v channel (.read (.ok (.data bs))) s = (.reading i', s)
      ∧ (Serving.reading i).handed? v channel (.read (.ok (.data bs))) = none
      ∧ i'.Sound ∧ i'.taken ++ more = x.coming)
    ∨ ((Serving.reading i).step v channel (.read (.ok (.data bs))) s
        = (Serving.respond x.response, s)
      ∧ (Serving.reading i).handed? v channel (.read (.ok (.data bs))) = v.request? x.payload
      ∧ more = x.rest) := by
  rcases Frame.Intake.feed_toward hi hb x.fits h with ⟨i', he, hs, ht⟩ | ⟨he, hmore⟩
  · refine .inl ⟨i', ?_, ?_, hs, ht⟩
    · simp only [Serving.step, Frame.Intake.read, he]
    · simp only [Serving.handed?, Serving.payload?, Frame.Intake.read, he, Option.bind_none]
  · refine .inr ⟨?_, ?_, hmore⟩
    · simp only [Serving.step, Frame.Intake.read, he, x.answered, Serving.afterAnswer]
    · simp only [Serving.handed?, Serving.payload?, Frame.Intake.read, he, Option.bind_some]

end Exchange

/-- A write takes bytes off the front of an answer, or all that was left of it. -/
theorem Serving.answering_wrote {σ : Type} (v : Service σ) (channel : String) {o : Frame.Outgoing}
    {bs : Bytes} (ho : o.offered? = some bs) {k : Nat} (hk : 0 < k) (hl : k ≤ bs.length) (s : σ) :
    (∃ o', (answering o).step v channel (.wrote (.took k)) s = (answering o', s)
      ∧ o'.offered?.isSome ∧ o.left = bs.take k ++ o'.left)
    ∨ (answering o).step v channel (.wrote (.took k)) s = (start, s) ∧ o.left = bs.take k := by
  obtain ⟨k, rfl⟩ : ∃ m, k = m + 1 := ⟨k - 1, by omega⟩
  have hw : o.wrote channel (.took (k + 1)) = .ok (o.advance (k + 1)) := rfl
  have hleft := Frame.Outgoing.left_wrote ho hl hw
  unfold step
  simp only [hw]
  by_cases hmore : (o.advance (k + 1)).offered?.isSome
  · exact .inl ⟨o.advance (k + 1), by rw [if_pos hmore], hmore, hleft⟩
  · refine .inr ⟨by rw [if_neg hmore], ?_⟩
    have hnone : (o.advance (k + 1)).left = [] :=
      Frame.Outgoing.left_eq_nil.2 (Option.not_isSome_iff_eq_none.1 hmore)
    rw [hleft, hnone, List.append_nil]

namespace Visit
variable {χ σ : Type} {v : Service σ} {n : Nat} {c : Channel χ} {w₀ w w' : Visit χ σ}
  {serving serving' : Serving} {e : Serving.Event} {s' : σ} {x : Exchange v} {stream : χ}

/-! ## What a move changes -/

/-- What a visit has become with a move: who is served, what is unread, and what was written, handed
over and given back on top of what was before. -/
structure Became (n : Nat) (w w' : Visit χ σ) (peer : Option (Peer χ)) (unread out : Bytes)
    (handed : List Request) (world : σ) (acts : List (LoopAct χ)) : Prop where
  peer : w'.loop.peer? n = peer
  unread : w'.unread = unread
  written : w'.written = w.written ++ out
  handed : w'.handed = w.handed ++ handed
  world : w'.world = world
  acts : w'.acts = w.acts ++ acts

variable {unread out : Bytes}

theorem handed_serve (hp : w.loop.peer? n = some ⟨n, c, serving⟩) (e : Serving.Event) :
    (w.serve v n e).handed = w.handed ++ (serving.handed? v c.name e).toList := by
  unfold serve
  rw [hp, Option.bind_some]

theorem became_going (hp : w.loop.peer? n = some ⟨n, c, serving⟩)
    (h : serving.step v c.name e w.world = (serving', s')) (going : serving'.isEnded = false)
    (hw : w' = { w.serve v n e with unread := unread, written := w.written ++ out }) :
    Became n w w' (some ⟨n, c, serving'⟩) unread out (serving.handed? v c.name e).toList s' [] := by
  obtain ⟨hpeer, hrest⟩ := AcceptLoop.servePeer_going hp h going
  subst hw
  refine ⟨hpeer, rfl, rfl, handed_serve hp e, ?_, ?_⟩
  · simp only [serve, AcceptLoop.step, hrest]
  · simp only [serve, AcceptLoop.step, hrest]

theorem became_ended (hx : c.stream = some stream) (hp : w.loop.peer? n = some ⟨n, c, serving⟩)
    (h : serving.step v c.name e w.world = (.ended, s'))
    (hw : w' = { w.serve v n e with unread := unread, written := w.written ++ out }) :
    Became n w w' none unread out (serving.handed? v c.name e).toList s'
      (c.close.2.map (.peer stream)) := by
  obtain ⟨hpeer, hrest⟩ := AcceptLoop.servePeer_ended hp hx h
  subst hw
  refine ⟨hpeer, rfl, rfl, handed_serve hp e, ?_, ?_⟩
  · simp only [serve, AcceptLoop.step, hrest]
  · simp only [serve, AcceptLoop.step, hrest]

/-! ## From a frame to its answer -/

/-- What was noted of a visit since an earlier moment: so much was written, these requests were handed
over, which have changed nothing, and this was given back. -/
structure Since (w₀ w : Visit χ σ) (written : Bytes) (handed : List Request)
    (acts : List (LoopAct χ)) : Prop where
  written : w.written = w₀.written ++ written
  handed : w.handed = w₀.handed ++ handed
  world : w.world = w₀.world
  acts : w.acts = w₀.acts ++ acts

theorem Since.became {out more : Bytes} {handed others : List Request} {peer : Option (Peer χ)}
    {acts : List (LoopAct χ)} (h : Since w₀ w out handed [])
    (hw : Became n w w' peer unread more others w.world acts) :
    Since w₀ w' (out ++ more) (handed ++ others) acts := by
  refine ⟨?_, ?_, hw.world.trans h.world, ?_⟩
  · rw [hw.written, h.written, List.append_assoc]
  · rw [hw.handed, h.handed, List.append_assoc]
  · rw [hw.acts, h.acts, List.append_nil]

/-- The frame comes in, or its answer goes out. -/
inductive Midway (n : Nat) (c : Channel χ) (x : Exchange v) (w₀ w : Visit χ σ) : Prop
  | reading (i : Frame.Intake) (hp : w.loop.peer? n = some ⟨n, c, .reading i⟩) (sound : i.Sound)
      (coming : i.taken ++ w.unread = x.coming) (since : Since w₀ w [] [] [])
  | answering (o : Frame.Outgoing) (out : Bytes)
      (hp : w.loop.peer? n = some ⟨n, c, .answering o⟩) (sound : o.offered?.isSome)
      (fits : x.response.encode.length ≤ Frame.maxSize) (unread : w.unread = x.rest)
      (written : out ++ o.left = x.frame)
      (since : Since w₀ w out x.handed [])

/-- The answer was written as one frame, and the next frame is waited for. -/
structure Answered (n : Nat) (c : Channel χ) (x : Exchange v) (w₀ w : Visit χ σ) : Prop where
  peer : w.loop.peer? n = some ⟨n, c, .start⟩
  unread : w.unread = x.rest
  since : Since w₀ w x.frame x.handed []

/-- Nothing was written, and the peer is served no more. -/
structure Lost (n : Nat) (c : Channel χ) (stream : χ) (x : Exchange v) (w₀ w : Visit χ σ) : Prop where
  peer : w.loop.peer? n = none
  unread : w.unread = x.rest
  since : Since w₀ w [] x.handed (c.close.2.map (.peer stream))

/-- The bytes that are still to be read or written until the answer is out. -/
def ahead (n : Nat) (x : Exchange v) (w : Visit χ σ) : Nat :=
  w.unread.length + match w.loop.peer? n with
    | some ⟨_, _, .answering o⟩ => o.left.length
    | _ => x.frame.length

/-- How it ends: the answer is written if a frame can hold it, and otherwise nothing is. -/
inductive Settled (n : Nat) (c : Channel χ) (stream : χ) (x : Exchange v) (w₀ w : Visit χ σ) : Prop
  | answered (fits : x.response.encode.length ≤ Frame.maxSize) (h : Answered n c x w₀ w)
  | lost (tooLong : Frame.maxSize < x.response.encode.length) (h : Lost n c stream x w₀ w)

theorem ahead_reading {i : Frame.Intake} (hp : w.loop.peer? n = some ⟨n, c, .reading i⟩) :
    w.ahead n x = w.unread.length + x.frame.length := by
  unfold ahead
  rw [hp]

theorem ahead_answering {o : Frame.Outgoing} (hp : w.loop.peer? n = some ⟨n, c, .answering o⟩) :
    w.ahead n x = w.unread.length + o.left.length := by
  unfold ahead
  rw [hp]

/-- What is behind the frame stays ahead. -/
theorem rest_le_ahead (h : Midway n c x w₀ w) : x.rest.length ≤ w.ahead n x := by
  cases h with
  | reading i hp sound coming =>
    rw [ahead_reading hp]
    rcases List.append_eq_append_iff.1 coming with ⟨missing, -, hunread⟩ | ⟨more, htaken, -⟩
    · rw [hunread, List.length_append]
      omega
    · exact absurd htaken (Frame.Intake.taken_ne_ofPayload sound x.fits more)
  | answering o out hp sound fits unread =>
    rw [ahead_answering hp, unread]
    omega

/-- A frame that is there is answered, in a frame if one can hold the response. -/
theorem settle_frame (hx : c.stream = some stream) (hp : w.loop.peer? n = some ⟨n, c, serving⟩)
    (since : Since w₀ w [] [] [])
    (hstep : serving.step v c.name e w.world = (Serving.respond x.response, w.world))
    (hhanded : serving.handed? v c.name e = v.request? x.payload)
    (hw : w' = { w.serve v n e with unread := x.rest, written := w.written ++ [] }) :
    (Midway n c x w₀ w' ∧ w'.ahead n x = x.rest.length + x.frame.length)
    ∨ Settled n c stream x w₀ w' := by
  unfold Serving.respond at hstep
  by_cases hfits : x.response.encode.length ≤ Frame.maxSize
  · obtain ⟨o, ho⟩ : ∃ o, Frame.Outgoing.start x.response.encode = .ok o := ⟨_, if_pos hfits⟩
    rw [ho] at hstep
    have hbecame := became_going hp hstep rfl hw
    have hsince := since.became hbecame
    rw [hhanded] at hsince
    have hleft : o.left = x.frame := Frame.Outgoing.left_start ho
    refine .inl ⟨.answering o [] hbecame.peer (Frame.Outgoing.offered?_isSome_start ho) hfits
      hbecame.unread hleft hsince, ?_⟩
    rw [ahead_answering hbecame.peer, hbecame.unread, hleft]
  · have hrefused : Frame.Outgoing.start x.response.encode
        = .error (.frameTooLarge x.response.encode.length) := if_neg hfits
    rw [hrefused] at hstep
    have hbecame := became_ended hx hp hstep hw
    have hsince := since.became hbecame
    rw [hhanded] at hsince
    exact .inr (.lost (Nat.lt_of_not_le hfits) ⟨hbecame.peer, hbecame.unread, hsince⟩)

theorem reading_step (hx : c.stream = some stream) {i : Frame.Intake}
    (hp : w.loop.peer? n = some ⟨n, c, .reading i⟩) (sound : i.Sound)
    (coming : i.taken ++ w.unread = x.coming) (since : Since w₀ w [] [] []) {move : Move}
    (next : Step v n w move w') (going : move ≠ .stop) :
    (Midway n c x w₀ w' ∧ (if move = .idle then 0 else 1) + w'.ahead n x ≤ w.ahead n x)
    ∨ Settled n c stream x w₀ w' := by
  rw [ahead_reading hp]
  cases next with
  | @read _ _ k hq hi hk hwanted hu =>
    rw [hp] at hq
    cases hq
    cases hi
    have hlength : (w.unread.drop k).length = w.unread.length - k := List.length_drop
    rw [if_neg (by simp)]
    rcases x.read c.name sound (Nat.le_trans (List.length_take_le _ _) hwanted)
      (by rwa [List.take_append_drop]) w.world with
      ⟨i', hstep, hnone, sound', coming'⟩ | ⟨hstep, hhanded, hrest⟩
    · have hbecame : Became n w { w.serve v n _ with unread := w.unread.drop k } _ _ [] _ _ _ :=
        became_going hp hstep rfl (by rw [List.append_nil]; rfl)
      have hsince := since.became hbecame
      rw [hnone] at hsince
      refine .inl ⟨.reading i' hbecame.peer sound' coming' hsince, ?_⟩
      rw [ahead_reading hbecame.peer, hbecame.unread]
      omega
    · have hw : ({ w.serve v n (.read (.ok (.data (w.unread.take k)))) with
          unread := w.unread.drop k } : Visit χ σ)
          = { w.serve v n (.read (.ok (.data (w.unread.take k)))) with
            unread := x.rest, written := w.written ++ [] } := by
        rw [hrest, List.append_nil]
        rfl
      refine (settle_frame hx hp since hstep hhanded hw).imp_left fun hmidway => ⟨hmidway.1, ?_⟩
      rw [hmidway.2, ← hrest]
      omega
  | idle hq hi =>
    rw [hp] at hq
    cases hq
    cases hi
    have hstep : (Serving.reading i).step v c.name (.read (.ok .empty)) w.world
        = (.reading i, w.world) := rfl
    have hbecame : Became n w (w.serve v n (.read (.ok .empty))) _ w.unread [] _ _ _ :=
      became_going hp hstep rfl (by rw [List.append_nil]; rfl)
    refine .inl ⟨.reading i hbecame.peer sound coming (since.became hbecame), ?_⟩
    rw [ahead_reading hbecame.peer, hbecame.unread, if_pos rfl]
    omega
  | hangUp hq hi hu =>
    -- the frame is not there yet, so that something of it is unread
    rw [hu, List.append_nil] at coming
    exact absurd coming (Frame.Intake.taken_ne_ofPayload sound x.fits x.rest)
  | write hq ho =>
    rw [hp] at hq
    cases hq
    cases ho
  | stop => exact absurd rfl going

theorem answering_step {o : Frame.Outgoing} {out : Bytes}
    (hp : w.loop.peer? n = some ⟨n, c, .answering o⟩)
    (fits : x.response.encode.length ≤ Frame.maxSize) (unread : w.unread = x.rest)
    (written : out ++ o.left = x.frame) (since : Since w₀ w out x.handed []) {move : Move}
    (next : Step v n w move w') (going : move ≠ .stop) :
    (Midway n c x w₀ w' ∧ (if move = .idle then 0 else 1) + w'.ahead n x ≤ w.ahead n x)
    ∨ Answered n c x w₀ w' := by
  rw [ahead_answering hp]
  cases next with
  | read hq hi | idle hq hi | hangUp hq hi =>
    rw [hp] at hq
    cases hq
    cases hi
  | @write _ _ bs k hq ho hb hk hl =>
    rw [hp] at hq
    cases hq
    cases ho
    have hlength : (bs.take k).length = k := by
      rw [List.length_take]
      omega
    have hnone : (Serving.answering o).handed? v c.name (.wrote (.took k)) = none := rfl
    rw [if_neg (by simp)]
    rcases Serving.answering_wrote v c.name hb hk hl w.world with
      ⟨o', hstep, sound', hleft⟩ | ⟨hstep, hleft⟩
    · have hbecame : Became n w { w.serve v n _ with written := w.written ++ bs.take k }
          _ w.unread _ _ _ _ := became_going hp hstep rfl rfl
      have hsince := since.became hbecame
      rw [hnone, Option.toList_none, List.append_nil] at hsince
      refine .inl ⟨.answering o' _ hbecame.peer sound' fits unread ?_ hsince, ?_⟩
      · rw [List.append_assoc, ← hleft, written]
      · rw [ahead_answering hbecame.peer, hbecame.unread, hleft, List.length_append]
        omega
    · have hbecame : Became n w { w.serve v n _ with written := w.written ++ bs.take k }
          _ w.unread _ _ _ _ := became_going hp hstep rfl rfl
      have hsince := since.became hbecame
      rw [hleft] at written
      rw [hnone, Option.toList_none, List.append_nil, written] at hsince
      exact .inr ⟨hbecame.peer, unread, hsince⟩
  | stop => exact absurd rfl going

/-- One move on the way from a frame to its answer. -/
theorem midway_step (hx : c.stream = some stream) (h : Midway n c x w₀ w) {move : Move}
    (next : Step v n w move w') (going : move ≠ .stop) :
    (Midway n c x w₀ w' ∧ (if move = .idle then 0 else 1) + w'.ahead n x ≤ w.ahead n x)
    ∨ Settled n c stream x w₀ w' := by
  cases h with
  | reading i hp sound coming since => exact reading_step hx hp sound coming since next going
  | answering o out hp sound fits unread written since =>
    exact (answering_step hp fits unread written since next going).imp_right (.answered fits)

/-- On the way, something can happen that is no stop and brings the visit on. -/
theorem midway_goes_on (h : Midway n c x w₀ w) :
    ∃ move w', move ≠ .stop ∧ move ≠ .idle ∧ Step v n w move w' := by
  cases h with
  | reading i hp sound => exact served_goes_on hp rfl sound
  | answering o out hp sound => exact served_goes_on hp rfl sound

/-- What a visit can have come to since a frame began to come in: it is still on the way from the frame
to its answer, for which so many moves are left at most, or has been where that way ends. -/
inductive Course (n : Nat) (c : Channel χ) (stream : χ) (x : Exchange v) (w₀ : Visit χ σ)
    (moves : List Move) (w : Visit χ σ) : Prop
  | midway (h : Midway n c x w₀ w) (spent : busy moves + w.ahead n x ≤ w₀.ahead n x)
  | past (first later : List Move) (between : Visit χ σ) (split : moves = first ++ later)
      (before : Run v n w₀ first between) (settled : Settled n c stream x w₀ between)
      (after : Run v n between later w)

theorem midway_start (hp : w₀.loop.peer? n = some ⟨n, c, .start⟩) (hu : w₀.unread = x.coming) :
    Midway n c x w₀ w₀ := by
  refine .reading .start hp Frame.Intake.sound_start hu ⟨?_, ?_, rfl, ?_⟩
  · rw [List.append_nil]
  · rw [List.append_nil]
  · rw [List.append_nil]

theorem course_run (hx : c.stream = some stream) (hp : w₀.loop.peer? n = some ⟨n, c, .start⟩)
    (hu : w₀.unread = x.coming) {moves : List Move} (h : Run v n w₀ moves w)
    (going : .stop ∉ moves) : Course n c stream x w₀ moves w := by
  induction h with
  | nil =>
    refine .midway (midway_start hp hu) ?_
    unfold busy
    rw [List.countP_nil]
    omega
  | @snoc moves move w w' before last ih =>
    rw [List.mem_append, List.mem_singleton, not_or] at going
    cases ih going.1 with
    | past first later between split run settled after =>
      exact .past first (later ++ [move]) between (by rw [split, List.append_assoc]) run settled
        (after.snoc last)
    | midway hmidway spent =>
      rcases midway_step hx hmidway last (Ne.symm going.2) with ⟨hmidway', hcost⟩ | hsettled
      · refine .midway hmidway' ?_
        have hbusy := busy_snoc moves move
        omega
      · exact .past (moves ++ [move]) [] _ (List.append_nil _).symm (before.snoc last) hsettled .nil

/-- It can come to the end of the way without being stopped. -/
theorem exists_settled (hx : c.stream = some stream) {moves : List Move} (h : Run v n w₀ moves w)
    (going : .stop ∉ moves) (hmidway : Midway n c x w₀ w) :
    ∃ moves' w', Run v n w₀ moves' w' ∧ .stop ∉ moves' ∧ Settled n c stream x w₀ w' := by
  induction hahead : w.ahead n x using Nat.strongRecOn generalizing moves w with
  | ind k ih =>
    obtain ⟨move, w', hstop, hidle, next⟩ := midway_goes_on hmidway
    have hgoing : .stop ∉ moves ++ [move] := by
      rw [List.mem_append, List.mem_singleton, not_or]
      exact ⟨going, Ne.symm hstop⟩
    rcases midway_step hx hmidway next hstop with ⟨hmidway', hcost⟩ | hsettled
    · rw [if_neg hidle] at hcost
      exact ih (w'.ahead n x) (by omega) (h.snoc next) hgoing hmidway' rfl
    · exact ⟨_, _, h.snoc next, hgoing, hsettled⟩

/-- A frame comes in that is not too large, and holds no request, or one that waits for the response of
a receiver that nobody knows. There is one response to it, an error that the peer can read. A visit that
is not stopped is on the way there, where so many moves do something and one more can, or has come to
the end of it: the response was written as one frame and the next frame is waited for, with nothing
changed and nothing of what is behind the frame read; but if no frame can hold the response, nothing was
written and the peer is served no more. -/
theorem refused_frame {p rest : Bytes} (hx : c.stream = some stream)
    (hp : w₀.loop.peer? n = some ⟨n, c, .start⟩) (hfits : p.length ≤ Frame.maxSize)
    (hu : w₀.unread = Frame.ofPayload p ++ rest) (hrefuses : v.Refuses p) :
    ∃ x : Exchange v, x.payload = p ∧ x.rest = rest ∧ x.response.verdict = .error
      ∧ Response.decode x.response.encode = .ok x.response
      ∧ ∀ moves w, Run v n w₀ moves w → .stop ∉ moves →
        (Midway n c x w₀ w ∧ busy moves ≤ 8 + p.length + x.response.encode.length
          ∧ ∃ move w', move ≠ .stop ∧ move ≠ .idle ∧ Step v n w move w')
        ∨ ∃ first later between, moves = first ++ later ∧ Run v n w₀ first between
          ∧ Run v n between later w
          ∧ if x.response.encode.length ≤ Frame.maxSize then Answered n c x w₀ between
            else Lost n c stream x w₀ between := by
  obtain ⟨r, hverdict, hanswer⟩ := Service.answer_refused hrefuses
  refine ⟨⟨p, hfits, rest, r, hanswer⟩, rfl, rfl, hverdict, r.decode_encode,
    fun moves w hrun going => ?_⟩
  cases course_run (x := ⟨p, hfits, rest, r, hanswer⟩) hx hp hu hrun going with
  | midway hmidway spent =>
    refine .inl ⟨hmidway, ?_, midway_goes_on hmidway⟩
    have hrest := rest_le_ahead hmidway
    have hall : w₀.ahead n (⟨p, hfits, rest, r, hanswer⟩ : Exchange v)
        = (Frame.ofPayload p ++ rest).length + (Frame.ofPayload r.encode).length := by
      rw [ahead_reading hp, hu]
      rfl
    rw [hall, List.length_append, Frame.length_ofPayload, Frame.length_ofPayload] at spent
    dsimp only at hrest ⊢
    omega
  | past first later between split before settled after =>
    refine .inr ⟨first, later, between, split, before, after, ?_⟩
    cases settled with
    | answered fits h =>
      rw [if_pos fits]
      exact h
    | lost tooLong h =>
      rw [if_neg (Nat.not_le.2 tooLong)]
      exact h

/-- An empty frame is no request. Its answer is short and goes out. -/
theorem refused_frame_empty :
    ∃ (x : Exchange (σ := Unit) ⟨.agent, .empty⟩) (c : Channel Unit) (w₀ w : Visit Unit Unit)
      (moves : List Move),
      x.payload = [] ∧ x.rest = [0, 0, 0, 0] ∧ w₀.unread = [0, 0, 0, 0, 0, 0, 0, 0]
      ∧ x.response.verdict = .error ∧ Run ⟨.agent, .empty⟩ 1 w₀ moves w
      ∧ ∃ first later between, moves = first ++ later ∧ Run ⟨.agent, .empty⟩ 1 w₀ first between
        ∧ Run ⟨.agent, .empty⟩ 1 between later w ∧ Answered 1 c x w₀ between := by
  let w₀ : Visit Unit Unit :=
    .start ((AcceptLoop.overSocket .agent 0).accept () "") () [0, 0, 0, 0, 0, 0, 0, 0]
  obtain ⟨c, hp, hx⟩ : ∃ c, w₀.loop.peer? 1 = some ⟨1, c, .start⟩ ∧ c.stream = some () :=
    ⟨_, rfl, rfl⟩
  obtain ⟨x, hpayload, hrest, hverdict, -, hcourse⟩ :=
    refused_frame (v := (⟨.agent, .empty⟩ : Service Unit)) (p := []) hx hp (by decide)
      (show w₀.unread = Frame.ofPayload [] ++ [0, 0, 0, 0] from rfl) (.inl ⟨_, rfl⟩)
  have hshort : x.response.encode.length ≤ Frame.maxSize := by
    have hanswered := x.answered ()
    rw [hpayload] at hanswered
    injection hanswered with hanswer
    injection hanswer with hresponse
    rw [← hresponse]
    decide +kernel
  have hu : w₀.unread = x.coming := by
    rw [Exchange.coming, hpayload, hrest]
    rfl
  obtain ⟨moves, w, hrun, going, hsettled⟩ :=
    exists_settled hx .nil List.not_mem_nil (midway_start hp hu)
  refine ⟨x, c, w₀, w, moves, hpayload, hrest, rfl, hverdict, hrun, ?_⟩
  rcases hcourse moves w hrun going with ⟨hmidway, -⟩ | ⟨first, later, between, split, before, after, h⟩
  · cases hsettled with
    | answered fits h => exact ⟨moves, [], w, (List.append_nil _).symm, hrun, .nil, h⟩
    | lost tooLong h => exact absurd hshort (Nat.not_le.2 tooLong)
  · rw [if_pos hshort] at h
    exact ⟨first, later, between, split, before, after, h⟩

end Visit

/-! ## An answer that no frame can hold -/

namespace Json

/-- How many bytes the characters of a text are written with. -/
def writtenLength (s : String) : Nat := (s.toList.flatMap writeChar).length

theorem writtenLength_append (a b : String) :
    writtenLength (a ++ b) = writtenLength a + writtenLength b := by
  unfold writtenLength
  rw [String.toList_append, List.flatMap_append, List.length_append]

theorem writtenLength_before (a b : String) : writtenLength a ≤ writtenLength (a ++ b) := by
  rw [writtenLength_append]
  exact Nat.le_add_right _ _

theorem writtenLength_behind (a b : String) : writtenLength b ≤ writtenLength (a ++ b) := by
  rw [writtenLength_append]
  exact Nat.le_add_left _ _

theorem length_writeText (s : String) : (writeText s).length = writtenLength s + 2 := by
  unfold writeText writtenLength
  simp

theorem length_le_writeObject (m : String × Bytes) (k : String) (v : Bytes) :
    v.length ≤ (writeObject [m, (k, v)]).length := by
  unfold writeObject
  simp only [List.map_cons, List.map_nil, commaSeparated, List.length_append, List.length_cons]
  omega

/-- A text of one character over and over. -/
def repeated (c : Char) (count : Nat) : String := String.ofList (List.replicate count c)

theorem writtenLength_repeated (c : Char) (count : Nat) :
    writtenLength (repeated c count) = count * (writeChar c).length := by
  unfold writtenLength repeated
  rw [String.toList_ofList]
  simp

/-- Quoting escapes a text, and writing escapes what was quoted. -/
theorem writtenLength_quoted (c : Char) (count : Nat) :
    count * ((Text.escape c).flatMap writeChar).length
      ≤ writtenLength (Text.quoted (repeated c count)) := by
  unfold writtenLength Text.quoted repeated
  rw [String.toList_ofList, String.toList_ofList, List.flatMap_append, List.flatMap_cons]
  simp [List.flatMap_assoc]
  omega

end Json

/-- A text where the parameters are due is quoted in the fault. -/
theorem Request.decode_params_text (s : String) (e : EndpointName) :
    ∃ position, Request.decode (Json.writeObject [("params", Json.writeText s)]) e
      = .error (.malformedFrame ⟨.wrongType (.text s) "a map", some position⟩) := by
  have hread : schema.read (Json.writeObject [("params", Json.writeText s)])
      = .error (.here (.wrongType (.text s) "a map") [0x7D]) := by
    rw [← List.append_nil (Json.writeObject _)]
    refine Json.Schema.read_writeObject_stop rfl rfl ?_ rfl
    simp only [Json.table_writeText, bind, Except.bind]
    rfl
  unfold decode Json.parse
  rw [hread]
  exact ⟨_, rfl⟩

theorem Response.length_error (m : String) :
    Json.writtenLength m ≤ (Response.error m).encode.length := by
  have hmember := Json.length_le_writeObject ("type", Json.writeText Verdict.error.name) "message"
    (Json.writeText m)
  rw [Json.length_writeText] at hmember
  exact Nat.le_trans (Nat.le_add_right _ 2) hmember

/-- The text in a fault is a part of the response. -/
theorem Service.length_refusal (s : String) (wanted : String) (position : Json.Position) :
    Json.writtenLength (Text.quoted s)
      ≤ (refusal (.malformedFrame ⟨.wrongType (.text s) wanted, some position⟩)).encode.length := by
  calc Json.writtenLength (Text.quoted s)
    _ ≤ Json.writtenLength (Json.Found.text s).describe := Json.writtenLength_behind _ _
    _ ≤ Json.writtenLength ("invalid type: " ++ (Json.Found.text s).describe) :=
      Json.writtenLength_behind _ _
    _ ≤ Json.writtenLength ("invalid type: " ++ (Json.Found.text s).describe ++ ", expected ") :=
      Json.writtenLength_before _ _
    _ ≤ Json.writtenLength (Json.Fault.wrongType (.text s) wanted).message :=
      Json.writtenLength_before _ _
    _ ≤ Json.writtenLength (Json.Error.message ⟨.wrongType (.text s) wanted, some position⟩) := by
      unfold Json.Error.message
      dsimp only
      rw [String.append_assoc, String.append_assoc, String.append_assoc]
      exact Json.writtenLength_before _ _
    _ ≤ Json.writtenLength
        (LinkError.malformedFrame ⟨.wrongType (.text s) wanted, some position⟩).message :=
      Json.writtenLength_behind _ _
    _ ≤ _ := Json.writtenLength_behind _ _
    _ ≤ _ := Response.length_error _

namespace Visit

/-- No request: a text of so many characters that cannot be shown, where the parameters are due. -/
def unshown (count : Nat) : Bytes :=
  Json.writeObject [("params", Json.writeText (Json.repeated '\x7f' count))]

theorem length_unshown (count : Nat) : (unshown count).length = count + 13 := by
  unfold unshown Json.writeObject
  have hlength := Json.length_writeText (Json.repeated '\x7f' count)
  rw [Json.writtenLength_repeated] at hlength
  have hkey : (Json.writeText "params").length = 8 := by decide
  have hone : (Json.writeChar '\x7f').length = 1 := by decide
  simp only [List.map_cons, List.map_nil, Json.commaSeparated, List.length_append, List.length_cons,
    List.length_nil, hlength, hkey, hone]
  omega

/-- Each of the characters takes seven bytes of the response. -/
theorem refuses_unshown {σ : Type} (v : Service σ) (count : Nat) :
    ∃ cause, Request.decode (unshown count) v.endpoint = .error cause
      ∧ 7 * count ≤ (Service.refusal cause).encode.length := by
  obtain ⟨position, hdecode⟩ :=
    Request.decode_params_text (Json.repeated '\x7f' count) v.endpoint
  refine ⟨_, hdecode, ?_⟩
  have hseven : ((Text.escape '\x7f').flatMap Json.writeChar).length = 7 := by decide
  have hquoted := Json.writtenLength_quoted '\x7f' count
  rw [hseven] at hquoted
  have hrefusal := Service.length_refusal (Json.repeated '\x7f' count) "a map" position
  omega

/-- The payload is far from too large for a frame, but no frame can hold the response. Nothing is
written, and the next frame is not read. -/
theorem too_long_to_refuse : (unshown 2400000).length ≤ Frame.maxSize
    ∧ Service.Refuses (σ := Unit) ⟨.agent, .empty⟩ (unshown 2400000)
    ∧ ∃ (moves : List Move) (w : Visit Unit Unit),
      Run ⟨.agent, .empty⟩ 1 (.start ((AcceptLoop.overSocket .agent 0).accept () "") ()
        (Frame.ofPayload (unshown 2400000) ++ Frame.ofPayload [])) moves w
      ∧ .stop ∉ moves ∧ w.loop.peer? 1 = none ∧ w.written = [] ∧ w.unread = Frame.ofPayload [] := by
  have hfits : (unshown 2400000).length ≤ Frame.maxSize := by
    rw [length_unshown]
    decide
  obtain ⟨cause, hdecode, hlength⟩ := refuses_unshown (σ := Unit) ⟨.agent, .empty⟩ 2400000
  let x : Exchange (σ := Unit) ⟨.agent, .empty⟩ :=
    ⟨unshown 2400000, hfits, Frame.ofPayload [], Service.refusal cause, Service.answer_malformed hdecode⟩
  let w₀ : Visit Unit Unit := .start ((AcceptLoop.overSocket .agent 0).accept () "") () x.coming
  have hp : w₀.loop.peer? 1 = some ⟨1, _, .start⟩ := rfl
  obtain ⟨moves, w, hrun, going, hsettled⟩ :=
    exists_settled rfl .nil List.not_mem_nil (midway_start (x := x) hp rfl)
  refine ⟨hfits, .inl ⟨cause, hdecode⟩, moves, w, hrun, going, ?_⟩
  have htoolong : Frame.maxSize < x.response.encode.length :=
    Nat.lt_of_lt_of_le (by decide) hlength
  cases hsettled with
  | answered fits h => exact absurd fits (Nat.not_le.2 htoolong)
  | lost tooLong h => exact ⟨h.peer, h.since.written, h.unread⟩

end Visit
end CommandLink
