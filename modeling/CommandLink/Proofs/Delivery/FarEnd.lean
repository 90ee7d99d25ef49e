import CommandLink.Proofs.Delivery.Net
/-!
# The far end of a stream

What the far end of a stream has done, told by the calls that it has made: what it has taken off the
stream are the frames of its calls and a part of one more, and what it has put on it are the frames of
their responses, for those that are to have one, in the same order.

Results:
* `upto_answer`: a call adds its response, if it is to have one, behind the others.
* `linked_serve`: whatever happens at the far end, it stays so.
-/
namespace CommandLink

section
variable {χ σ : Type} {cs ds : List (Call χ σ)} {out left : Bytes}

/-- The responses that go back for calls, up to the first that never ends. -/
def replies : List (Call χ σ) → List Response
  | [] => []
  | c :: cs =>
    match c.response, c.request.mode with
    | none, _ => []
    | some r, .response => r :: replies cs
    | some _, .noResponse => replies cs

theorem replies_cons_response {c : Call χ σ} {r : Response} (hr : c.response = some r)
    (hm : c.request.mode = .response) (cs : List (Call χ σ)) :
    replies (c :: cs) = r :: replies cs := by
  simp only [replies, hr, hm]

theorem replies_cons_noResponse {c : Call χ σ} {r : Response} (hr : c.response = some r)
    (hm : c.request.mode = .noResponse) (cs : List (Call χ σ)) :
    replies (c :: cs) = replies cs := by
  simp only [replies, hr, hm]

theorem replies_cons_none {c : Call χ σ} (hr : c.response = none) (cs : List (Call χ σ)) :
    replies (c :: cs) = [] := by
  simp only [replies, hr]

theorem replies_append (h : ∀ c ∈ cs, c.response.isSome) (ds : List (Call χ σ)) :
    replies (cs ++ ds) = replies cs ++ replies ds := by
  induction cs with
  | nil => rfl
  | cons c cs ih =>
    obtain ⟨r, hr⟩ := Option.isSome_iff_exists.1 (h c List.mem_cons_self)
    have ih := ih fun d hd => h d (List.mem_cons_of_mem _ hd)
    cases hm : c.request.mode with
    | response =>
      rw [List.cons_append, replies_cons_response hr hm, replies_cons_response hr hm, ih]
      rfl
    | noResponse =>
      rw [List.cons_append, replies_cons_noResponse hr hm, replies_cons_noResponse hr hm, ih]

/-- All calls were answered, and what went out, with what is left to go, are their responses. -/
structure Replied (cs : List (Call χ σ)) (out left : Bytes) : Prop where
  answered : ∀ c ∈ cs, c.response.isSome
  fit : Frame.Fit ((replies cs).map Response.encode)
  all : out ++ left = Frame.stream ((replies cs).map Response.encode)

/-- What went out is a beginning of the responses to calls. -/
def RepliedPartly (cs : List (Call χ σ)) (out : Bytes) : Prop :=
  ∃ rs, rs <+: replies cs ∧ Frame.Fit (rs.map Response.encode)
    ∧ out <+: Frame.stream (rs.map Response.encode)

theorem Replied.partly (h : Replied cs out left) (ds : List (Call χ σ)) :
    RepliedPartly (cs ++ ds) out := by
  refine ⟨replies cs, ?_, h.fit, left, h.all⟩
  rw [replies_append h.answered]
  exact List.prefix_append _ _

/-- How far the serving has come with the calls of a stream, the frame that it reads, and what went
out. -/
def Serving.Upto (cs : List (Call χ σ)) (frame : List (Nat × UInt8)) (out : Bytes) :
    Serving → Prop
  | reading i => i.Sound ∧ frame.map Prod.snd = i.taken ∧ Replied cs out []
  | answering o => o.offered?.isSome ∧ frame = [] ∧ Replied cs out o.left
  | stuck | ended => RepliedPartly cs out

theorem Serving.Upto.partly {c : Serving} {frame : List (Nat × UInt8)} (h : c.Upto cs frame out) :
    RepliedPartly cs out := by
  have hnil : ∀ {left}, Replied cs out left → RepliedPartly cs out := fun hr => by
    have := hr.partly []
    rwa [List.append_nil] at this
  cases c with
  | reading i => exact hnil h.2.2
  | answering o => exact hnil h.2.2
  | stuck => exact h
  | ended => exact h

/-- A call that is answered. -/
theorem Replied.call {c : Call χ σ} (h : Replied cs out []) {r : Response}
    (hr : c.response = some r) (hl : c.request.mode = .response → r.encode.length ≤ Frame.maxSize) :
    Replied (cs ++ [c]) out
      (match c.request.mode with
        | .response => Frame.ofPayload r.encode
        | .noResponse => []) := by
  obtain ⟨hanswered, hfit, hall⟩ := h
  have hanswered' : ∀ d ∈ cs ++ [c], d.response.isSome := fun d hd => by
    rcases List.mem_append.1 hd with hd | hd
    · exact hanswered d hd
    · rw [List.mem_singleton.1 hd, hr]
      rfl
  cases hm : c.request.mode with
  | response =>
    have hreplies : replies (cs ++ [c]) = replies cs ++ [r] := by
      rw [replies_append hanswered, replies_cons_response hr hm]
      rfl
    refine ⟨hanswered', ?_, ?_⟩
    · rw [hreplies, List.map_append]
      intro p hp
      rcases List.mem_append.1 hp with hp | hp
      · exact hfit p hp
      · rw [List.mem_singleton.1 hp]
        exact hl hm
    · rw [hreplies, List.map_append, Frame.stream_append, ← hall, List.append_nil]
      simp
  | noResponse =>
    have hreplies : replies (cs ++ [c]) = replies cs := by
      rw [replies_append hanswered, replies_cons_noResponse hr hm]
      exact List.append_nil _
    exact ⟨hanswered', by rwa [hreplies], by rwa [hreplies]⟩

/-- What becomes of the serving when a call was made. -/
theorem upto_answer {v : Service σ} {p : Bytes} {c : Call χ σ} (h : Replied cs out [])
    (hd : Request.decode p v.endpoint = .ok c.request) (hv : c.service = v) :
    (Serving.afterAnswer (v.answer p c.world).1).Upto (cs ++ [c]) [] out := by
  subst hv
  have hresponse : c.response = (c.service.receivers.dispatch c.request c.world).1 := rfl
  rcases hr : c.service.receivers.dispatch c.request c.world with ⟨_ | r, s⟩
  · simp only [Service.answer, hd, hr, Serving.afterAnswer]
    exact h.partly [c]
  · rw [hr] at hresponse
    cases hm : c.request.mode with
    | noResponse =>
      simp only [Service.answer, hd, hr, hm, Serving.afterAnswer]
      have hcall := h.call hresponse fun hm' => by rw [hm] at hm'; cases hm'
      rw [hm] at hcall
      exact ⟨Frame.Intake.sound_start, rfl, hcall⟩
    | response =>
      simp only [Service.answer, hd, hr, hm, Serving.afterAnswer, Serving.respond]
      cases ho : Frame.Outgoing.start r.encode with
      | error e => exact h.partly [c]
      | ok o =>
        have hcall := h.call hresponse fun _ => Frame.Outgoing.fits_of_start ho
        rw [hm] at hcall
        refine ⟨Frame.Outgoing.offered?_isSome_start ho, rfl, ?_⟩
        rw [Frame.Outgoing.left_start ho]
        exact hcall

/-- The bytes on a stream, told by the calls that were made at its far end: all that were sent over
it, and those that came back. -/
structure Linked (l : Line σ) (cs : List (Call χ σ)) (sent : List (Nat × UInt8)) (got : Bytes) :
    Prop where
  inbound : sent = cs.flatMap Call.frame ++ (l.frame ++ l.toServer)
  upto : l.serving.Upto cs l.frame (got ++ l.toClient)

/-- An event that completes no frame makes no call. -/
theorem Line.serve_none {l : Line σ} {e : Serving.Event} (h : l.serving.payload? l.name e = none)
    (x : χ) (s : σ) : l.calls x e s = [] ∧ (l.serve e s).frame = l.taking e := by
  simp [calls, serve, Serving.handed?, h]

/-- A frame that holds a request is a call. -/
theorem Line.serve_some {l : Line σ} {e : Serving.Event} {p : Bytes} {r : Request}
    (h : l.serving.payload? l.name e = some p) (hd : Request.decode p l.service.endpoint = .ok r)
    (x : χ) (s : σ) :
    l.calls x e s = [⟨x, l.service, l.taking e, r, s⟩] ∧ (l.serve e s).frame = [] := by
  simp [calls, serve, Serving.handed?, h, Service.request?, hd, Except.toOption]

/-- What a read takes up is what it gives. -/
theorem Line.map_snd_taking {l : Line σ} {r : Except IoError Frame.ReadStatus}
    (h : Frame.bytesRead r <+: l.toServer.map Prod.snd) :
    (l.taking (.read r)).map Prod.snd = l.frame.map Prod.snd ++ Frame.bytesRead r := by
  rw [taking, List.map_append, List.map_take]
  exact congrArg _ (List.prefix_iff_eq_take.1 h).symm

/-- A payload that is there was a frame on the stream. -/
theorem Line.taking_payload {l : Line σ} {e : Serving.Event} {p : Bytes}
    (h : l.serving.Upto cs l.frame out) (fits : l.Fits e)
    (hp : l.serving.payload? l.name e = some p) :
    (l.taking e).map Prod.snd = Frame.ofPayload p ∧ p.length ≤ Frame.maxSize := by
  cases hi : l.serving with
  | reading i =>
    cases e with
    | read r =>
      rw [hi] at h hp
      simp only [Line.Fits, hi] at fits
      obtain ⟨hsound, htaken, -⟩ := h
      rw [Line.map_snd_taking fits.1, htaken]
      rcases Frame.Intake.read_wanted l.name hsound fits.2 with ⟨i', he, -⟩ | ⟨q, he, hl, ht, -⟩
          | ⟨he | ⟨cause, he⟩, -⟩
      · simp [Serving.payload?, he] at hp
      · simp only [Serving.payload?, he, Option.some.injEq] at hp
        subst hp
        exact ⟨ht, hl⟩
      · simp [Serving.payload?, he] at hp
      · simp [Serving.payload?, he] at hp
    | _ =>
      rw [hi] at hp
      cases hp
  | _ =>
    rw [hi] at hp
    cases hp

/-- The serving ends. -/
theorem upto_ended {l : Line σ} {e : Serving.Event} {s : σ} (x : χ)
    (h : l.serving.Upto cs l.frame out) (hout : l.serving.bytesOut e = [])
    (hp : l.serving.payload? l.name e = none)
    (hended : (l.serving.step l.service l.name e s).1 = .ended) :
    (l.serve e s).serving.Upto (cs ++ l.calls x e s) (l.serve e s).frame
      (out ++ l.serving.bytesOut e) := by
  rw [hout, (l.serve_none hp x s).1, List.append_nil, List.append_nil]
  simp only [Line.serve, hended]
  exact h.partly

theorem upto_read {l : Line σ} {r : Except IoError Frame.ReadStatus} {i : Frame.Intake} {s : σ}
    (x : χ) (hi : l.serving = .reading i) (h : l.serving.Upto cs l.frame out)
    (hr : Frame.bytesRead r <+: l.toServer.map Prod.snd)
    (hw : (Frame.bytesRead r).length ≤ i.wanted)
    (hpayload : ∀ p, l.serving.payload? l.name (.read r) = some p →
      ∃ request, Request.decode p l.service.endpoint = .ok request) :
    (l.serve (.read r) s).serving.Upto (cs ++ l.calls x (.read r) s) (l.serve (.read r) s).frame
      (out ++ l.serving.bytesOut (.read r)) := by
  have hout : l.serving.bytesOut (.read r) = [] := by rw [hi]; rfl
  have hupto := h
  rw [hi] at hupto
  obtain ⟨hsound, htaken, hreplied⟩ := hupto
  rcases Frame.Intake.read_wanted l.name hsound hw with ⟨i', he, hs, ht, -⟩ | ⟨p, he, -, -, -⟩
      | ⟨he, -⟩
  · -- the frame is still under way
    have hp : l.serving.payload? l.name (.read r) = none := by
      simp only [hi, Serving.payload?, he]
    have hstep : (l.serve (.read r) s).serving = .reading i' := by
      simp only [Line.serve, hi, Serving.step, he]
    obtain ⟨hcalls, hframe⟩ := l.serve_none hp x s
    rw [hout, hcalls, hframe, hstep, List.append_nil, List.append_nil]
    refine ⟨hs, ?_, hreplied⟩
    rw [Line.map_snd_taking hr, htaken, ht]
  · -- the frame is there
    have hp : l.serving.payload? l.name (.read r) = some p := by
      simp only [hi, Serving.payload?, he]
    obtain ⟨request, hd⟩ := hpayload p hp
    have hstep : (l.serve (.read r) s).serving
        = Serving.afterAnswer (l.service.answer p s).1 := by
      simp only [Line.serve, hi, Serving.step, he]
    obtain ⟨hcalls, hframe⟩ := l.serve_some hp hd x s
    rw [hout, hcalls, hframe, hstep, List.append_nil]
    exact upto_answer hreplied hd rfl
  · refine upto_ended x h hout ?_ ?_
    · rcases he with he | ⟨e, he⟩ <;> simp only [hi, Serving.payload?, he]
    · rcases he with he | ⟨e, he⟩ <;> simp only [hi, Serving.step, he]

theorem upto_wrote {l : Line σ} {a : Frame.Acceptance} {o : Frame.Outgoing} {s : σ} (x : χ)
    (ho : l.serving = .answering o) (h : l.serving.Upto cs l.frame out)
    (ha : ∀ n bs, a = .took n → o.offered? = some bs → n ≤ bs.length) :
    (l.serve (.wrote a) s).serving.Upto (cs ++ l.calls x (.wrote a) s) (l.serve (.wrote a) s).frame
      (out ++ l.serving.bytesOut (.wrote a)) := by
  have hp : l.serving.payload? l.name (.wrote a) = none := by rw [ho]; rfl
  have hupto := h
  rw [ho] at hupto
  obtain ⟨hoffered, hframe, hreplied⟩ := hupto
  obtain ⟨bs, hb⟩ := Option.isSome_iff_exists.1 hoffered
  have hout : l.serving.bytesOut (.wrote a) = a.bytesTaken bs := by
    simp only [ho, Serving.bytesOut, hb, Option.elim]
  obtain ⟨hcalls, hframe'⟩ := l.serve_none hp x s
  have htaking : l.taking (.wrote a) = [] := by simp [Line.taking, Serving.bytesIn, hframe]
  rcases Frame.Outgoing.wrote_offered l.name hb fun n hn => ha n bs hn hb with
      ⟨o', he, hl, -⟩ | ⟨e, he, ht⟩
  · have hreplied' : Replied cs (out ++ a.bytesTaken bs) o'.left := by
      refine ⟨hreplied.answered, hreplied.fit, ?_⟩
      rw [List.append_assoc, ← hl]
      exact hreplied.all
    rw [hcalls, hframe', htaking, hout, List.append_nil]
    by_cases hs : o'.offered?.isSome
    · have hstep : (l.serve (.wrote a) s).serving = .answering o' := by
        simp only [Line.serve, ho, Serving.step, he, if_pos hs]
      rw [hstep]
      exact ⟨hs, rfl, hreplied'⟩
    · have hstep : (l.serve (.wrote a) s).serving = .start := by
        simp only [Line.serve, ho, Serving.step, he, if_neg hs]
      have hnil : o'.left = [] := Frame.Outgoing.left_eq_nil.2 (by simpa using hs)
      rw [hnil] at hreplied'
      rw [hstep]
      exact ⟨Frame.Intake.sound_start, rfl, hreplied'⟩
  · refine upto_ended x h (hout.trans ht) hp ?_
    simp only [ho, Serving.step, he]

/-- Whatever happens at the far end, what it has taken off the stream are its calls, and what it has
put on it are their responses. -/
theorem linked_serve {l : Line σ} {sent : List (Nat × UInt8)} {got : Bytes} {e : Serving.Event}
    (x : χ) (s : σ) (h : Linked l cs sent got) (fits : l.Fits e)
    (hpayload : ∀ p, l.serving.payload? l.name e = some p →
      ∃ request, Request.decode p l.service.endpoint = .ok request) :
    Linked (l.serve e s) (cs ++ l.calls x e s) sent got := by
  obtain ⟨hinbound, hupto⟩ := h
  constructor
  · have htake : l.taking e ++ (l.serve e s).toServer = l.frame ++ l.toServer := by
      simp only [Line.taking, Line.serve, List.append_assoc, List.take_append_drop]
    cases hp : l.serving.payload? l.name e with
    | none =>
      obtain ⟨hcalls, hframe⟩ := l.serve_none hp x s
      rw [hcalls, hframe, htake, List.append_nil]
      exact hinbound
    | some p =>
      obtain ⟨request, hd⟩ := hpayload p hp
      obtain ⟨hcalls, hframe⟩ := l.serve_some hp hd x s
      rw [hcalls, hframe, List.flatMap_append, List.flatMap_singleton, List.nil_append,
        List.append_assoc, htake]
      exact hinbound
  · have hout : got ++ (l.serve e s).toClient = got ++ l.toClient ++ l.serving.bytesOut e := by
      rw [List.append_assoc]
      rfl
    rw [hout]
    cases e with
    | shutdown =>
      have hp : l.serving.payload? l.name .shutdown = none := by cases l.serving <;> rfl
      have hnone : l.serving.bytesOut .shutdown = [] := by cases l.serving <;> rfl
      exact upto_ended x hupto hnone hp (congrArg Prod.fst (l.serving.step_shutdown _ _ _))
    | read r =>
      cases hi : l.serving with
      | reading i =>
        simp only [Line.Fits, hi] at fits
        rw [← hi]
        exact upto_read x hi hupto fits.1 fits.2 hpayload
      | _ => simp [Line.Fits, hi] at fits
    | wrote a =>
      cases ho : l.serving with
      | answering o =>
        simp only [Line.Fits, ho] at fits
        rw [← ho]
        exact upto_wrote x ho hupto fits
      | _ => simp [Line.Fits, ho] at fits

end
end CommandLink
