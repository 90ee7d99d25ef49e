import CommandLink.Serve
import CommandLink.Proofs.Frame.Stream
/-!
# What a whole stream is answered with

Serving a peer comes to a function of the bytes that the peer sends. The bytes fall into frames, and
each frame that holds a request is dispatched and answered before the next one; the function says
what is written back, which requests are handed over, what this makes of the receivers' world and
where reading stops.

Results:
* `transcript_tail`, `transcript_ofPayload`: the transcript of a stream, by what it begins with.
* `fed_remaining`, `wrote_remaining`, `eof_remaining`: a read and a write do the next piece of the
  transcript and leave the rest of it to do.
* `step_world`: the receivers' world changes where a request is handed over, and nowhere else.
-/
namespace CommandLink

/-- What serving a peer comes to. -/
structure Transcript (σ : Type) where
  written : Bytes
  /-- The requests that are handed to the receivers. -/
  handed : List Request
  /-- What the requests have made of the receivers' world. -/
  world : σ
  /-- What the peer has sent and nobody reads. -/
  unread : Bytes

namespace Transcript
variable {σ : Type}

/-- Nothing more happens. -/
def done (s : σ) (unread : Bytes) : Transcript σ := ⟨[], [], s, unread⟩

/-- The transcript when something was written and handed over before. -/
def behind (written : Bytes) (handed : List Request) (t : Transcript σ) : Transcript σ :=
  { t with written := written ++ t.written, handed := handed ++ t.handed }

theorem behind_behind (w w' : Bytes) (h h' : List Request) (t : Transcript σ) :
    (t.behind w' h').behind w h = t.behind (w ++ w') (h ++ h') := by
  simp [behind]

end Transcript

namespace Service
variable {σ : Type}

/-- Every receiver returns, fails or breaks down in the end. -/
def Answers (v : Service σ) : Prop :=
  ∀ name receiver, v.receivers.get? name = some receiver →
    ∀ request s, (receiver.receive request s).1 ≠ .never

/-- The request that a payload is, if it is one. -/
def request? (v : Service σ) (payload : Bytes) : Option Request :=
  (Request.decode payload v.endpoint).toOption

/-- The response to a payload, where there is to be one, and the world behind it. -/
def reply (v : Service σ) (payload : Bytes) (s : σ) : Option Response × σ :=
  match Request.decode payload v.endpoint with
  | .error cause => (some (.error ("malformed request: " ++ cause.message)), s)
  | .ok request =>
    match request.mode with
    | .response => v.receivers.dispatch request s
    | .noResponse => (none, (v.receivers.dispatch request s).2)

/-- What is left unread of a stream that begins with no complete frame: whatever stands behind the
header of a frame that is too large. -/
def beyond (tail : Bytes) : Bytes :=
  if 4 ≤ tail.length ∧ Frame.maxSize < Bytes.ofBig (tail.take 4) then tail.drop 4 else []

/-- What serving payloads one after another comes to, with a tail behind them that begins with no
complete frame. The first response that no frame can hold ends it. -/
def transcriptOf (v : Service σ) : List Bytes → Bytes → σ → Transcript σ
  | [], tail, s => .done s (beyond tail)
  | p :: ps, tail, s =>
    let handed := (v.request? p).toList
    match v.reply p s with
    | (none, s) => (v.transcriptOf ps tail s).behind [] handed
    | (some r, s) =>
      if r.encode.length ≤ Frame.maxSize then
        (v.transcriptOf ps tail s).behind (Frame.ofPayload r.encode) handed
      else (Transcript.done s (Frame.stream ps ++ tail)).behind [] handed

/-- What serving a peer that sends these bytes comes to. -/
def transcript (v : Service σ) (input : Bytes) (s : σ) : Transcript σ :=
  v.transcriptOf (Frame.split input).1 (Frame.split input).2 s

theorem transcript_tail (v : Service σ) {tail : Bytes} (h : Frame.first? tail = none) (s : σ) :
    v.transcript tail s = .done s (beyond tail) := by
  rw [transcript, Frame.split_of_none h]
  rfl

theorem transcript_ofPayload (v : Service σ) {p : Bytes} (hp : p.length ≤ Frame.maxSize)
    (rest : Bytes) (s : σ) :
    v.transcript (Frame.ofPayload p ++ rest) s =
      match v.reply p s with
      | (none, s) => (v.transcript rest s).behind [] (v.request? p).toList
      | (some r, s) =>
        if r.encode.length ≤ Frame.maxSize then
          (v.transcript rest s).behind (Frame.ofPayload r.encode) (v.request? p).toList
        else (Transcript.done s rest).behind [] (v.request? p).toList := by
  have hrest := (Frame.split_append rest).2.1
  rw [transcript, Frame.split_ofPayload hp, transcriptOf, ← hrest]
  rfl

/-- A receiver that does not fall silent gives a response, and an unknown one does too. -/
theorem dispatch_isSome {v : Service σ} (hv : v.Answers) (request : Request) (s : σ) :
    ∃ r, (v.receivers.dispatch request s).1 = some r := by
  cases h : v.receivers.get? request.receiver with
  | none => exact ⟨_, by rw [Registry.dispatch_unknown h]⟩
  | some receiver =>
    rw [Registry.dispatch_known h]
    cases hr : (receiver.receive request s).1 with
    | response r => exact ⟨_, rfl⟩
    | failure reasons => exact ⟨_, rfl⟩
    | breakdown lastWord => exact ⟨_, rfl⟩
    | never => exact absurd hr (hv _ _ h request s)

/-- What a frame is answered with, told by the response to it. -/
theorem answer_eq_reply {v : Service σ} (hv : v.Answers) (p : Bytes) (s : σ) :
    v.answer p s = (((v.reply p s).1.elim .silence .response), (v.reply p s).2) := by
  simp only [answer, reply]
  cases hd : Request.decode p v.endpoint with
  | error cause => rfl
  | ok request =>
    obtain ⟨r, hr⟩ := dispatch_isSome hv request s
    simp only
    rcases hp : v.receivers.dispatch request s with ⟨response, s'⟩
    rw [hp] at hr
    cases hr
    cases request.mode <;> rfl

end Service

namespace Serving
variable {σ : Type}

/-- What is still to be done for a peer that has sent, beyond what is taken up, these bytes. -/
def remaining (v : Service σ) (unread : Bytes) (s : σ) : Serving → Transcript σ
  | reading i => v.transcript (i.taken ++ unread) s
  | answering o => (v.transcript unread s).behind o.left []
  | stuck | ended => .done s unread

/-- A serving that waits for bytes it wants or has bytes to offer. -/
def Sound : Serving → Prop
  | reading i => i.Sound
  | answering o => o.offered?.isSome
  | stuck => False
  | ended => True

/-- The payload whose frame an event completes. -/
def payload? (channel : String) (c : Serving) (e : Event) : Option Bytes :=
  match c, e with
  | reading i, .read r =>
    match (i.read channel r).1 with
    | .inr (.ok payload) => payload
    | _ => none
  | _, _ => none

/-- The request that an event hands to the receivers. -/
def handed? (v : Service σ) (channel : String) (c : Serving) (e : Event) : Option Request :=
  (c.payload? channel e).bind v.request?

theorem sound_start : start.Sound := Frame.Intake.sound_start

/-- Behind an answer, the rest of the transcript remains. -/
theorem afterAnswer_remaining {v : Service σ} (hv : v.Answers) {p : Bytes}
    (hp : p.length ≤ Frame.maxSize) (rest : Bytes) (s : σ) :
    (afterAnswer (v.answer p s).1).Sound ∧
      ((afterAnswer (v.answer p s).1).remaining v rest (v.answer p s).2).behind []
        (v.request? p).toList = v.transcript (Frame.ofPayload p ++ rest) s := by
  rw [v.transcript_ofPayload hp, Service.answer_eq_reply hv]
  obtain ⟨response, s'⟩ := v.reply p s
  cases response with
  | none => exact ⟨sound_start, rfl⟩
  | some r =>
    simp only [Option.elim, afterAnswer, respond]
    by_cases hfits : r.encode.length ≤ Frame.maxSize
    · obtain ⟨o, ho⟩ : ∃ o, Frame.Outgoing.start r.encode = .ok o := ⟨_, if_pos hfits⟩
      rw [if_pos hfits, ho]
      refine ⟨Frame.Outgoing.offered?_isSome_start ho, ?_⟩
      simp only [remaining, Frame.Outgoing.left_start ho, Transcript.behind_behind,
        List.nil_append, List.append_nil]
    · rw [if_neg hfits, Frame.Outgoing.start, if_neg hfits]
      exact ⟨trivial, rfl⟩

/-- A stream that begins with a header of a frame that is too large begins with no frame. -/
theorem first?_tooLarge {size : Nat} {bs : Bytes} (h4 : bs.length = 4)
    (hbig : Bytes.ofBig bs = size) (hsize : Frame.maxSize < size) (rest : Bytes) :
    Frame.first? (bs ++ rest) = none ∧ Service.beyond (bs ++ rest) = rest := by
  have htake : (bs ++ rest).take 4 = bs := List.take_left' h4
  have hdrop : (bs ++ rest).drop 4 = rest := List.drop_left' h4
  constructor
  · simp only [Frame.first?, htake, hbig]
    rw [if_neg (by omega)]
  · simp only [Service.beyond, htake, hdrop, hbig]
    rw [if_pos ⟨by rw [List.length_append]; omega, hsize⟩]

/-- A read of bytes that are wanted hands over at most one request, and the rest of the transcript
remains. -/
theorem fed_remaining {v : Service σ} (hv : v.Answers) (channel : String) {i : Frame.Intake}
    (hi : i.Sound) {bs : Bytes} (hb : bs.length ≤ i.wanted) (rest : Bytes) (s : σ) :
    ((reading i).step v channel (.read (.ok (.data bs))) s).1.Sound ∧
      (((reading i).step v channel (.read (.ok (.data bs))) s).1.remaining v rest
          ((reading i).step v channel (.read (.ok (.data bs))) s).2).behind []
        ((reading i).handed? v channel (.read (.ok (.data bs)))).toList
          = (reading i).remaining v (bs ++ rest) s := by
  rcases Frame.Intake.feed_wanted hi hb with ⟨i', he, hs, ht⟩ | ⟨p, he, hp, ht⟩
      | ⟨size, he, hsize, ht, hbig⟩
  · simp only [step, handed?, payload?, Frame.Intake.read, he, remaining]
    refine ⟨hs, ?_⟩
    rw [ht, ← List.append_assoc]
    rfl
  · simp only [step, handed?, payload?, Frame.Intake.read, he, remaining]
    rw [← List.append_assoc, ht]
    exact afterAnswer_remaining hv hp rest s
  · simp only [step, handed?, payload?, Frame.Intake.read, he, remaining]
    have h4 : (i.taken ++ bs).length = 4 := by rw [ht, Bytes.length_big32]
    obtain ⟨hf, hbeyond⟩ := first?_tooLarge h4 hbig hsize rest
    rw [← List.append_assoc, v.transcript_tail hf, hbeyond]
    exact ⟨trivial, rfl⟩

/-- What an intake has taken up is the beginning of no complete frame and of no frame that is too
large. -/
theorem first?_taken {i : Frame.Intake} (hi : i.Sound) :
    Frame.first? i.taken = none ∧ Service.beyond i.taken = [] := by
  constructor
  · cases h : Frame.first? i.taken with
    | none => rfl
    | some q =>
      obtain ⟨hp, he⟩ := Frame.first?_eq_some.1 h
      exact absurd he (Frame.Intake.taken_ne_ofPayload hi hp _)
  · cases i with
    | header got =>
      simp only [Frame.Intake.Sound] at hi
      exact if_neg (fun h => by simp only [Frame.Intake.taken] at h; omega)
    | body size got =>
      obtain ⟨hsize, -⟩ := hi
      have htake : (Bytes.big32 size ++ got).take 4 = Bytes.big32 size :=
        List.take_left' (Bytes.length_big32 size)
      have hof : Bytes.ofBig (Bytes.big32 size) = size :=
        Bytes.ofBig_big32 (by simp only [Frame.maxSize] at hsize; omega)
      refine if_neg fun h => ?_
      rw [Frame.Intake.taken, htake, hof] at h
      omega

/-- Once the peer is done, nothing remains. -/
theorem eof_remaining (v : Service σ) (channel : String) {i : Frame.Intake} (hi : i.Sound)
    (s : σ) :
    (reading i).step v channel (.read (.ok .eof)) s = (ended, s) ∧
      (reading i).handed? v channel (.read (.ok .eof)) = none ∧
      (reading i).remaining v [] s = .done s [] := by
  have hover : (reading i).step v channel (.read (.ok .eof)) s = (ended, s) ∧
      (reading i).handed? v channel (.read (.ok .eof)) = none := by
    cases i with
    | header got => cases got <;> exact ⟨rfl, rfl⟩
    | body size got => exact ⟨rfl, rfl⟩
  obtain ⟨hf, hbeyond⟩ := first?_taken hi
  refine ⟨hover.1, hover.2, ?_⟩
  rw [remaining, List.append_nil, v.transcript_tail hf, hbeyond]

/-- A write takes bytes off the front of what remains to be written. -/
theorem wrote_remaining (v : Service σ) (channel : String) {o : Frame.Outgoing} {bs : Bytes}
    (ho : o.offered? = some bs) {k : Nat} (hk : 0 < k) (hkl : k ≤ bs.length) (rest : Bytes)
    (s : σ) :
    ((answering o).step v channel (.wrote (.took k)) s).2 = s ∧
    ((answering o).step v channel (.wrote (.took k)) s).1.Sound ∧
      (((answering o).step v channel (.wrote (.took k)) s).1.remaining v rest s).behind
        (bs.take k) [] = (answering o).remaining v rest s := by
  obtain ⟨n, rfl⟩ : ∃ n, k = n + 1 := ⟨k - 1, by omega⟩
  have hw : o.wrote channel (.took (n + 1)) = .ok (o.advance (n + 1)) := rfl
  have hleft := Frame.Outgoing.left_wrote ho hkl hw
  simp only [step, hw]
  split
  · next hs =>
    refine ⟨trivial, hs, ?_⟩
    simp only [remaining, Transcript.behind_behind, List.nil_append, hleft]
  · next hs =>
    have hnil : (o.advance (n + 1)).left = [] := by
      have : (o.advance (n + 1)).parts = [] := by
        simpa [Frame.Outgoing.offered?] using hs
      rw [Frame.Outgoing.left, this]
      rfl
    refine ⟨trivial, sound_start, ?_⟩
    simp only [remaining, start, Frame.Intake.taken_start, List.nil_append, hleft, hnil,
      List.append_nil]

/-- Answering a payload changes the receivers' world only if the payload is a request. -/
theorem answer_world (v : Service σ) (payload : Bytes) (s : σ) :
    (v.answer payload s).2 =
      (v.request? payload).elim s fun r => (v.receivers.dispatch r s).2 := by
  simp only [Service.answer, Service.request?]
  cases Request.decode payload v.endpoint with
  | error cause => rfl
  | ok request =>
    simp only [Except.toOption, Option.elim]
    rcases v.receivers.dispatch request s with ⟨_ | response, s'⟩
    · rfl
    · cases request.mode <;> rfl

/-- Only the request that is handed over changes the receivers' world. -/
theorem step_world (v : Service σ) (channel : String) (c : Serving) (e : Event) (s : σ) :
    (c.step v channel e s).2 =
      (c.handed? v channel e).elim s fun r => (v.receivers.dispatch r s).2 := by
  cases c with
  | reading i =>
    cases e with
    | read r =>
      simp only [step, handed?, payload?]
      rcases (i.read channel r).1 with i' | e | _ | payload
      · rfl
      · rfl
      · rfl
      · exact answer_world v payload s
    | wrote a => rfl
    | shutdown => rfl
  | answering o =>
    cases e with
    | read r => rfl
    | wrote a =>
      simp only [step, handed?]
      split <;> rfl
    | shutdown => rfl
  | stuck => cases e <;> rfl
  | ended => cases e <;> rfl

end Serving
end CommandLink
