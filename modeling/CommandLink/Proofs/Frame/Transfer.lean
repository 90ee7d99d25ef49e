import CommandLink.Proofs.Frame.Stream
/-!
# Frames from one side to the other

Payloads are sent one after another, in as many write calls as it takes, and received one after
another, from reads that may cut the stream anywhere. Neither side knows of the other's calls: what
they agree on is the stream of frames between them.

Results:
* `transmit_goesOn`: a frame goes out as a whole, whatever the write calls take of it.
* `receive_frame`: a frame comes in as a whole, whatever the reads give of it, and what is behind it
  is left for the next.
* `frames_arrive`: what is received is what was sent, and then the end.
-/
namespace CommandLink.Frame

/-- Sends payloads one after another: how each of them went, and all bytes that were taken. -/
def sendAll (channel : String) :
    List Bytes → List Acceptance → List (Except LinkError Unit) × Bytes
  | [], _ => ([], [])
  | p :: ps, calls =>
    let t := send channel p calls
    let (outcomes, written) := sendAll channel ps t.later
    (t.outcome :: outcomes, t.written ++ written)

/-- Receives so many times, one time after another. -/
def receiveTimes (channel : String) :
    Nat → List (Except IoError ReadStatus) → List (Except LinkError (Option Bytes))
  | 0, _ => []
  | n + 1, reads =>
    let (outcome, left) := receive channel .start reads
    outcome :: receiveTimes channel n left

/-- The bytes that reads give, one read after another. -/
def allRead (reads : List (Except IoError ReadStatus)) : Bytes := reads.flatMap bytesRead

@[simp] theorem allRead_cons (r : Except IoError ReadStatus)
    (reads : List (Except IoError ReadStatus)) :
    allRead (r :: reads) = bytesRead r ++ allRead reads := rfl

/-! ## Sending -/

/-- Write calls that take at least a byte each, as long as there is one to take, get the frame out. -/
theorem transmit_goesOn (channel : String) (o : Outgoing) {calls : List Acceptance}
    (hc : ∀ a ∈ calls, a.goesOn) :
    (transmit channel o calls).outcome = .ok () ∧ (transmit channel o calls).written = o.left
      ∧ ∀ a ∈ (transmit channel o calls).later, a.goesOn := by
  induction calls generalizing o with
  | nil => exact ⟨rfl, rfl, fun a ha => absurd ha (by simp [transmit])⟩
  | cons a as ih =>
    have has : ∀ b ∈ as, b.goesOn := fun b hb => hc b (List.mem_cons_of_mem _ hb)
    cases ho : o.offered? with
    | none =>
      simp only [transmit, ho]
      exact ⟨trivial, (Outgoing.left_eq_nil.2 ho).symm, hc⟩
    | some p =>
      cases a with
      | failed e => cases hc _ List.mem_cons_self
      | took n =>
        -- what is offered is never nothing, so a call that would take a byte takes one
        have hn : n ≠ 0 := by simpa [Acceptance.goesOn] using hc _ List.mem_cons_self
        have hp : 0 < p.length := List.length_pos_iff.2 (Outgoing.offered?_ne_nil ho)
        obtain ⟨m, hm⟩ : ∃ m, min n p.length = m + 1 := ⟨min n p.length - 1, by omega⟩
        have hw : o.wrote channel (.took (m + 1)) = .ok (o.advance (m + 1)) := rfl
        have hleft := Outgoing.left_wrote ho (by omega) hw
        obtain ⟨hok, hwritten, hlater⟩ := ih (o.advance (m + 1)) has
        simp only [transmit, ho, hm, hw, hok, hwritten, hleft]
        exact ⟨trivial, trivial, hlater⟩

theorem send_goesOn (channel : String) {payload : Bytes} (hp : payload.length ≤ maxSize)
    {calls : List Acceptance} (hc : ∀ a ∈ calls, a.goesOn) :
    (send channel payload calls).outcome = .ok ()
      ∧ (send channel payload calls).written = ofPayload payload
      ∧ ∀ a ∈ (send channel payload calls).later, a.goesOn := by
  obtain ⟨o, ho⟩ : ∃ o, Outgoing.start payload = .ok o := ⟨_, if_pos hp⟩
  simp only [send, ho, ← Outgoing.left_start ho]
  exact transmit_goesOn channel o hc

theorem sendAll_goesOn (channel : String) {payloads : List Bytes} (hp : Fit payloads)
    {calls : List Acceptance} (hc : ∀ a ∈ calls, a.goesOn) :
    sendAll channel payloads calls = (payloads.map fun _ => .ok (), stream payloads) := by
  induction payloads generalizing calls with
  | nil => rfl
  | cons p ps ih =>
    obtain ⟨hok, hwritten, hlater⟩ := send_goesOn channel (hp p List.mem_cons_self) hc
    simp only [sendAll, hok, hwritten, ih (fun q hq => hp q (List.mem_cons_of_mem _ hq)) hlater,
      List.map_cons, stream_cons]

/-! ## Receiving -/

/-- Bytes of a read that were not wanted are there for the next ones. -/
theorem allRead_putBack (rest : Bytes) (reads : List (Except IoError ReadStatus)) :
    allRead (putBack rest reads) = rest ++ allRead reads := by
  unfold putBack
  split
  · next h => rw [List.isEmpty_iff.1 h, List.nil_append]
  · rfl

theorem goesOn_putBack (rest : Bytes) {reads : List (Except IoError ReadStatus)}
    (hr : ∀ r ∈ reads, goesOn r) : ∀ r ∈ putBack rest reads, goesOn r := by
  unfold putBack
  split
  · exact hr
  · intro r h
    rcases List.mem_cons.1 h with rfl | h
    · rfl
    · exact hr r h

/-- A frame in front of what is taken up and what the reads still give is received, and the reads
that are left give what is behind it. -/
theorem receive_frame (channel : String) {i : Intake} (hi : i.Sound)
    {reads : List (Except IoError ReadStatus)} (hr : ∀ r ∈ reads, goesOn r) {p rest : Bytes}
    (hp : p.length ≤ maxSize) (h : i.taken ++ allRead reads = ofPayload p ++ rest) :
    ∃ left, receive channel i reads = (.ok (some p), left) ∧ (∀ r ∈ left, goesOn r)
      ∧ allRead left = rest := by
  induction reads generalizing i with
  | nil =>
    rw [show allRead [] = [] from rfl, List.append_nil] at h
    exact absurd h (Intake.taken_ne_ofPayload hi hp rest)
  | cons r reads ih =>
    have hr' : ∀ r ∈ reads, goesOn r := fun r h => hr r (List.mem_cons_of_mem _ h)
    match r, hr _ List.mem_cons_self with
    | .ok .empty, _ => exact ih hi hr' h
    | .ok (.data bs), _ =>
      rw [allRead_cons, bytesRead, ← List.append_assoc] at h
      simp only [receive, Intake.read]
      rcases Intake.feed_taken hi bs with ⟨i', he, hs, ht⟩ | ⟨q, spare, he, hq, ht, -⟩
        | ⟨header, spare, he, h4, hmax, ht, -⟩
      · simp only [he]
        exact ih hs hr' (by rw [ht, h])
      · -- the stream begins with one frame only
        rw [ht, List.append_assoc] at h
        obtain ⟨rfl, hrest⟩ := ofPayload_append_inj hq hp h
        simp only [he]
        exact ⟨_, rfl, goesOn_putBack spare hr', by rw [allRead_putBack, hrest]⟩
      · rw [ht, List.append_assoc, ofPayload, List.append_assoc] at h
        obtain ⟨rfl, -⟩ := List.append_inj h (by rw [h4, Bytes.length_big32])
        rw [ofBig_header hp] at hmax
        omega

/-- Where the reads give nothing any more, the end is found. -/
theorem receive_end (channel : String) {reads : List (Except IoError ReadStatus)}
    (hr : ∀ r ∈ reads, goesOn r) (h : allRead reads = []) :
    receive channel .start reads = (.ok none, []) := by
  induction reads with
  | nil => rfl
  | cons r reads ih =>
    have hr' : ∀ r ∈ reads, goesOn r := fun r h => hr r (List.mem_cons_of_mem _ h)
    obtain ⟨hnone, hall⟩ := List.append_eq_nil_iff.1 h
    match r, hr _ List.mem_cons_self, hnone with
    | .ok .empty, _, _ => exact ih hr' hall
    | .ok (.data bs), _, hbs =>
      obtain rfl : bs = [] := hbs
      exact ih hr' hall

theorem receiveTimes_end (channel : String) (n : Nat) {reads : List (Except IoError ReadStatus)}
    (hr : ∀ r ∈ reads, goesOn r) (h : allRead reads = []) :
    receiveTimes channel n reads = List.replicate n (.ok none) := by
  induction n generalizing reads with
  | zero => rfl
  | succ n ih =>
    simp only [receiveTimes, receive_end channel hr h]
    rw [ih (fun r h => absurd h (by simp)) rfl]
    rfl

theorem receiveTimes_stream (channel : String) (n : Nat) {payloads : List Bytes}
    (hp : Fit payloads) {reads : List (Except IoError ReadStatus)} (hr : ∀ r ∈ reads, goesOn r)
    (h : allRead reads = stream payloads) :
    receiveTimes channel (payloads.length + n) reads
      = (payloads.map fun p => .ok (some p)) ++ List.replicate n (.ok none) := by
  induction payloads generalizing reads with
  | nil => simpa using receiveTimes_end channel n hr h
  | cons p ps ih =>
    obtain ⟨left, hreceive, hleft, hrest⟩ := receive_frame channel Intake.sound_start hr
      (hp p List.mem_cons_self) h
    rw [List.length_cons, Nat.add_right_comm]
    simp only [receiveTimes, hreceive]
    rw [ih (fun q hq => hp q (List.mem_cons_of_mem _ hq)) hleft hrest]
    rfl

/-! ## Both sides -/

/-- Payloads that each fit a frame are sent without a fault, whatever of them each write call takes,
if it takes anything. However the bytes fall into reads, with any number of reads in between that
find nothing there yet, they are received in the order of sending, and each receive behind them finds
the end. -/
theorem frames_arrive (sender receiver : String) {payloads : List Bytes} (hp : Fit payloads)
    {calls : List Acceptance} (hc : ∀ a ∈ calls, ∃ n, 0 < n ∧ a = .took n)
    {reads : List (Except IoError ReadStatus)}
    (hr : ∀ r ∈ reads, r = .ok .empty ∨ ∃ bs, r = .ok (.data bs))
    (hall : allRead reads = (sendAll sender payloads calls).2) (n : Nat) :
    (∀ outcome ∈ (sendAll sender payloads calls).1, outcome = .ok ())
      ∧ receiveTimes receiver (payloads.length + n) reads
        = (payloads.map fun p => .ok (some p)) ++ List.replicate n (.ok none) := by
  have hcalls : ∀ a ∈ calls, a.goesOn := fun a ha => by
    obtain ⟨m, hm, rfl⟩ := hc a ha
    simpa [Acceptance.goesOn] using Nat.ne_of_gt hm
  have hreads : ∀ r ∈ reads, goesOn r := fun r h => by
    rcases hr r h with rfl | ⟨bs, rfl⟩ <;> rfl
  rw [sendAll_goesOn sender hp hcalls] at hall ⊢
  refine ⟨fun outcome ho => ?_, receiveTimes_stream receiver n hp hreads hall⟩
  obtain ⟨p, -, rfl⟩ := List.mem_map.1 ho
  rfl

/-- An empty payload and one of the greatest size, cut in the middle of the first header. -/
theorem frames_arrive_greatest :
    receiveTimes "b" 3
        [.ok (.data ((sendAll "a" [[], List.replicate maxSize 7] [.took 1, .took 9]).2.take 3)),
          .ok .empty,
          .ok (.data ((sendAll "a" [[], List.replicate maxSize 7] [.took 1, .took 9]).2.drop 3))]
      = [.ok (some []), .ok (some (List.replicate maxSize 7)), .ok none] := by
  have hfit : Fit [[], List.replicate maxSize 7] := fun p hp => by
    rcases List.mem_cons.1 hp with rfl | hp
    · exact Nat.zero_le _
    · rw [List.mem_singleton.1 hp]
      exact Nat.le_of_eq List.length_replicate
  have hcalls : ∀ a ∈ [Acceptance.took 1, .took 9], ∃ n, 0 < n ∧ a = .took n := by simp
  refine (frames_arrive "a" "b" hfit hcalls ?_ ?_ 1).2
  · simp
  · simp [allRead, bytesRead]

end CommandLink.Frame
