import CommandLink.Proofs.Frame.Transfer
/-!
# What is received of a stream

A stream of bytes says by itself what each call of receiving comes to: a frame, a header that announces
too much, an end between frames or one inside a frame. How the bytes fall into reads says nothing more,
and each read asks only for bytes of the call's own frame.

Results:
* `receive_parse`, `receiveTimes_parse`: receiving from any reads is parsing the bytes they give.
* `receive_within`, `receive_beyond`: how a call gets to the end of some reads, or stops before it.
* `asked_receive`: a call takes what it takes in reads that ask for no more than is wanted.
* `receive_error`, `readsAfter_error`: what calls come to when a read fails.
* `receive_by_bytes`: what every call comes to, by the bytes from its offset on.
-/
namespace CommandLink.Frame

/-- What reads come to, one after another. -/
abbrev Reads := List (Except IoError ReadStatus)

/-- What a call of receiving comes to. -/
abbrev Received := Except LinkError (Option Bytes)

/-! ## The parser by bytes alone -/

/-- The length that the first four bytes of a stream announce. -/
def announced (bs : Bytes) : Nat := Bytes.ofBig (bs.take 4)

/-- A stream that ends before its first frame does: within the header, or within a payload that is not
too large. -/
def Unfinished (bs : Bytes) : Prop :=
  bs.length < 4 ∨ announced bs ≤ maxSize ∧ bs.length < 4 + announced bs

def endedInside (channel : String) : LinkError :=
  .io ⟨.unexpectedEof, channel ++ ": peer closed mid-frame"⟩

/-- What is at the front of a stream, and what is behind that. -/
def parse (channel : String) (bs : Bytes) : Received × Bytes :=
  if bs = [] then (.ok none, [])
  else if bs.length < 4 then (.error (endedInside channel), [])
  else if maxSize < announced bs then (.error (.frameTooLarge (announced bs)), bs.drop 4)
  else if bs.length < 4 + announced bs then (.error (endedInside channel), [])
  else (.ok (some ((bs.drop 4).take (announced bs))), bs.drop (4 + announced bs))

/-- What is at the front of a stream, of what is behind that, and so on, so many times. -/
def parseTimes (channel : String) : Nat → Bytes → List Received
  | 0, _ => []
  | n + 1, bs => (parse channel bs).1 :: parseTimes channel n (parse channel bs).2

theorem parse_unfinished (channel : String) {bs : Bytes} (h : Unfinished bs) :
    parse channel bs = (if bs = [] then .ok none else .error (endedInside channel), []) := by
  unfold parse
  by_cases hnil : bs = []
  · rw [if_pos hnil, if_pos hnil]
  rw [if_neg hnil, if_neg hnil]
  by_cases hshort : bs.length < 4
  · rw [if_pos hshort]
  obtain ⟨hmax, hlen⟩ := h.resolve_left hshort
  rw [if_neg hshort, if_neg (Nat.not_lt.2 hmax), if_pos hlen]

theorem announced_append {header : Bytes} (h : header.length = 4) (rest : Bytes) :
    announced (header ++ rest) = Bytes.ofBig header := by
  rw [announced, List.take_left' h]

theorem announced_ofPayload {p : Bytes} (hp : p.length ≤ maxSize) (rest : Bytes) :
    announced (ofPayload p ++ rest) = p.length := by
  rw [ofPayload, List.append_assoc, announced_append (Bytes.length_big32 _), ofBig_header hp]

theorem not_unfinished_ofPayload {p : Bytes} (hp : p.length ≤ maxSize) (rest : Bytes) :
    ¬Unfinished (ofPayload p ++ rest) := by
  unfold Unfinished
  rw [announced_ofPayload hp, List.length_append, length_ofPayload]
  omega

theorem drop_ofPayload (p rest : Bytes) : (ofPayload p ++ rest).drop 4 = p ++ rest := by
  rw [ofPayload, List.append_assoc, List.drop_left' (Bytes.length_big32 _)]

theorem parse_ofPayload (channel : String) {p : Bytes} (hp : p.length ≤ maxSize) (rest : Bytes) :
    parse channel (ofPayload p ++ rest) = (.ok (some p), rest) := by
  have hlen : (ofPayload p ++ rest).length = 4 + p.length + rest.length := by
    rw [List.length_append, length_ofPayload]
  have hnil : ofPayload p ++ rest ≠ [] := by simp [ofPayload_ne_nil]
  unfold parse
  rw [if_neg hnil, if_neg (by omega), announced_ofPayload hp, if_neg (Nat.not_lt.2 hp),
    if_neg (by omega), ← List.drop_drop, drop_ofPayload, List.take_left, List.drop_left]

theorem parse_tooLarge (channel : String) {header : Bytes} (h4 : header.length = 4)
    (hmax : maxSize < Bytes.ofBig header) (rest : Bytes) :
    parse channel (header ++ rest) = (.error (.frameTooLarge (Bytes.ofBig header)), rest) := by
  have hlen : (header ++ rest).length = 4 + rest.length := by rw [List.length_append, h4]
  have hnil : header ++ rest ≠ [] := by
    intro h
    rw [h, List.length_nil] at hlen
    omega
  unfold parse
  rw [if_neg hnil, if_neg (by omega), announced_append h4, if_pos hmax, List.drop_left' h4]

/-! ## Reads that go on -/

section
variable {i : Intake} {reads : Reads}

theorem putBack_append (rest : Bytes) (reads tail : Reads) :
    putBack rest (reads ++ tail) = putBack rest reads ++ tail := by
  unfold putBack
  split
  · rfl
  · rfl

/-- What an intake has taken up is the beginning of a frame. -/
theorem Intake.unfinished_taken (hi : i.Sound) : Unfinished i.taken := by
  cases i with
  | header got => exact .inl hi
  | body size got =>
    obtain ⟨hsize, hgot⟩ := hi
    right
    have hannounced : announced (taken (body size got)) = size := by
      rw [taken, announced_append (Bytes.length_big32 _),
        Bytes.ofBig_big32 (by simp only [maxSize] at hsize; omega)]
    rw [hannounced]
    refine ⟨hsize, ?_⟩
    rw [taken, List.length_append, Bytes.length_big32]
    omega

theorem Intake.ended_taken (channel : String) (i : Intake) :
    i.ended channel = if i.taken = [] then .ok none else .error (endedInside channel) := by
  cases i with
  | header got =>
    cases got with
    | nil => rfl
    | cons b bs => rfl
  | body size got => rfl

/-- A call that finds no end of its frame in some reads goes on behind them, with all their bytes. -/
theorem receive_within (channel : String) (hi : i.Sound) (hr : ∀ r ∈ reads, goesOn r)
    (h : Unfinished (i.taken ++ allRead reads)) :
    ∃ i' : Intake, i'.Sound ∧ i'.taken = i.taken ++ allRead reads
      ∧ ∀ tail, receive channel i (reads ++ tail) = receive channel i' tail := by
  induction reads generalizing i with
  | nil => exact ⟨i, hi, (List.append_nil _).symm, fun tail => rfl⟩
  | cons r reads ih =>
    have hr' : ∀ r ∈ reads, goesOn r := fun r h => hr r (List.mem_cons_of_mem _ h)
    match r, hr _ List.mem_cons_self with
    | .ok .empty, _ => exact ih hi hr' h
    | .ok (.data bs), _ =>
      rw [allRead_cons, bytesRead, ← List.append_assoc] at h
      rcases Intake.feed_taken hi bs with ⟨i', he, hs, ht⟩ | ⟨p, rest, -, hp, ht, -⟩
        | ⟨header, rest, -, h4, hmax, ht, -⟩
      · rw [← ht] at h
        obtain ⟨i'', hs', ht', htail⟩ := ih hs hr' h
        refine ⟨i'', hs', ?_, fun tail => ?_⟩
        · rw [ht', ht, allRead_cons, bytesRead, List.append_assoc]
        · simp only [List.cons_append, receive, Intake.read, he]
          exact htail tail
      · rw [ht, List.append_assoc] at h
        exact absurd h (not_unfinished_ofPayload hp _)
      · rw [ht, List.append_assoc] at h
        unfold Unfinished at h
        rw [announced_append h4, List.length_append, h4] at h
        omega

/-- A call that finds the end of its frame in some reads leaves what is behind it, and all other reads. -/
theorem receive_beyond (channel : String) (hi : i.Sound) (hr : ∀ r ∈ reads, goesOn r)
    (h : ¬Unfinished (i.taken ++ allRead reads)) :
    ∃ left, (∀ r ∈ left, goesOn r) ∧ allRead left = (parse channel (i.taken ++ allRead reads)).2
      ∧ ∀ tail, receive channel i (reads ++ tail)
        = ((parse channel (i.taken ++ allRead reads)).1, left ++ tail) := by
  induction reads generalizing i with
  | nil =>
    rw [show allRead [] = [] from rfl, List.append_nil] at h
    exact absurd (Intake.unfinished_taken hi) h
  | cons r reads ih =>
    have hr' : ∀ r ∈ reads, goesOn r := fun r h => hr r (List.mem_cons_of_mem _ h)
    match r, hr _ List.mem_cons_self with
    | .ok .empty, _ => exact ih hi hr' h
    | .ok (.data bs), _ =>
      rw [allRead_cons, bytesRead, ← List.append_assoc] at h ⊢
      rcases Intake.feed_taken hi bs with ⟨i', he, hs, ht⟩ | ⟨p, rest, he, hp, ht, -⟩
        | ⟨header, rest, he, h4, hmax, ht, -⟩
      · rw [← ht] at h ⊢
        obtain ⟨left, hgo, hleft, htail⟩ := ih hs hr' h
        refine ⟨left, hgo, hleft, fun tail => ?_⟩
        simp only [List.cons_append, receive, Intake.read, he]
        exact htail tail
      · rw [ht, List.append_assoc, parse_ofPayload channel hp]
        refine ⟨_, goesOn_putBack rest hr', allRead_putBack _ _, fun tail => ?_⟩
        simp only [List.cons_append, receive, Intake.read, he, putBack_append]
      · rw [ht, List.append_assoc, parse_tooLarge channel h4 hmax]
        refine ⟨_, goesOn_putBack rest hr', allRead_putBack _ _, fun tail => ?_⟩
        simp only [List.cons_append, receive, Intake.read, he, putBack_append]

/-- Receiving from reads up to the end of a stream is parsing its bytes. -/
theorem receive_parse (channel : String) (hr : ∀ r ∈ reads, goesOn r) :
    ∃ left, (∀ r ∈ left, goesOn r) ∧ allRead left = (parse channel (allRead reads)).2
      ∧ receive channel .start reads = ((parse channel (allRead reads)).1, left) := by
  by_cases h : Unfinished (allRead reads)
  · obtain ⟨i, -, ht, htail⟩ := receive_within channel Intake.sound_start hr h
    have hend := htail []
    rw [List.append_nil, receive, Intake.ended_taken, ht, Intake.taken_start, List.nil_append]
      at hend
    rw [parse_unfinished channel h]
    exact ⟨[], fun r hr => absurd hr List.not_mem_nil, rfl, hend⟩
  · obtain ⟨left, hgo, hleft, htail⟩ := receive_beyond channel Intake.sound_start hr h
    have hend := htail []
    rw [List.append_nil, List.append_nil] at hend
    exact ⟨left, hgo, hleft, hend⟩

/-- Receiving again and again is parsing again and again. -/
theorem receiveTimes_parse (channel : String) (n : Nat) (hr : ∀ r ∈ reads, goesOn r) :
    receiveTimes channel n reads = parseTimes channel n (allRead reads) := by
  induction n generalizing reads with
  | zero => rfl
  | succ n ih =>
    obtain ⟨left, hgo, hleft, hreceive⟩ := receive_parse channel hr
    simp only [receiveTimes, parseTimes, hreceive]
    rw [ih hgo, hleft]

end

/-! ## Reads that ask for no more than is wanted -/

/-- A read of at most so many bytes; what it could have given beyond them is there for the next. -/
def readUpTo (size : Nat) : Reads → Except IoError ReadStatus × Reads
  | [] => (.ok .eof, [])
  | .ok (.data bs) :: reads => (.ok (.data (bs.take size)), putBack (bs.drop size) reads)
  | r :: reads => (r, reads)

/-- A call of receiving, read by read, each of which asks for as many bytes as are still wanted: what it
takes, what it comes to and the reads that it leaves. -/
inductive Asks (channel : String) : Intake → Reads → Bytes → Received → Reads → Prop
  | last {i : Intake} {reads left : Reads} {r : Except IoError ReadStatus} {outcome : Received}
      (asked : readUpTo i.wanted reads = (r, left)) (ends : i.read channel r = (.inr outcome, [])) :
      Asks channel i reads (bytesRead r) outcome left
  | more {i i' : Intake} {reads between left : Reads} {r : Except IoError ReadStatus} {bs : Bytes}
      {outcome : Received} (asked : readUpTo i.wanted reads = (r, between))
      (onward : i.read channel r = (.inl i', [])) (others : Asks channel i' between bs outcome left) :
      Asks channel i reads (bytesRead r ++ bs) outcome left

namespace Intake

theorem feedBody_append {size : Nat} {got front rest : Bytes} {fed : Fed}
    (h : feedBody size got front = (fed, rest)) (hdone : ∀ i, fed ≠ .more i) (back : Bytes) :
    feedBody size got (front ++ back) = (fed, rest ++ back) := by
  unfold feedBody at h ⊢
  dsimp only at h ⊢
  split at h
  · cases h
    exact absurd rfl (hdone _)
  · next hge =>
    cases h
    have hlong : ¬(got ++ (front ++ back)).length < size := by
      rw [← List.append_assoc, List.length_append]
      omega
    rw [if_neg hlong, ← List.append_assoc, List.take_append_of_le_length (Nat.le_of_not_lt hge),
      List.drop_append_of_le_length (Nat.le_of_not_lt hge)]

theorem feedBody_more {size : Nat} {got front : Bytes} {i' : Intake}
    (h : feedBody size got front = (.more i', [])) : i' = body size (got ++ front) := by
  unfold feedBody at h
  dsimp only at h
  split at h
  · cases h
    rfl
  · cases h

theorem feedBody_onward (size : Nat) (got front back : Bytes) :
    (body size (got ++ front)).feed back = feedBody size got (front ++ back) := by
  unfold feed feedBody
  dsimp only
  rw [List.append_assoc]

/-- Bytes that are fed in two portions, of which the first leaves the frame under way. -/
theorem feed_more_append {i i' : Intake} {front : Bytes} (h : i.feed front = (.more i', []))
    (back : Bytes) : i.feed (front ++ back) = i'.feed back := by
  cases i with
  | header got =>
    unfold feed at h
    dsimp only at h
    split at h
    · next hlt =>
      cases h
      rw [feed, feed, List.append_assoc]
    · next hge =>
      have hlong : ¬(got ++ (front ++ back)).length < 4 := by
        rw [← List.append_assoc, List.length_append]
        omega
      split at h
      · cases h
      · next hmax =>
        rw [feedBody_more h, feedBody_onward, feed]
        dsimp only
        rw [if_neg hlong, ← List.append_assoc, List.take_append_of_le_length (Nat.le_of_not_lt hge),
          if_neg hmax, List.drop_append_of_le_length (Nat.le_of_not_lt hge)]
  | body size got => rw [feedBody_more h, feedBody_onward, feed]

/-- Bytes behind those that are the last of a frame are left over. -/
theorem feed_done_append {i : Intake} {front rest : Bytes} {fed : Fed}
    (h : i.feed front = (fed, rest)) (hdone : ∀ i', fed ≠ .more i') (back : Bytes) :
    i.feed (front ++ back) = (fed, rest ++ back) := by
  cases i with
  | body size got => exact feedBody_append h hdone back
  | header got =>
    unfold feed at h ⊢
    dsimp only at h ⊢
    split at h
    · cases h
      exact absurd rfl (hdone _)
    · next hge =>
      have hlong : ¬(got ++ (front ++ back)).length < 4 := by
        rw [← List.append_assoc, List.length_append]
        omega
      rw [if_neg hlong, ← List.append_assoc, List.take_append_of_le_length (Nat.le_of_not_lt hge),
        List.drop_append_of_le_length (Nat.le_of_not_lt hge)]
      split at h
      · next hmax =>
        cases h
        rw [if_pos hmax]
      · next hmax =>
        rw [if_neg hmax]
        exact feedBody_append h hdone back

end Intake

theorem putBack_of_ne_nil {rest : Bytes} (h : rest ≠ []) (reads : Reads) :
    putBack rest reads = .ok (.data rest) :: reads := by
  unfold putBack
  rw [if_neg (by simpa using h)]

/-- A call is one whose reads ask for what is wanted. -/
def Asked (channel : String) (i : Intake) (reads : Reads) : Prop :=
  ∃ got, Asks channel i reads got (receive channel i reads).1 (receive channel i reads).2

section
variable {channel : String} {i i' : Intake} {reads left between : Reads}
  {r : Except IoError ReadStatus} {outcome : Received}

theorem asked_last (asked : readUpTo i.wanted reads = (r, left))
    (ends : i.read channel r = (.inr outcome, []))
    (h : receive channel i reads = (outcome, left)) : Asked channel i reads := by
  unfold Asked
  rw [h]
  exact ⟨_, .last asked ends⟩

theorem asked_more (asked : readUpTo i.wanted reads = (r, between))
    (onward : i.read channel r = (.inl i', []))
    (h : receive channel i reads = receive channel i' between) (others : Asked channel i' between) :
    Asked channel i reads := by
  obtain ⟨got, hgot⟩ := others
  unfold Asked
  rw [h]
  exact ⟨_, .more asked onward hgot⟩

theorem receive_cons (r : Except IoError ReadStatus) (reads : Reads) :
    receive channel i (r :: reads) = match i.read channel r with
      | (.inl i, _) => receive channel i reads
      | (.inr outcome, rest) => (outcome, putBack rest reads) := rfl

/-- A read that gives more than is wanted is taken in as many reads as it takes to ask for it. -/
theorem asked_data (hi : i.Sound) (others : ∀ i : Intake, i.Sound → Asked channel i reads)
    (bs : Bytes) : Asked channel i (.ok (.data bs) :: reads) := by
  -- a read that leaves the frame under way, with bytes behind it, has given at least one
  induction hn : bs.length using Nat.strongRecOn generalizing i bs with
  | ind n again =>
    have hwanted := Intake.wanted_pos hi
    have hsplit : bs.take i.wanted ++ bs.drop i.wanted = bs := List.take_append_drop _ _
    have hasked : readUpTo i.wanted (.ok (.data bs) :: reads)
        = (.ok (.data (bs.take i.wanted)), putBack (bs.drop i.wanted) reads) := rfl
    rcases Intake.feed_wanted hi (List.length_take_le i.wanted bs) with
      ⟨i', hfed, hi', -⟩ | ⟨p, hfed, -, -⟩ | ⟨size, hfed, -, -, -⟩
    · have honward : i.read channel (.ok (.data (bs.take i.wanted))) = (.inl i', []) := by
        rw [Intake.read, hfed]
      by_cases hback : bs.drop i.wanted = []
      · rw [hback, List.append_nil] at hsplit
        rw [hback] at hasked
        refine asked_more hasked honward ?_ (others i' hi')
        rw [hsplit] at honward
        rw [receive_cons, honward]
        rfl
      · have hall := Intake.feed_more_append hfed (bs.drop i.wanted)
        rw [hsplit] at hall
        rw [putBack_of_ne_nil hback] at hasked
        refine asked_more hasked honward ?_ (again _ ?_ hi' _ rfl)
        · rw [receive_cons, receive_cons, Intake.read, Intake.read, hall]
        · have hpos : 0 < bs.length := by
            rw [List.drop_eq_nil_iff] at hback
            omega
          rw [← hn, List.length_drop]
          omega
    · have hall := Intake.feed_done_append hfed (fun i' h => by cases h) (bs.drop i.wanted)
      rw [hsplit] at hall
      have hover : i.read channel (.ok (.data (bs.take i.wanted))) = (.inr (.ok (some p)), []) := by
        rw [Intake.read, hfed]
      refine asked_last hasked hover ?_
      rw [receive_cons, Intake.read, hall]
      rfl
    · have hall := Intake.feed_done_append hfed (fun i' h => by cases h) (bs.drop i.wanted)
      rw [hsplit] at hall
      have hover : i.read channel (.ok (.data (bs.take i.wanted)))
          = (.inr (.error (.frameTooLarge size)), []) := by
        rw [Intake.read, hfed]
      refine asked_last hasked hover ?_
      rw [receive_cons, Intake.read, hall]
      rfl

theorem asked_receive (channel : String) (hi : i.Sound) (reads : Reads) : Asked channel i reads := by
  induction reads generalizing i with
  | nil =>
    have hasked : readUpTo i.wanted [] = (.ok .eof, []) := rfl
    exact asked_last hasked rfl rfl
  | cons r reads ih =>
    match r with
    | .error e =>
      have hasked : readUpTo i.wanted (.error e :: reads) = (.error e, reads) := rfl
      exact asked_last hasked rfl rfl
    | .ok .eof =>
      have hasked : readUpTo i.wanted (.ok .eof :: reads) = (.ok .eof, reads) := rfl
      exact asked_last hasked rfl rfl
    | .ok .empty =>
      have hasked : readUpTo i.wanted (.ok .empty :: reads) = (.ok .empty, reads) := rfl
      exact asked_more hasked rfl rfl (ih hi)
    | .ok (.data bs) => exact asked_data hi (fun i hi => ih hi) bs

theorem readUpTo_bytes {size : Nat} (h : readUpTo size reads = (r, left)) :
    allRead reads = bytesRead r ++ allRead left := by
  match reads with
  | [] => cases h; rfl
  | .ok (.data bs) :: reads =>
    cases h
    rw [allRead_putBack, ← List.append_assoc, bytesRead, List.take_append_drop, allRead_cons, bytesRead]
  | .ok .empty :: reads => cases h; rfl
  | .ok .eof :: reads => cases h; rfl
  | .error e :: reads => cases h; rfl

/-- What a call takes is the front of what the reads give, and it leaves the rest. -/
theorem Asks.bytes {got : Bytes} (h : Asks channel i reads got outcome left) :
    allRead reads = got ++ allRead left := by
  induction h with
  | last asked ends => exact readUpTo_bytes asked
  | more asked onward others ih => rw [readUpTo_bytes asked, ih, List.append_assoc]

end

/-! ## Call after call -/

/-- The reads that so many calls leave. -/
def readsAfter (channel : String) : Nat → Reads → Reads
  | 0, reads => reads
  | k + 1, reads => readsAfter channel k (receive channel .start reads).2

/-- What a call comes to at the front of a stream, with what it takes of it and what it leaves. -/
structure Found (channel : String) (bs : Bytes) (outcome : Received) (got left : Bytes) : Prop where
  front : bs = got ++ left
  /-- Nothing is there exactly at the end. -/
  nothing : outcome = .ok none ↔ bs = []
  /-- The end comes too early exactly within the header or the payload it announces. -/
  inside : outcome = .error (endedInside channel) ↔ bs ≠ [] ∧ Unfinished bs
  /-- A frame is refused exactly for a header beyond the greatest size, which is all that is taken. -/
  tooLarge (n : Nat) : outcome = .error (.frameTooLarge n)
    ↔ 4 ≤ bs.length ∧ announced bs = n ∧ maxSize < n
  /-- Otherwise a payload is received, and just its frame is taken. -/
  frame (p : Bytes) : outcome = .ok (some p)
    ↔ ¬Unfinished bs ∧ announced bs ≤ maxSize ∧ p = (bs.drop 4).take (announced bs)
  size : got.length = match outcome with
    | .ok (some p) => 4 + p.length
    | .error (.frameTooLarge _) => 4
    | _ => bs.length

/-- What a stream can begin with. -/
theorem parse_cases (channel : String) (bs : Bytes) :
    (bs = [] ∧ parse channel bs = (.ok none, []))
    ∨ (bs ≠ [] ∧ Unfinished bs ∧ parse channel bs = (.error (endedInside channel), []))
    ∨ (¬Unfinished bs ∧ maxSize < announced bs
      ∧ parse channel bs = (.error (.frameTooLarge (announced bs)), bs.drop 4))
    ∨ (¬Unfinished bs ∧ announced bs ≤ maxSize
      ∧ parse channel bs
        = (.ok (some ((bs.drop 4).take (announced bs))), bs.drop (4 + announced bs))) := by
  by_cases hcut : Unfinished bs
  · have hparse := parse_unfinished channel hcut
    by_cases hnil : bs = []
    · exact .inl ⟨hnil, by rw [hparse, if_pos hnil]⟩
    · exact .inr (.inl ⟨hnil, hcut, by rw [hparse, if_neg hnil]⟩)
  · have hlong := hcut
    unfold Unfinished at hlong
    have hnil : bs ≠ [] := by
      rintro rfl
      exact hlong (.inl (by decide))
    right
    right
    unfold parse
    rw [if_neg hnil, if_neg fun h => hlong (.inl h)]
    by_cases hmax : maxSize < announced bs
    · rw [if_pos hmax]
      exact .inl ⟨hcut, hmax, rfl⟩
    · rw [if_neg hmax, if_neg fun h => hlong (.inr ⟨Nat.le_of_not_lt hmax, h⟩)]
      exact .inr ⟨hcut, Nat.le_of_not_lt hmax, rfl⟩

theorem found_parse (channel : String) {bs got : Bytes} (h : bs = got ++ (parse channel bs).2) :
    Found channel bs (parse channel bs).1 got (parse channel bs).2 := by
  have hlen := congrArg List.length h
  rw [List.length_append] at hlen
  have hlong (hcut : ¬Unfinished bs) : 4 ≤ bs.length := Nat.le_of_not_lt fun h => hcut (.inl h)
  rcases parse_cases channel bs with ⟨hnil, hparse⟩ | ⟨hnil, hcut, hparse⟩ | ⟨hcut, hmax, hparse⟩
    | ⟨hcut, hmax, hparse⟩
  · have hcut : Unfinished bs := by
      rw [hnil]
      exact .inl (by decide)
    rw [hparse] at h hlen ⊢
    exact {
      front := h
      nothing := by simp [hnil]
      inside := by simp [hnil]
      tooLarge := fun n => by simp [hnil]
      frame := fun p => by simp [hcut]
      size := hlen.symm }
  · rw [hparse] at h hlen ⊢
    exact {
      front := h
      nothing := by simp [hnil]
      inside := by simp [hnil, hcut]
      tooLarge := fun n => by
        refine ⟨nofun, fun ⟨h4, hn, hmax⟩ => ?_⟩
        unfold Unfinished at hcut
        omega
      frame := fun p => by simp [hcut]
      size := hlen.symm }
  · have h4 := hlong hcut
    have hnil : bs ≠ [] := by
      rintro rfl
      exact absurd h4 (by decide)
    rw [hparse] at h hlen ⊢
    exact {
      front := h
      nothing := by simp [hnil]
      inside := by simp [hcut, endedInside]
      tooLarge := fun n => by
        constructor
        · intro heq
          cases heq
          exact ⟨h4, rfl, hmax⟩
        · intro hn
          rw [hn.2.1]
      frame := fun p => by
        refine ⟨nofun, fun hp => ?_⟩
        omega
      size := by
        dsimp only at hlen ⊢
        rw [List.length_drop] at hlen
        omega }
  · have h4 := hlong hcut
    have hnil : bs ≠ [] := by
      rintro rfl
      exact absurd h4 (by decide)
    have hwhole : 4 + announced bs ≤ bs.length :=
      Nat.le_of_not_lt fun h => hcut (.inr ⟨hmax, h⟩)
    rw [hparse] at h hlen ⊢
    exact {
      front := h
      nothing := by simp [hnil]
      inside := by simp [hcut]
      tooLarge := fun n => by
        refine ⟨nofun, fun hn => ?_⟩
        omega
      frame := fun p => by
        simp only [Except.ok.injEq, Option.some.injEq, hcut, hmax, not_false_eq_true, true_and]
        exact eq_comm
      size := by
        dsimp only at hlen ⊢
        rw [List.length_drop] at hlen
        rw [List.length_take, List.length_drop]
        omega }

theorem readsAfter_bytes (channel : String) (k : Nat) {reads : Reads} (hr : ∀ r ∈ reads, goesOn r) :
    (∀ r ∈ readsAfter channel k reads, goesOn r)
      ∧ ∃ p ≤ (allRead reads).length, allRead (readsAfter channel k reads) = (allRead reads).drop p := by
  induction k generalizing reads with
  | zero => exact ⟨hr, 0, Nat.zero_le _, rfl⟩
  | succ k ih =>
    obtain ⟨left, hgo, -, hreceive⟩ := receive_parse channel hr
    obtain ⟨got, hasks⟩ := asked_receive channel Intake.sound_start reads
    rw [hreceive] at hasks
    have hbytes := hasks.bytes
    obtain ⟨hgo', p, hp, hdrop⟩ := ih hgo
    rw [readsAfter, hreceive]
    refine ⟨hgo', got.length + p, ?_, ?_⟩
    · rw [hbytes, List.length_append]
      dsimp only
      omega
    · rw [hdrop, ← List.drop_drop, hbytes, List.drop_left]

/-- A read that fails, behind reads that go on. A call that stops before it comes to what it would come
to without it; the first that does not comes to the failure. -/
theorem receive_error (channel : String) {before : Reads} (hr : ∀ r ∈ before, goesOn r) (e : IoError)
    (after : Reads) :
    (Unfinished (allRead before) →
      receive channel .start (before ++ .error e :: after) = (.error (.io e), after))
    ∧ (¬Unfinished (allRead before) →
      receive channel .start (before ++ .error e :: after)
        = ((receive channel .start before).1,
          (receive channel .start before).2 ++ .error e :: after)) := by
  constructor
  · intro hcut
    obtain ⟨i, -, -, htail⟩ := receive_within channel Intake.sound_start hr hcut
    rw [htail]
    rfl
  · intro hcut
    obtain ⟨left, -, -, htail⟩ := receive_beyond channel Intake.sound_start hr hcut
    have hbefore := htail []
    rw [List.append_nil, List.append_nil] at hbefore
    rw [htail, hbefore]

/-- Calls that stop before a read that fails leave it where it is. -/
theorem readsAfter_error (channel : String) {before : Reads} (hr : ∀ r ∈ before, goesOn r) (e : IoError)
    (after : Reads) {k : Nat} (h : ∀ j < k, ¬Unfinished (allRead (readsAfter channel j before))) :
    readsAfter channel k (before ++ .error e :: after)
      = readsAfter channel k before ++ .error e :: after := by
  induction k generalizing before with
  | zero => rfl
  | succ k ih =>
    obtain ⟨left, hgo, -, hreceive⟩ := receive_parse channel hr
    have hfirst := (receive_error channel hr e after).2 (h 0 (Nat.zero_lt_succ k))
    rw [readsAfter, readsAfter, hfirst, hreceive]
    refine ih hgo fun j hj => ?_
    have hnext := h (j + 1) (Nat.succ_lt_succ hj)
    rwa [readsAfter, hreceive] at hnext

/-- What repeated calls come to depends only on the bytes that the reads give, not on how these fall into
reads, nor on where a read finds nothing. A call at some offset finds nothing exactly at the end of the
stream, the end inside a frame exactly if the stream breaks off within the header or the payload, and a
frame that is too large exactly if the header says so; otherwise it receives the payload. It asks for no
byte beyond what that takes, and no call ever does. A read that fails is what the call comes to that meets
it, and no other call is changed by it. -/
theorem receive_by_bytes (channel : String) :
    (∀ reads reads' : Reads, (∀ r ∈ reads, goesOn r) → (∀ r ∈ reads', goesOn r) →
      allRead reads = allRead reads' →
      ∀ n, receiveTimes channel n reads = receiveTimes channel n reads')
    ∧ (∀ reads : Reads, (∀ r ∈ reads, goesOn r) → ∀ k, ∃ p ≤ (allRead reads).length,
      allRead (readsAfter channel k reads) = (allRead reads).drop p
      ∧ ∃ outcome got left, receive channel .start (readsAfter channel k reads) = (outcome, left)
        ∧ Asks channel .start (readsAfter channel k reads) got outcome left
        ∧ Found channel ((allRead reads).drop p) outcome got (allRead left))
    ∧ (∀ reads : Reads, ∃ got, Asks channel .start reads got (receive channel .start reads).1
      (receive channel .start reads).2)
    ∧ ∀ (before : Reads) (e : IoError) (after : Reads), (∀ r ∈ before, goesOn r) →
      ∀ k, (∀ j < k, ¬Unfinished (allRead (readsAfter channel j before))) →
      (Unfinished (allRead (readsAfter channel k before)) →
        receive channel .start (readsAfter channel k (before ++ .error e :: after))
          = (.error (.io e), after))
      ∧ (¬Unfinished (allRead (readsAfter channel k before)) →
        (receive channel .start (readsAfter channel k (before ++ .error e :: after))).1
          = (receive channel .start (readsAfter channel k before)).1) := by
  refine ⟨fun reads reads' hr hr' hsame n => ?_, fun reads hr k => ?_,
    fun reads => asked_receive channel Intake.sound_start reads, fun before e after hr k hk => ?_⟩
  · rw [receiveTimes_parse channel n hr, receiveTimes_parse channel n hr', hsame]
  · obtain ⟨hgo, p, hp, hdrop⟩ := readsAfter_bytes channel k hr
    obtain ⟨left, -, hleft, hreceive⟩ := receive_parse channel hgo
    obtain ⟨got, hasks⟩ := asked_receive channel Intake.sound_start (readsAfter channel k reads)
    have hbytes := hasks.bytes
    rw [hreceive] at hasks hbytes
    dsimp only at hasks hbytes
    rw [hleft] at hbytes
    have hfound := found_parse channel hbytes
    rw [hdrop] at hfound hreceive hasks hleft
    refine ⟨p, hp, hdrop, _, got, left, hreceive, hasks, ?_⟩
    rw [hleft]
    exact hfound
  · have hmeets := receive_error channel (readsAfter_bytes channel k hr).1 e after
    rw [readsAfter_error channel hr e after hk]
    exact ⟨hmeets.1, fun hcut => by rw [hmeets.2 hcut]⟩

/-- A frame and a header that announces a byte too many, cut in the middle of both headers; and a read
that fails within a payload. -/
theorem receive_by_bytes_cut :
    receiveTimes "c" 2 [.ok (.data [0, 0]), .ok .empty, .ok (.data [0, 1, 5, 1, 0, 0]), .ok (.data [1])]
        = [.ok (some [5]), .error (.frameTooLarge (maxSize + 1))]
      ∧ receive "c" .start ([.ok (.data [0, 0, 0, 2, 9])] ++ .error ⟨.connectionReset, "reset"⟩ :: [])
        = (.error (.io ⟨.connectionReset, "reset"⟩), []) := by
  obtain ⟨hsame, -, -, hfails⟩ := receive_by_bytes "c"
  constructor
  · refine (hsame _ [.ok (.data [0, 0, 0, 1, 5, 1, 0, 0, 1])] ?_ ?_ rfl 2).trans rfl
    · simp [goesOn]
    · simp [goesOn]
  · refine (hfails [.ok (.data [0, 0, 0, 2, 9])] _ [] ?_ 0 ?_).1 (.inr (by decide))
    · simp [goesOn]
    · intro j hj
      exact absurd hj (Nat.not_lt_zero j)

end CommandLink.Frame
