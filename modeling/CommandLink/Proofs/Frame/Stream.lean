import CommandLink.Frame.Intake
/-!
# Frames in a stream of bytes

A stream falls into frames in one way only, since each of them tells its own length. What an intake
has taken up so far is the beginning of a frame, and what it is fed next is put behind it.

Results:
* `ofPayload_append_inj`: two streams that begin with frames and are equal begin with the same frame.
* `split_append`: a stream is its complete frames, in order, and a rest that begins with none.
* `feed_taken`: what any bytes make of a frame under way, and what of them is left over.
* `feed_wanted`, `read_wanted`: bytes fed within what is wanted leave the frame under way, complete
  it or announce one that is too large, and in no case is anything left over.
* `wrote_offered`: a write call takes bytes off the front of what is left, or fails.
-/
namespace CommandLink

namespace Bytes

theorem ofBig_four (a b c d : UInt8) :
    ofBig [a, b, c, d] = ((a.toNat * 256 + b.toNat) * 256 + c.toNat) * 256 + d.toNat := by
  simp only [ofBig, List.foldl_cons, List.foldl_nil]
  omega

theorem exists_four {bs : Bytes} (h : bs.length = 4) : ∃ a b c d, bs = [a, b, c, d] := by
  match bs, h with
  | [a, b, c, d], _ => exact ⟨a, b, c, d, rfl⟩

theorem big32_ofBig {bs : Bytes} (h : bs.length = 4) : big32 (ofBig bs) = bs := by
  obtain ⟨a, b, c, d, rfl⟩ := exists_four h
  have ha := a.toNat_lt
  have hb := b.toNat_lt
  have hc := c.toNat_lt
  have hd := d.toNat_lt
  rw [ofBig_four, big32]
  simp only [List.cons.injEq, ← UInt8.toNat_inj, UInt8.toNat_ofNat', and_true]
  omega

end Bytes

namespace Frame

theorem length_ofPayload (p : Bytes) : (ofPayload p).length = 4 + p.length := by
  simp [ofPayload, Bytes.length_big32]

theorem ofPayload_ne_nil (p : Bytes) : ofPayload p ≠ [] := by
  intro h
  have := congrArg List.length h
  rw [length_ofPayload, List.length_nil] at this
  omega

/-- The header of a frame tells its payload's length. -/
theorem ofBig_header {p : Bytes} (hp : p.length ≤ maxSize) :
    Bytes.ofBig (Bytes.big32 p.length) = p.length :=
  Bytes.ofBig_big32 (by simp only [maxSize] at hp; omega)

theorem ofPayload_append_inj {p q a b : Bytes} (hp : p.length ≤ maxSize) (hq : q.length ≤ maxSize)
    (h : ofPayload p ++ a = ofPayload q ++ b) : p = q ∧ a = b := by
  simp only [ofPayload, List.append_assoc] at h
  obtain ⟨hh, ht⟩ := List.append_inj h (by simp [Bytes.length_big32])
  have hlen : p.length = q.length := by
    rw [← ofBig_header hp, ← ofBig_header hq, hh]
  exact List.append_inj ht hlen

theorem ofPayload_inj {p q : Bytes} (hp : p.length ≤ maxSize) (hq : q.length ≤ maxSize)
    (h : ofPayload p = ofPayload q) : p = q :=
  (ofPayload_append_inj (a := []) (b := []) hp hq (by simpa using h)).1

/-- Payloads that each fit a frame. -/
def Fit (ps : List Bytes) : Prop := ∀ p ∈ ps, p.length ≤ maxSize

/-- The frames of payloads, one behind the other. -/
def stream (ps : List Bytes) : Bytes := ps.flatMap ofPayload

@[simp] theorem stream_nil : stream [] = [] := rfl

@[simp] theorem stream_cons (p : Bytes) (ps : List Bytes) :
    stream (p :: ps) = ofPayload p ++ stream ps := rfl

@[simp] theorem stream_append (ps qs : List Bytes) :
    stream (ps ++ qs) = stream ps ++ stream qs := List.flatMap_append

/-- Bytes that are a number of complete frames. -/
def Whole (bs : Bytes) : Prop := ∃ ps, Fit ps ∧ bs = stream ps

/-- Frames at the beginning of frames: they are the first of them. -/
theorem stream_begins {ps qs : List Bytes} {rest : Bytes} (hp : Fit ps) (hq : Fit qs)
    (h : stream ps ++ rest = stream qs) : ps <+: qs := by
  induction ps generalizing qs with
  | nil => exact List.nil_prefix
  | cons p ps ih =>
    cases qs with
    | nil =>
      have := congrArg List.length h
      simp [length_ofPayload] at this
    | cons q qs =>
      rw [stream_cons, stream_cons, List.append_assoc] at h
      obtain ⟨rfl, h'⟩ := ofPayload_append_inj (hp p List.mem_cons_self) (hq q List.mem_cons_self) h
      exact (List.prefix_cons_inj p).2 (ih (fun x hx => hp x (List.mem_cons_of_mem _ hx))
        (fun x hx => hq x (List.mem_cons_of_mem _ hx)) h')

/-! ## The frames of a stream -/

/-- The payload of the frame that a stream begins with, and what is behind that frame. -/
def first? (bs : Bytes) : Option (Bytes × Bytes) :=
  let size := Bytes.ofBig (bs.take 4)
  if 4 ≤ bs.length ∧ size ≤ maxSize ∧ 4 + size ≤ bs.length then
    some ((bs.drop 4).take size, (bs.drop 4).drop size)
  else none

theorem first?_eq_some {bs p rest : Bytes} :
    first? bs = some (p, rest) ↔ p.length ≤ maxSize ∧ bs = ofPayload p ++ rest := by
  constructor
  · intro h
    simp only [first?] at h
    split at h
    · next hb =>
      obtain ⟨h4, hmax, hlen⟩ := hb
      simp only [Option.some.injEq, Prod.mk.injEq] at h
      obtain ⟨rfl, rfl⟩ := h
      have hsize : ((bs.drop 4).take (Bytes.ofBig (bs.take 4))).length
          = Bytes.ofBig (bs.take 4) := by
        rw [List.length_take, List.length_drop]
        omega
      refine ⟨by omega, ?_⟩
      rw [ofPayload, hsize, Bytes.big32_ofBig (by rw [List.length_take]; omega), List.append_assoc,
        List.take_append_drop, List.take_append_drop]
    · cases h
  · rintro ⟨hp, rfl⟩
    have htake : (ofPayload p ++ rest).take 4 = Bytes.big32 p.length := by
      rw [ofPayload, List.append_assoc, List.take_left' (Bytes.length_big32 _)]
    have hdrop : (ofPayload p ++ rest).drop 4 = p ++ rest := by
      rw [ofPayload, List.append_assoc, List.drop_left' (Bytes.length_big32 _)]
    have hlen : (ofPayload p ++ rest).length = 4 + p.length + rest.length := by
      rw [List.length_append, length_ofPayload]
    simp only [first?, htake, hdrop, ofBig_header hp, hlen]
    rw [if_pos ⟨by omega, hp, by omega⟩]
    simp

/-- The payloads of the complete frames that a stream begins with, as many as there are, and what is
behind these frames. -/
def split (bs : Bytes) : List Bytes × Bytes :=
  match _h : first? bs with
  | some (p, rest) => (p :: (split rest).1, (split rest).2)
  | none => ([], bs)
termination_by bs.length
decreasing_by
  all_goals
    obtain ⟨-, rfl⟩ := first?_eq_some.1 _h
    rw [List.length_append, length_ofPayload]
    omega

theorem split_of_none {bs : Bytes} (h : first? bs = none) : split bs = ([], bs) := by
  rw [split]
  split
  · next h' => rw [h] at h'; cases h'
  · rfl

theorem split_ofPayload {p : Bytes} (hp : p.length ≤ maxSize) (rest : Bytes) :
    split (ofPayload p ++ rest) = (p :: (split rest).1, (split rest).2) := by
  have h := first?_eq_some.2 ⟨hp, (rfl : ofPayload p ++ rest = _)⟩
  rw [split]
  split
  · next h' =>
    rw [h] at h'
    cases h'
    rfl
  · next h' => rw [h] at h'; cases h'

/-- A stream is its frames with a rest behind them, and the rest begins with no frame. -/
theorem split_append (bs : Bytes) :
    Fit (split bs).1 ∧ bs = stream (split bs).1 ++ (split bs).2 ∧ first? (split bs).2 = none := by
  induction hn : bs.length using Nat.strongRecOn generalizing bs with
  | ind n ih =>
    cases h : first? bs with
    | none =>
      rw [split_of_none h]
      exact ⟨by simp [Fit], rfl, h⟩
    | some q =>
      obtain ⟨p, rest⟩ := q
      obtain ⟨hp, rfl⟩ := first?_eq_some.1 h
      obtain ⟨hf, hs, hr⟩ := ih rest.length
        (by rw [← hn, List.length_append, length_ofPayload]; omega) rest rfl
      rw [split_ofPayload hp]
      refine ⟨fun q hq => ?_, ?_, hr⟩
      · rcases List.mem_cons.1 hq with rfl | hq
        · exact hp
        · exact hf q hq
      · rw [stream_cons, List.append_assoc, ← hs]

/-! ## What an intake has taken up -/

/-- The bytes that a read gives. -/
def bytesRead : Except IoError ReadStatus → Bytes
  | .ok (.data bs) => bs
  | _ => []

/-- A read that neither fails nor finds the end. -/
def goesOn : Except IoError ReadStatus → Bool
  | .ok (.data _) | .ok .empty => true
  | .ok .eof | .error _ => false

namespace Intake

/-- The bytes that an intake has taken up. -/
def taken : Intake → Bytes
  | header got => got
  | body size got => Bytes.big32 size ++ got

/-- An intake that is not done with its frame, and whose frame is not too large. -/
def Sound : Intake → Prop
  | header got => got.length < 4
  | body size got => size ≤ maxSize ∧ got.length < size

theorem sound_start : start.Sound := by simp [start, Sound]

theorem taken_start : start.taken = [] := rfl

theorem wanted_pos {i : Intake} (h : i.Sound) : 0 < i.wanted := by
  cases i with
  | header got => simp only [Sound] at h; simp only [wanted]; omega
  | body size got => simp only [Sound] at h; simp only [wanted]; omega

/-- What an intake has taken up is no complete frame. -/
theorem taken_ne_ofPayload {i : Intake} (h : i.Sound) {p : Bytes} (hp : p.length ≤ maxSize)
    (rest : Bytes) : i.taken ≠ ofPayload p ++ rest := by
  intro e
  have hlen := congrArg List.length e
  rw [List.length_append, length_ofPayload] at hlen
  cases i with
  | header got =>
    simp only [Sound] at h
    simp only [taken] at hlen
    omega
  | body size got =>
    obtain ⟨hsize, hgot⟩ := h
    simp only [taken, ofPayload, List.append_assoc] at e
    obtain ⟨hh, -⟩ := List.append_inj e (by simp [Bytes.length_big32])
    have hs : size = p.length := by
      rw [← ofBig_header hp, ← hh, Bytes.ofBig_big32 (by simp only [maxSize] at hsize; omega)]
    simp only [taken, List.length_append, Bytes.length_big32] at hlen
    omega

/-- What bytes make of a payload of known size. What of them is left over was not wanted. -/
theorem feedBody_taken {size : Nat} (hs : size ≤ maxSize) (got bs : Bytes) :
    (∃ i', feedBody size got bs = (.more i', []) ∧ i'.Sound
        ∧ i'.taken = Bytes.big32 size ++ (got ++ bs)) ∨
    (∃ p rest, feedBody size got bs = (.frame p, rest) ∧ p.length ≤ maxSize
        ∧ Bytes.big32 size ++ (got ++ bs) = ofPayload p ++ rest
        ∧ (got.length + bs.length ≤ size → rest = [])) := by
  simp only [feedBody]
  split
  · next hlt => exact .inl ⟨_, rfl, ⟨hs, hlt⟩, rfl⟩
  · next hge =>
    have hlen : ((got ++ bs).take size).length = size := by rw [List.length_take]; omega
    refine .inr ⟨_, _, rfl, by omega, ?_, fun hb => ?_⟩
    · rw [ofPayload, hlen, List.append_assoc, List.take_append_drop]
    · exact List.drop_eq_nil_of_le (by rwa [List.length_append])

/-- What bytes make of an intake. What of them is left over was not wanted. -/
theorem feed_taken {i : Intake} (hi : i.Sound) (bs : Bytes) :
    (∃ i', i.feed bs = (.more i', []) ∧ i'.Sound ∧ i'.taken = i.taken ++ bs) ∨
    (∃ p rest, i.feed bs = (.frame p, rest) ∧ p.length ≤ maxSize
        ∧ i.taken ++ bs = ofPayload p ++ rest ∧ (bs.length ≤ i.wanted → rest = [])) ∨
    (∃ header rest, i.feed bs = (.refused (.frameTooLarge (Bytes.ofBig header)), rest)
        ∧ header.length = 4 ∧ maxSize < Bytes.ofBig header ∧ i.taken ++ bs = header ++ rest
        ∧ (bs.length ≤ i.wanted → rest = [])) := by
  cases i with
  | header got =>
    simp only [Sound] at hi
    have hdrop : bs.length ≤ 4 - got.length → (got ++ bs).drop 4 = [] := fun hb =>
      List.drop_eq_nil_of_le (by rw [List.length_append]; omega)
    simp only [feed, taken, wanted]
    split
    · next hlt => exact .inl ⟨_, rfl, hlt, rfl⟩
    · next hge =>
      have h4 : ((got ++ bs).take 4).length = 4 := by rw [List.length_take]; omega
      split
      · next hmax =>
        exact .inr (.inr ⟨_, _, rfl, h4, hmax, (List.take_append_drop _ _).symm, hdrop⟩)
      · next hmax =>
        have hall : got ++ bs
            = Bytes.big32 (Bytes.ofBig ((got ++ bs).take 4)) ++ ([] ++ (got ++ bs).drop 4) := by
          rw [Bytes.big32_ofBig h4, List.nil_append, List.take_append_drop]
        rcases feedBody_taken (Nat.le_of_not_lt hmax) [] ((got ++ bs).drop 4) with
          ⟨i', he, hs, ht⟩ | ⟨p, rest, he, hp, ht, hrest⟩
        · exact .inl ⟨i', he, hs, ht.trans hall.symm⟩
        · refine .inr (.inl ⟨p, rest, he, hp, hall.trans ht, fun hb => hrest ?_⟩)
          rw [hdrop hb]
          exact Nat.zero_le _
  | body size got =>
    obtain ⟨hs, hgot⟩ := hi
    simp only [feed, taken, wanted, List.append_assoc]
    rcases feedBody_taken hs got bs with h | ⟨p, rest, he, hp, ht, hrest⟩
    · exact .inl h
    · exact .inr (.inl ⟨p, rest, he, hp, ht, fun hb => hrest (by omega)⟩)

/-- A frame is refused for its size alone. -/
theorem refused_feed {i : Intake} {bs : Bytes} {cause : LinkError}
    (h : (i.feed bs).1 = .refused cause) : ∃ n, cause = .frameTooLarge n := by
  have hbody : ∀ size got bs, (feedBody size got bs).1 ≠ .refused cause := by
    intro size got bs he
    simp only [feedBody] at he
    split at he
    · cases he
    · cases he
  simp only [feed] at h
  split at h
  · split at h
    · cases h
    · split at h
      · cases h
        exact ⟨_, rfl⟩
      · exact absurd h (hbody _ _ _)
  · exact absurd h (hbody _ _ _)

/-- What becomes of an intake that is fed no more than it wants. -/
theorem feed_wanted {i : Intake} (hi : i.Sound) {bs : Bytes} (hb : bs.length ≤ i.wanted) :
    (∃ i', i.feed bs = (.more i', []) ∧ i'.Sound ∧ i'.taken = i.taken ++ bs) ∨
    (∃ p, i.feed bs = (.frame p, []) ∧ p.length ≤ maxSize ∧ i.taken ++ bs = ofPayload p) ∨
    (∃ size, i.feed bs = (.refused (.frameTooLarge size), []) ∧ maxSize < size
      ∧ i.taken ++ bs = Bytes.big32 size ∧ Bytes.ofBig (i.taken ++ bs) = size) := by
  rcases feed_taken hi bs with h | ⟨p, rest, he, hp, ht, hrest⟩
    | ⟨header, rest, he, h4, hmax, ht, hrest⟩
  · exact .inl h
  · obtain rfl := hrest hb
    rw [List.append_nil] at ht
    exact .inr (.inl ⟨p, he, hp, ht⟩)
  · obtain rfl := hrest hb
    rw [List.append_nil] at ht
    exact .inr (.inr ⟨_, he, hmax, by rw [ht, Bytes.big32_ofBig h4], by rw [ht]⟩)

/-- What a read within what is wanted comes to: the frame is still under way, it is there, or it will
never be. -/
theorem read_wanted (channel : String) {i : Intake} (hi : i.Sound)
    {s : Except IoError ReadStatus} (hb : (bytesRead s).length ≤ i.wanted) :
    (∃ i', (i.read channel s).1 = .inl i' ∧ i'.Sound ∧ i'.taken = i.taken ++ bytesRead s
      ∧ goesOn s) ∨
    (∃ p, (i.read channel s).1 = .inr (.ok (some p)) ∧ p.length ≤ maxSize
      ∧ i.taken ++ bytesRead s = ofPayload p ∧ goesOn s) ∨
    (((i.read channel s).1 = .inr (.ok none) ∨ ∃ e, (i.read channel s).1 = .inr (.error e))
      ∧ ∀ p, p.length ≤ maxSize → i.taken ++ bytesRead s ≠ ofPayload p) := by
  have hnone : ∀ p, p.length ≤ maxSize → i.taken ++ [] ≠ ofPayload p := fun p hp => by
    simpa using taken_ne_ofPayload hi hp []
  match s with
  | .error e => exact .inr (.inr ⟨.inr ⟨_, rfl⟩, hnone⟩)
  | .ok .empty => exact .inl ⟨i, rfl, hi, (List.append_nil _).symm, rfl⟩
  | .ok .eof =>
    refine .inr (.inr ⟨?_, hnone⟩)
    cases i with
    | header got =>
      cases got with
      | nil => exact .inl rfl
      | cons b bs => exact .inr ⟨_, rfl⟩
    | body size got => exact .inr ⟨_, rfl⟩
  | .ok (.data bs) =>
    simp only [bytesRead] at hb
    simp only [read, bytesRead]
    rcases feed_wanted hi hb with ⟨i', he, hs, ht⟩ | ⟨p, he, hp, ht⟩ | ⟨size, he, hsize, ht, hbig⟩
    · exact .inl ⟨i', by rw [he], hs, ht, rfl⟩
    · exact .inr (.inl ⟨p, by rw [he], hp, ht, rfl⟩)
    · refine .inr (.inr ⟨.inr ⟨_, by rw [he]⟩, fun p hp h => ?_⟩)
      -- a header alone is as long as the frame of an empty payload, whose size is no excess
      have hlen := congrArg List.length (ht.symm.trans h)
      rw [Bytes.length_big32, length_ofPayload] at hlen
      have hnil : p = [] := List.length_eq_zero_iff.1 (by omega)
      subst hnil
      rw [← hbig, h] at hsize
      exact absurd hsize (by decide)

end Intake

namespace Acceptance

/-- The bytes that a write call takes of what is offered. -/
def bytesTaken (offered : Bytes) : Acceptance → Bytes
  | took n => offered.take n
  | failed _ => []

/-- A write call that takes something. -/
def goesOn : Acceptance → Bool
  | took n => n != 0
  | failed _ => false

end Acceptance

namespace Outgoing

theorem left_eq_nil {o : Outgoing} : o.left = [] ↔ o.offered? = none := by
  obtain ⟨parts, hne⟩ := o
  cases parts with
  | nil => simp [left, offered?]
  | cons p ps =>
    have hp := hne p List.mem_cons_self
    simp [left, offered?, hp]

theorem offered?_isSome_start {payload : Bytes} {o : Outgoing} (h : start payload = .ok o) :
    o.offered?.isSome := by
  cases ho : o.offered? with
  | some bs => rfl
  | none =>
    have hleft := left_start h
    rw [left_eq_nil.2 ho] at hleft
    exact absurd hleft.symm (ofPayload_ne_nil payload)

theorem fits_of_start {payload : Bytes} {o : Outgoing} (h : start payload = .ok o) :
    payload.length ≤ maxSize := by
  simp only [start] at h
  split at h
  · assumption
  · cases h

/-- What a write call comes to: bytes were taken off the front of what is left, or nothing was taken
and sending has failed. -/
theorem wrote_offered (channel : String) {o : Outgoing} {bs : Bytes} (ho : o.offered? = some bs)
    {a : Acceptance} (ha : ∀ n, a = .took n → n ≤ bs.length) :
    (∃ o', o.wrote channel a = .ok o' ∧ o.left = a.bytesTaken bs ++ o'.left ∧ a.goesOn) ∨
    (∃ e, o.wrote channel a = .error e ∧ a.bytesTaken bs = []) := by
  cases a with
  | failed e => exact .inr ⟨e, rfl, rfl⟩
  | took n =>
    cases n with
    | zero => exact .inr ⟨_, rfl, (List.take_zero : bs.take 0 = [])⟩
    | succ n =>
      have hw : o.wrote channel (.took (n + 1)) = .ok (o.advance (n + 1)) := rfl
      exact .inl ⟨_, hw, left_wrote ho (ha _ rfl) hw, rfl⟩

end Outgoing
end Frame
end CommandLink
