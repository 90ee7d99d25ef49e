import CommandLink.Proofs.Frame.Stream
/-!
# What is written of a frame

A write call is offered all that is left of the header, or behind the header all that is left of the
payload. It takes some of it, takes nothing or fails; in the last two cases it is the last one. So the
bytes that are out always begin the frame, and how many they are says what the next call offers.

Results:
* `offered?_midway`, `advance_midway`: what is offered when so many bytes are out, and what a call that
  takes some of it leads to.
* `transmit_carried`: the account of the write calls, from any point of the frame on.
* `send_carried`: a payload too large is refused before any write, and any other is sent by that account.
-/
namespace CommandLink.Frame

namespace Acceptance

/-- Why sending ends with a write call, if it does. -/
def fault? (channel : String) : Acceptance → Option IoError
  | took 0 => some (Outgoing.refused channel)
  | took (_ + 1) => none
  | failed e => some e

theorem bytesTaken_of_fault? {channel : String} {a : Acceptance} {e : IoError}
    (h : a.fault? channel = some e) (offered : Bytes) : a.bytesTaken offered = [] := by
  cases a with
  | failed e => rfl
  | took n =>
    cases n with
    | zero => exact (List.take_zero : offered.take 0 = [])
    | succ n => cases h

end Acceptance

/-- What the next call takes of what it is offered: all of it, if nothing is said of the call. -/
def takenOf (p : Bytes) : Option Acceptance → Bytes
  | some a => a.bytesTaken p
  | none => p

/-- What write calls take of what each of them is offered, one behind the other. -/
def takenBy : List Bytes → List Acceptance → Bytes
  | [], _ => []
  | p :: ps, calls => takenOf p calls.head? ++ takenBy ps calls.tail

theorem takenOf_isPrefix (p : Bytes) (a : Option Acceptance) : takenOf p a <+: p := by
  match a with
  | none => exact List.prefix_rfl
  | some (.took n) => exact List.take_prefix n p
  | some (.failed e) => exact List.nil_prefix

theorem takenOf_ne_nil {channel : String} {p : Bytes} (hp : p ≠ []) {a : Option Acceptance}
    (ha : a.bind (Acceptance.fault? channel) = none) : takenOf p a ≠ [] := by
  match a with
  | none => exact hp
  | some (.took 0) => cases ha
  | some (.took (n + 1)) =>
    show p.take (n + 1) ≠ []
    rw [Ne, List.take_eq_nil_iff]
    simp [hp]
  | some (.failed e) => cases ha

namespace Outgoing

/-- What is left of the part being written when so many bytes of a payload's frame are out: the header's
rest, and behind the header that of the payload. -/
def rest (payload : Bytes) (out : Nat) : Bytes :=
  if out < 4 then (Bytes.big32 payload.length).drop out else payload.drop (out - 4)

/-- A payload's frame of which so many bytes are out. -/
def midway (payload : Bytes) (out : Nat) : Outgoing :=
  ofParts [(Bytes.big32 payload.length).drop out, payload.drop (out - 4)]

theorem start_eq_midway {payload : Bytes} (h : payload.length ≤ maxSize) :
    start payload = .ok (midway payload 0) := if_pos h

theorem length_rest (payload : Bytes) (out : Nat) :
    (rest payload out).length = if out < 4 then 4 - out else payload.length - (out - 4) := by
  unfold rest
  split
  · rw [List.length_drop, Bytes.length_big32]
  · rw [List.length_drop]

/-- Something is left as long as not all bytes are out. -/
theorem rest_eq_nil {payload : Bytes} {out : Nat} (h : out ≤ 4 + payload.length) :
    rest payload out = [] ↔ out = 4 + payload.length := by
  rw [← List.length_eq_zero_iff, length_rest]
  split
  · omega
  · omega

theorem length_rest_le {payload : Bytes} {out : Nat} (h : out ≤ 4 + payload.length) :
    out + (rest payload out).length ≤ 4 + payload.length := by
  rw [length_rest]
  split
  · omega
  · omega

theorem rest_prefix (payload : Bytes) (out : Nat) :
    rest payload out <+: (ofPayload payload).drop out := by
  rw [ofPayload, List.drop_append, Bytes.length_big32, rest]
  by_cases h : out < 4
  · rw [if_pos h]
    exact List.prefix_append _ _
  · have hheader : (Bytes.big32 payload.length).drop out = [] :=
      List.drop_eq_nil_of_le (by rw [Bytes.length_big32]; omega)
    simp only [if_neg h, hheader, List.nil_append, List.prefix_rfl]

theorem ofParts_cons {p : Bytes} (hp : p ≠ []) (ps : List Bytes) :
    (ofParts (p :: ps)).parts = p :: (ofParts ps).parts := by
  simp [ofParts, hp]

theorem ofParts_nil_cons (ps : List Bytes) : ofParts ([] :: ps) = ofParts ps := rfl

theorem parts_ofParts_nil : (ofParts []).parts = [] := rfl

/-- What is still to be written, part by part. -/
theorem parts_midway (payload : Bytes) (out : Nat) :
    (midway payload out).parts
      = (if out < 4 then [(Bytes.big32 payload.length).drop out] else [])
        ++ if payload.drop (out - 4) = [] then [] else [payload.drop (out - 4)] := by
  have hbody : (ofParts [payload.drop (out - 4)]).parts
      = if payload.drop (out - 4) = [] then [] else [payload.drop (out - 4)] := by
    split
    · next h => rw [h]; rfl
    · next h => rw [ofParts_cons h, parts_ofParts_nil]
  unfold midway
  by_cases h : out < 4
  · have hheader : (Bytes.big32 payload.length).drop out ≠ [] := by
      intro hnil
      have := congrArg List.length hnil
      rw [List.length_drop, Bytes.length_big32, List.length_nil] at this
      omega
    rw [ofParts_cons hheader, hbody, if_pos h, List.singleton_append]
  · have hheader : (Bytes.big32 payload.length).drop out = [] :=
      List.drop_eq_nil_of_le (by rw [Bytes.length_big32]; omega)
    rw [hheader, ofParts_nil_cons, hbody, if_neg h, List.nil_append]

theorem offered?_midway (payload : Bytes) (out : Nat) :
    (midway payload out).offered? = if rest payload out = [] then none else some (rest payload out) := by
  unfold offered?
  rw [parts_midway]
  by_cases h : out < 4
  · have hrest : rest payload out ≠ [] := by
      intro hnil
      have := congrArg List.length hnil
      rw [length_rest, if_pos h, List.length_nil] at this
      omega
    rw [if_neg hrest, rest, if_pos h, if_pos h]
    rfl
  · rw [rest, if_neg h, if_neg h, List.nil_append]
    split <;> rfl

theorem ofParts_congr {ps qs : List Bytes}
    (h : (ps.filter fun p => !p.isEmpty) = qs.filter fun p => !p.isEmpty) : ofParts ps = ofParts qs := by
  unfold ofParts
  simp only [h]

theorem advance_of_parts {o : Outgoing} {p : Bytes} {ps : List Bytes} (h : o.parts = p :: ps)
    (n : Nat) : o.advance n = ofParts (p.drop n :: ps) := by
  unfold advance
  rw [h]

theorem advance_midway {payload : Bytes} {out n : Nat} (hrest : rest payload out ≠ [])
    (hn : n ≤ (rest payload out).length) :
    (midway payload out).advance n = midway payload (out + n) := by
  have hparts := parts_midway payload out
  rw [length_rest] at hn
  unfold rest at hrest
  unfold midway at hparts ⊢
  by_cases h : out < 4
  · -- the call stays within the header, and all of the payload is left behind it
    rw [if_pos h] at hn hparts
    rw [advance_of_parts hparts, show out + n - 4 = out - 4 by omega, List.drop_drop]
    apply ofParts_congr
    by_cases hbody : payload.drop (out - 4) = []
    · simp [hbody, List.filter_cons]
    · simp [hbody]
  · rw [if_neg h] at hn hparts hrest
    rw [if_neg hrest, List.nil_append] at hparts
    have hheader : (Bytes.big32 payload.length).drop (out + n) = [] :=
      List.drop_eq_nil_of_le (by rw [Bytes.length_big32]; omega)
    rw [advance_of_parts hparts, hheader, ofParts_nil_cons, List.drop_drop,
      show out + n - 4 = out - 4 + n by omega]

end Outgoing

/-! ## One write call -/

section
variable (channel : String) {o : Outgoing} {p : Bytes} {a : Acceptance} {e : IoError}

theorem transmit_none (ho : o.offered? = none) (calls : List Acceptance) :
    transmit channel o calls = ⟨.ok (), [], [], calls⟩ := by
  cases calls with
  | nil =>
    have hparts : o.parts = [] := List.head?_eq_none_iff.1 ho
    rw [transmit, Outgoing.left, hparts]
    rfl
  | cons a as => simp only [transmit, ho]

theorem transmit_fault (ho : o.offered? = some p) (ha : a.fault? channel = some e)
    (as : List Acceptance) : transmit channel o (a :: as) = ⟨.error (.io e), [], [p], as⟩ := by
  cases a with
  | failed cause =>
    cases ha
    simp only [transmit, ho, Outgoing.wrote]
  | took n =>
    cases n with
    | zero =>
      cases ha
      simp only [transmit, ho, Nat.zero_min, Outgoing.wrote]
    | succ n => cases ha

/-- A call that takes something, and those behind it. -/
theorem transmit_taken (ho : o.offered? = some p) {calls : List Acceptance}
    (ha : calls.head?.bind (Acceptance.fault? channel) = none) :
    transmit channel o calls
      = { transmit channel (o.advance (takenOf p calls.head?).length) calls.tail with
          written := takenOf p calls.head?
            ++ (transmit channel (o.advance (takenOf p calls.head?).length) calls.tail).written
          offers := p
            :: (transmit channel (o.advance (takenOf p calls.head?).length) calls.tail).offers } := by
  have hp : 0 < p.length := List.length_pos_iff.2 (Outgoing.offered?_ne_nil ho)
  match calls with
  | [] =>
    obtain ⟨ps, hparts⟩ : ∃ ps, o.parts = p :: ps := List.head?_eq_some_iff.1 ho
    have hps : (Outgoing.ofParts ps).parts = ps := by
      rw [Outgoing.ofParts, List.filter_eq_self]
      intro q hq
      simpa using o.nonempty q (by rw [hparts]; exact List.mem_cons_of_mem _ hq)
    have hadvance : (o.advance p.length).parts = ps := by
      rw [Outgoing.advance_of_parts hparts, List.drop_length, Outgoing.ofParts_nil_cons, hps]
    show (⟨.ok (), o.left, o.parts, []⟩ : Transmission)
      = ⟨.ok (), p ++ (o.advance p.length).left, p :: (o.advance p.length).parts, []⟩
    rw [Outgoing.left, Outgoing.left, hadvance, hparts, List.flatten_cons]
  | .took 0 :: as => cases ha
  | .took (n + 1) :: as =>
    obtain ⟨m, hm⟩ : ∃ m, min (n + 1) p.length = m + 1 := ⟨min (n + 1) p.length - 1, by omega⟩
    have htake : p.take (m + 1) = p.take (n + 1) := by
      rw [← hm, ← List.take_take, List.take_length]
    have hlen : (p.take (n + 1)).length = m + 1 := by rw [List.length_take, hm]
    show _ = ({ transmit channel (o.advance (p.take (n + 1)).length) as with
      written := p.take (n + 1) ++ (transmit channel (o.advance (p.take (n + 1)).length) as).written
      offers := p :: (transmit channel (o.advance (p.take (n + 1)).length) as).offers }
        : Transmission)
    simp only [transmit, ho, hm, Outgoing.wrote, htake, hlen]
  | .failed cause :: as => cases ha

end

/-! ## All write calls -/

/-- The account of the write calls with which a payload's frame is sent, so many bytes of it being out
before the first of them. -/
structure Carried (channel : String) (payload : Bytes) (out : Nat) (calls : List Acceptance)
    (t : Transmission) : Prop where
  /-- A call is offered exactly what is left of the part being written, and never nothing. -/
  offered (i : Nat) (p : Bytes) (h : t.offers[i]? = some p) :
    p = Outgoing.rest payload (out + (takenBy (t.offers.take i) calls).length) ∧ p ≠ []
  /-- What is out is what the calls took. -/
  written : t.written = takenBy t.offers calls
  /-- Each call comes to the next thing that calls come to. -/
  later : t.later = calls.drop t.offers.length
  /-- Sending succeeds with the last byte of the frame. -/
  complete (h : t.outcome = .ok ()) : t.written = (ofPayload payload).drop out
  /-- A call that takes nothing or fails is the last one, and sending fails by it. -/
  faulted (i : Nat) (a : Acceptance) (e : IoError) (hi : i < t.offers.length) (ha : calls[i]? = some a)
    (he : a.fault? channel = some e) : t.outcome = .error (.io e) ∧ t.offers.length = i + 1
  /-- Sending fails only by such a call, and then something is left of the frame. -/
  failed (cause : LinkError) (h : t.outcome = .error cause) :
    (∃ i a e, i + 1 = t.offers.length ∧ calls[i]? = some a ∧ a.fault? channel = some e
      ∧ cause = .io e)
    ∧ ∃ left, left ≠ [] ∧ t.written ++ left = (ofPayload payload).drop out
  /-- There are no more calls than bytes. -/
  count : out + t.offers.length ≤ 4 + payload.length

section
variable {channel : String} {payload : Bytes} {out : Nat}

/-- What a call takes is what the frame goes on with. -/
theorem append_drop {taken : Bytes} (h : taken <+: Outgoing.rest payload out) :
    taken ++ (ofPayload payload).drop (out + taken.length) = (ofPayload payload).drop out := by
  rw [← List.drop_drop]
  exact List.prefix_iff_eq_append.1 (h.trans (Outgoing.rest_prefix payload out))

theorem carried_complete (h : out = 4 + payload.length) (calls : List Acceptance) :
    Carried channel payload out calls ⟨.ok (), [], [], calls⟩ := by
  have hend : (ofPayload payload).drop out = [] :=
    List.drop_eq_nil_of_le (by rw [length_ofPayload]; omega)
  exact {
    offered := fun i p hp => by simp at hp
    written := by simp [takenBy]
    later := rfl
    complete := fun _ => hend.symm
    faulted := fun i a e hi => absurd hi (Nat.not_lt_zero i)
    failed := nofun
    count := by simp; omega }

/-- A call that takes nothing or fails, with something left to offer it. -/
theorem carried_fault (h : out ≤ 4 + payload.length) {p : Bytes}
    (hp : p = Outgoing.rest payload out) (hne : p ≠ []) {a : Acceptance}
    {e : IoError} (ha : a.fault? channel = some e) (as : List Acceptance) :
    Carried channel payload out (a :: as) ⟨.error (.io e), [], [p], as⟩ := by
  have htaken : takenBy [p] (a :: as) = [] := by
    simp [takenBy, takenOf, Acceptance.bytesTaken_of_fault? ha]
  have hout : out ≠ 4 + payload.length := by
    rw [hp, Ne, Outgoing.rest_eq_nil h] at hne
    exact hne
  have hleft : (ofPayload payload).drop out ≠ [] := by
    intro hnil
    rw [List.drop_eq_nil_iff, length_ofPayload] at hnil
    omega
  exact {
    offered := fun i q hq => by
      cases i with
      | succ i => simp at hq
      | zero =>
        cases hq
        exact ⟨by simpa [takenBy] using hp, hne⟩
    written := htaken.symm
    later := rfl
    complete := nofun
    faulted := fun i b e' hi hb he => by
      obtain rfl : i = 0 := Nat.lt_one_iff.1 hi
      cases hb
      rw [ha] at he
      cases he
      exact ⟨rfl, rfl⟩
    failed := fun cause h => by
      cases h
      exact ⟨⟨0, a, e, rfl, rfl, ha, rfl⟩, _, hleft, rfl⟩
    count := by simp; omega }

/-- A call that takes something, and whatever the calls behind it come to. -/
theorem carried_taken {p : Bytes} (hp : p = Outgoing.rest payload out) (hne : p ≠ [])
    {calls : List Acceptance} (ha : calls.head?.bind (Acceptance.fault? channel) = none)
    {t : Transmission}
    (h : Carried channel payload (out + (takenOf p calls.head?).length) calls.tail t) :
    Carried channel payload out calls
      { t with written := takenOf p calls.head? ++ t.written, offers := p :: t.offers } := by
  have htaken : takenOf p calls.head? <+: Outgoing.rest payload out := by
    rw [← hp]
    exact takenOf_isPrefix p _
  have hpos : 0 < (takenOf p calls.head?).length :=
    List.length_pos_iff.2 (takenOf_ne_nil hne ha)
  have hget : ∀ i, calls[i + 1]? = calls.tail[i]? := fun i => (List.getElem?_tail ..).symm
  exact {
    offered := fun i q hq => by
      cases i with
      | zero =>
        cases hq
        exact ⟨by simpa [takenBy] using hp, hne⟩
      | succ i =>
        obtain ⟨heq, hq⟩ := h.offered i q hq
        refine ⟨heq.trans ?_, hq⟩
        rw [List.take_succ_cons, takenBy, List.length_append, Nat.add_assoc]
    written := by rw [takenBy, h.written]
    later := by rw [h.later, List.length_cons, List.drop_tail]
    complete := fun hok => by rw [h.complete hok, append_drop htaken]
    faulted := fun i a e hi hget' he => by
      cases i with
      | zero =>
        rw [← List.head?_eq_getElem?] at hget'
        rw [hget', Option.bind_some, he] at ha
        cases ha
      | succ i =>
        obtain ⟨hout, hlast⟩ := h.faulted i a e (Nat.lt_of_succ_lt_succ hi) (by rw [← hget, hget']) he
        exact ⟨hout, by rw [List.length_cons, hlast]⟩
    failed := fun cause hfail => by
      obtain ⟨⟨i, a, e, hi, hget', he, hcause⟩, left, hne, hleft⟩ := h.failed cause hfail
      refine ⟨⟨i + 1, a, e, by rw [List.length_cons, hi], by rw [hget, hget'], he, hcause⟩,
        left, hne, ?_⟩
      rw [List.append_assoc, hleft, append_drop htaken]
    count := by
      have := h.count
      rw [List.length_cons]
      omega }

/-- The account of the write calls, from any point of the frame on. -/
theorem transmit_carried (h : out ≤ 4 + payload.length) (calls : List Acceptance) :
    Carried channel payload out calls (transmit channel (Outgoing.midway payload out) calls) := by
  -- each call that does not end the sending brings the end of the frame nearer
  induction hn : 4 + payload.length - out using Nat.strongRecOn generalizing out calls with
  | ind n ih =>
    have hoffered := Outgoing.offered?_midway payload out
    have hlen := Outgoing.length_rest_le h
    by_cases hrest : Outgoing.rest payload out = []
    · rw [if_pos hrest] at hoffered
      rw [transmit_none channel hoffered]
      exact carried_complete ((Outgoing.rest_eq_nil h).1 hrest) calls
    rw [if_neg hrest] at hoffered
    cases hfault : calls.head?.bind (Acceptance.fault? channel) with
    | some e =>
      obtain ⟨a, ha, he⟩ := Option.bind_eq_some_iff.1 hfault
      obtain ⟨as, rfl⟩ := List.head?_eq_some_iff.1 ha
      rw [transmit_fault channel hoffered he]
      exact carried_fault h rfl hrest he as
    | none =>
      have htaken := (takenOf_isPrefix (Outgoing.rest payload out) calls.head?).length_le
      have hpos := List.length_pos_iff.2 (takenOf_ne_nil hrest hfault)
      rw [transmit_taken channel hoffered hfault, Outgoing.advance_midway hrest htaken]
      refine carried_taken rfl hrest hfault (ih _ ?_ ?_ calls.tail rfl)
      · omega
      · omega

end

/-- A payload beyond the greatest is refused for its length, and no write call is made. Any other is
sent by the account of its write calls, whatever these come to: each is offered all that is left of its
part of the frame, there are no more of them than bytes, and sending succeeds with the whole frame out or
fails, in the middle of it, by the first call that takes nothing or fails. -/
theorem send_carried (channel : String) (payload : Bytes) (calls : List Acceptance) :
    (maxSize < payload.length →
      send channel payload calls = ⟨.error (.frameTooLarge payload.length), [], [], calls⟩)
    ∧ (payload.length ≤ maxSize → Carried channel payload 0 calls (send channel payload calls)) := by
  constructor
  · intro hlarge
    have hstart : Outgoing.start payload = .error (.frameTooLarge payload.length) :=
      if_neg (Nat.not_le.2 hlarge)
    rw [send, hstart]
  · intro hfits
    rw [send, Outgoing.start_eq_midway hfits]
    exact transmit_carried (Nat.zero_le _) calls

/-- The header goes out in two calls; the payload's first byte is taken and then nothing. -/
theorem send_carried_stalled :
    (send "c" [7, 8, 9] [.took 3, .took 5, .took 1, .took 0, .took 2]).offers
        = [[0, 0, 0, 3], [3], [7, 8, 9], [8, 9]]
      ∧ (send "c" [7, 8, 9] [.took 3, .took 5, .took 1, .took 0, .took 2]).outcome
        = .error (.io ⟨.writeZero, "c: peer stopped accepting data"⟩)
      ∧ (send "c" [7, 8, 9] [.took 3, .took 5, .took 1, .took 0, .took 2]).written
        = [0, 0, 0, 3, 7] := by
  have hcarried := (send_carried "c" [7, 8, 9] [.took 3, .took 5, .took 1, .took 0, .took 2]).2
    (by decide)
  exact ⟨rfl, (hcarried.faulted 3 (.took 0) _ (by decide) rfl rfl).1, hcarried.written⟩

end CommandLink.Frame
