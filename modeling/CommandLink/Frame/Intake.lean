import CommandLink.Frame.Outgoing
/-!
# Receiving frames

A frame is put together from reads of any size. At every moment it is known how many bytes are
still wanted, and no read asks for more, so nothing behind the frame is touched.

Results:
* `feed_more_wanted`: bytes that do not complete the frame are all used.
* `feed_frame`: a payload that comes out was fed as a frame, and what follows it is left over.
-/
namespace CommandLink.Frame

/-- What a read comes to, if it does not fail. -/
inductive ReadStatus where
  | data (bytes : Bytes)
  /-- Nothing is there right now. -/
  | empty
  /-- The other side has closed its end. -/
  | eof
  deriving Repr, DecidableEq

/-- How much of a frame has been read. -/
inductive Intake where
  /-- The header is not complete. -/
  | header (got : Bytes)
  /-- The payload, of known size, is not complete. -/
  | body (size : Nat) (got : Bytes)
  deriving Repr, DecidableEq

/-- What bytes that were read make of a frame. -/
inductive Fed where
  | more (i : Intake)
  | frame (payload : Bytes)
  | refused (cause : LinkError)
  deriving Repr

namespace Intake

/-- Nothing read yet. -/
def start : Intake := .header []

/-- How many bytes the next read asks for. -/
def wanted : Intake → Nat
  | header got => 4 - got.length
  | body size got => size - got.length

/-- Feeds bytes to a payload of known size; what is behind it is left over. -/
def feedBody (size : Nat) (got bs : Bytes) : Fed × Bytes :=
  let all := got ++ bs
  if all.length < size then (.more (.body size all), []) else (.frame (all.take size), all.drop size)

/-- Feeds bytes to a frame; what is behind it is left over. -/
def feed (i : Intake) (bs : Bytes) : Fed × Bytes :=
  match i with
  | header got =>
    let all := got ++ bs
    if all.length < 4 then (.more (.header all), [])
    else
      let size := Bytes.ofBig (all.take 4)
      if maxSize < size then (.refused (.frameTooLarge size), all.drop 4)
      else feedBody size [] (all.drop 4)
  | body size got => feedBody size got bs

/-- The other side closed: between frames all is well, inside one it is an error. Mirrors the end of
the bytes in `read_exact`. -/
def ended (channel : String) : Intake → Except LinkError (Option Bytes)
  | header [] => .ok none
  | _ => .error (.io ⟨.unexpectedEof, channel ++ ": peer closed mid-frame"⟩)

/-- What one read makes of a frame being received: still under way, or done with. Bytes behind the
frame are left over. Mirrors one round of `read_exact` in `recv_message`. -/
def read (channel : String) (i : Intake) :
    Except IoError ReadStatus → (Intake ⊕ Except LinkError (Option Bytes)) × Bytes
  | .error e => (.inr (.error (.io e)), [])
  | .ok .empty => (.inl i, [])
  | .ok .eof => (.inr (i.ended channel), [])
  | .ok (.data bs) =>
    match i.feed bs with
    | (.more i, rest) => (.inl i, rest)
    | (.frame payload, rest) => (.inr (.ok (some payload)), rest)
    | (.refused e, rest) => (.inr (.error e), rest)

theorem feedBody_frame {size : Nat} {got bs payload rest : Bytes}
    (h : feedBody size got bs = (.frame payload, rest)) :
    got ++ bs = payload ++ rest ∧ payload.length = size := by
  simp only [feedBody] at h
  split at h
  · cases h
  · next hn =>
    cases h
    exact ⟨(List.take_append_drop _ _).symm, by rw [List.length_take]; omega⟩

theorem feed_frame {bs payload rest : Bytes} (h : start.feed bs = (.frame payload, rest)) :
    ∃ header : Bytes, header.length = 4 ∧ Bytes.ofBig header = payload.length
      ∧ payload.length ≤ maxSize ∧ bs = header ++ payload ++ rest := by
  simp only [start, feed, List.nil_append] at h
  split at h
  · cases h
  · next h4 =>
    split at h
    · cases h
    · next hmax =>
      obtain ⟨hall, hlen⟩ := feedBody_frame h
      refine ⟨bs.take 4, by rw [List.length_take]; omega, hlen.symm, by omega, ?_⟩
      rw [List.append_assoc, ← hall, List.nil_append, List.take_append_drop]

theorem feed_more_wanted {i i' : Intake} {bs rest : Bytes} (h : i.feed bs = (.more i', rest)) :
    rest = [] ∧ 0 < i'.wanted := by
  cases i with
  | header got =>
    simp only [feed] at h
    split at h
    · next hlt =>
      cases h
      exact ⟨rfl, by simp only [wanted]; omega⟩
    · split at h
      · cases h
      · simp only [feedBody] at h
        split at h
        · next hlt =>
          cases h
          exact ⟨rfl, by simp only [wanted]; omega⟩
        · cases h
  | body size got =>
    simp only [feed, feedBody] at h
    split at h
    · next hlt =>
      cases h
      exact ⟨rfl, by simp only [wanted]; omega⟩
    · cases h

end Intake

/-- Bytes of a read that were not wanted come first the next time. -/
def putBack (rest : Bytes) (reads : List (Except IoError ReadStatus)) :
    List (Except IoError ReadStatus) :=
  if rest.isEmpty then reads else .ok (.data rest) :: reads

/-- Receives from reads that come to what a list says, and to the end behind it. Gives what came,
or none at the end between frames, and the reads that are left. Mirrors `recv_message`. -/
def receive (channel : String) (i : Intake) :
    List (Except IoError ReadStatus) →
      Except LinkError (Option Bytes) × List (Except IoError ReadStatus)
  | [] => (i.ended channel, [])
  | r :: rs =>
    match i.read channel r with
    | (.inl i, _) => receive channel i rs
    | (.inr outcome, rest) => (outcome, putBack rest rs)

end CommandLink.Frame
