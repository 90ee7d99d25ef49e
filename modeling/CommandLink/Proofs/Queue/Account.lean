import CommandLink.Proofs.Queue.Outcome
/-!
# Accounts of streams

What a log says of one stream: the requests that were completed over it, the bytes that went out on
it, each with the number of the request that it was written for, and the bytes that came in. An
account balances these: what went out are the frames of the completed requests, and what came in are
frames of their responses; behind them there may be bytes of a last request that is not completed.

Results:
* `Account.add`: marks that move no byte of a stream leave its account.
* `Account.wrote`, `Account.read`, `Account.completed`: what a request does to the account of the
  stream it goes over.
* `silent_snoc`: only a stream that was not given back is used.
-/
namespace CommandLink

namespace Mark
variable {χ : Type} [DecidableEq χ]

/-- The stream that a mark is about. -/
def about? : Mark χ → Option χ
  | probed _ x _ | connected _ _ x | wrote _ x _ _ | read _ x _ | released x _ => some x
  | ended _ x _ => x
  | put _ => none

/-- The stream of which a mark says that it was looked at, written to or read from. -/
def used? : Mark χ → Option χ
  | probed _ x _ | wrote _ x _ _ | read _ x _ => some x
  | put _ | connected _ _ _ | released _ _ | ended _ _ _ => none

/-- The bytes that a mark says were written to a stream, each with the number of its request. -/
def writtenTo (x : χ) : Mark χ → List (Nat × UInt8)
  | wrote k y offered a => if y = x then (a.bytesTaken offered).map (k, ·) else []
  | _ => []

/-- The bytes that a mark says were taken from a stream. -/
def consumedFrom (x : χ) : Mark χ → Bytes
  | read _ y s | probed _ y s => if y = x then Frame.bytesRead s else []
  | _ => []

/-- The request that a mark says was completed over a stream, with its number. -/
def exchange? (x : χ) : Mark χ → Option (Nat × Ending)
  | ended k (some y) e => if y = x ∧ e.request.progress = .completed then some (k, e) else none
  | _ => none

/-- A mark of something after which a stream is not to be used again. -/
def Spoils (x : χ) : Mark χ → Prop
  | probed _ y s => y = x ∧ s ≠ .ok .empty
  | wrote _ y _ a => y = x ∧ a.goesOn = false
  | read _ y s => y = x ∧ Frame.goesOn s = false
  | ended _ (some y) e => y = x ∧ e.request.progress ≠ .completed
  | _ => False

omit [DecidableEq χ] in
theorem spoils_about {x : χ} {m : Mark χ} (h : m.Spoils x) : m.about? = some x := by
  cases m with
  | probed k y s => exact congrArg some h.1
  | wrote k y bs a => exact congrArg some h.1
  | read k y s => exact congrArg some h.1
  | ended k y e =>
    cases y with
    | none => cases h
    | some y => exact congrArg some h.1
  | _ => cases h

end Mark

namespace Log
variable {χ : Type} [DecidableEq χ] {x : χ} {log new : List (Mark χ)}

def writtenTo (x : χ) (log : List (Mark χ)) : List (Nat × UInt8) := log.flatMap (Mark.writtenTo x)

def consumedFrom (x : χ) (log : List (Mark χ)) : Bytes := log.flatMap (Mark.consumedFrom x)

/-- The requests that were completed over a stream, in their order. -/
def exchanges (x : χ) (log : List (Mark χ)) : List (Nat × Ending) :=
  log.filterMap (Mark.exchange? x)

/-- The frames of requests, each byte with its request's number. -/
def frames (es : List (Nat × Ending)) : List (Nat × UInt8) :=
  es.flatMap fun e => (Frame.ofPayload e.2.request.encode).map (e.1, ·)

/-- The responses among the outcomes of requests. -/
def answers (es : List (Nat × Ending)) : List Response := es.filterMap fun e => e.2.response

theorem writtenTo_append (x : χ) (a b : List (Mark χ)) :
    writtenTo x (a ++ b) = writtenTo x a ++ writtenTo x b := List.flatMap_append

theorem consumedFrom_append (x : χ) (a b : List (Mark χ)) :
    consumedFrom x (a ++ b) = consumedFrom x a ++ consumedFrom x b := List.flatMap_append

theorem exchanges_append (x : χ) (a b : List (Mark χ)) :
    exchanges x (a ++ b) = exchanges x a ++ exchanges x b := List.filterMap_append

/-- The bytes that were written for a last request that is not completed, if there is one. -/
def lastBytes (last : Option Nat) (log : List (Mark χ)) : List (Nat × UInt8) :=
  match last with
  | none => []
  | some k => (writtenBy k log).map (k, ·)

/-- Marks that move no byte of a stream and complete no request over it. -/
structure Still (x : χ) (new : List (Mark χ)) : Prop where
  writtenTo : writtenTo x new = []
  consumedFrom : consumedFrom x new = []
  exchanges : exchanges x new = []

/-- Marks that are about other streams. -/
theorem still_of_about (h : ∀ m ∈ new, m.about? ≠ some x) : Still x new := by
  refine ⟨List.flatMap_eq_nil_iff.2 fun m hm => ?_, List.flatMap_eq_nil_iff.2 fun m hm => ?_,
    List.filterMap_eq_nil_iff.2 fun m hm => ?_⟩
  · have hne := h m hm
    cases m with
    | wrote k y bs a => exact if_neg fun he => hne (congrArg some he)
    | _ => rfl
  · have hne := h m hm
    cases m with
    | read k y s => exact if_neg fun he => hne (congrArg some he)
    | probed k y s => exact if_neg fun he => hne (congrArg some he)
    | _ => rfl
  · have hne := h m hm
    cases m with
    | ended k y e =>
      cases y with
      | none => rfl
      | some y => exact if_neg fun he => hne (congrArg some he.1)
    | _ => rfl

theorem still_releases (x : χ) (h : Releases new) : Still x new := by
  refine ⟨flatMap_releases (fun _ _ => rfl) h, flatMap_releases (fun _ _ => rfl) h,
    List.filterMap_eq_nil_iff.2 fun m hm => ?_⟩
  obtain ⟨y, r, rfl⟩ := h m hm
  rfl

/-- The account of a stream: the frames of the requests that were completed over it, with what was
written for a last one behind them, and their responses, with what came in for the last one. -/
structure Account (log : List (Mark χ)) (x : χ) (last : Option Nat) (got : Bytes) : Prop where
  written : writtenTo x log = frames (exchanges x log) ++ lastBytes last log
  consumed : ∃ ps, Frame.Fit ps
    ∧ ps.map Response.decode = (answers (exchanges x log)).map Except.ok
    ∧ consumedFrom x log = Frame.stream ps ++ got
  fit : ∀ e ∈ exchanges x log, e.2.request.encode.length ≤ Frame.maxSize
  /-- The requests went over the stream in the order of their numbers. -/
  rising : ((exchanges x log).map Prod.fst ++ last.toList).Pairwise (· < ·)

theorem Account.add {last : Option Nat} {got : Bytes} (h : Account log x last got)
    (hs : Still x new) (hlast : ∀ k, last = some k → writtenBy k new = []) :
    Account (log ++ new) x last got := by
  have hex : exchanges x (log ++ new) = exchanges x log := by
    rw [exchanges_append, hs.exchanges, List.append_nil]
  have hbytes : lastBytes last (log ++ new) = lastBytes last log := by
    cases last with
    | none => rfl
    | some k => rw [lastBytes, writtenBy_append, hlast k rfl, List.append_nil]; rfl
  obtain ⟨hwritten, ⟨ps, hfit, hdecode, hstream⟩, hfits, hrising⟩ := h
  refine ⟨?_, ⟨ps, hfit, ?_, ?_⟩, ?_, ?_⟩
  · rw [writtenTo_append, hs.writtenTo, List.append_nil, hex, hbytes, hwritten]
  · rw [hex, hdecode]
  · rw [consumedFrom_append, hs.consumedFrom, List.append_nil, hstream]
  · rwa [hex]
  · rwa [hex]

/-- A request begins to be written. -/
theorem Account.begin {got : Bytes} (h : Account log x none got) {k : Nat}
    (hk : writtenBy k log = []) (hlt : ∀ e ∈ exchanges x log, e.1 < k) :
    Account log x (some k) got := by
  obtain ⟨hwritten, hconsumed, hfits, hrising⟩ := h
  refine ⟨?_, hconsumed, hfits, ?_⟩
  · rw [hwritten, lastBytes, lastBytes, hk]
    rfl
  · rw [Option.toList_none, List.append_nil] at hrising
    refine List.pairwise_append.2 ⟨hrising, List.pairwise_singleton _ _, fun a ha b hb => ?_⟩
    obtain ⟨e, he, rfl⟩ := List.mem_map.1 ha
    rw [List.mem_singleton.1 hb]
    exact hlt e he

theorem Account.wrote {k : Nat} {got : Bytes} (h : Account log x (some k) got) (bs : Bytes)
    (a : Frame.Acceptance) : Account (log ++ [.wrote k x bs a]) x (some k) got := by
  obtain ⟨hwritten, ⟨ps, hfit, hdecode, hstream⟩, hfits, hrising⟩ := h
  have hex : exchanges x (log ++ [.wrote k x bs a]) = exchanges x log := by
    rw [exchanges_append]
    exact List.append_nil _
  refine ⟨?_, ⟨ps, hfit, by rw [hex, hdecode], ?_⟩, by rwa [hex], by rwa [hex]⟩
  · rw [writtenTo_append, hex, hwritten, lastBytes, lastBytes, writtenBy_append, List.append_assoc,
      List.map_append]
    simp [writtenTo, Mark.writtenTo, writtenBy, Mark.writtenBy]
  · rw [consumedFrom_append, hstream]
    exact List.append_nil _

theorem Account.read {last : Option Nat} {k : Nat} {got : Bytes} (h : Account log x last got)
    (p : Except IoError Frame.ReadStatus) :
    Account (log ++ [.read k x p]) x last (got ++ Frame.bytesRead p) := by
  obtain ⟨hwritten, ⟨ps, hfit, hdecode, hstream⟩, hfits, hrising⟩ := h
  have hex : exchanges x (log ++ [.read k x p]) = exchanges x log := by
    rw [exchanges_append]
    exact List.append_nil _
  refine ⟨?_, ⟨ps, hfit, by rw [hex, hdecode], ?_⟩, by rwa [hex], by rwa [hex]⟩
  · rw [writtenTo_append, hex, hwritten, List.append_assoc]
    cases last with
    | none => rfl
    | some k' =>
      rw [lastBytes, lastBytes, writtenBy_append]
      simp [writtenTo, Mark.writtenTo, writtenBy, Mark.writtenBy]
  · rw [consumedFrom_append, hstream, List.append_assoc]
    simp [consumedFrom, Mark.consumedFrom]

theorem Account.probed {k : Nat} {got : Bytes} (h : Account log x none got)
    (p : Except IoError Frame.ReadStatus) :
    Account (log ++ [.probed k x p]) x none (got ++ Frame.bytesRead p) := by
  obtain ⟨hwritten, ⟨ps, hfit, hdecode, hstream⟩, hfits, hrising⟩ := h
  have hex : exchanges x (log ++ [.probed k x p]) = exchanges x log := by
    rw [exchanges_append]
    exact List.append_nil _
  refine ⟨?_, ⟨ps, hfit, by rw [hex, hdecode], ?_⟩, by rwa [hex], by rwa [hex]⟩
  · rw [writtenTo_append, hex, hwritten, List.append_assoc]
    rfl
  · rw [consumedFrom_append, hstream, List.append_assoc]
    simp [consumedFrom, Mark.consumedFrom]

/-- A request is completed whose frame was written and for which the frames came in that it waits
for: one with its response or none at all. -/
theorem Account.completed {k : Nat} {r : Request} {response : Option Response} {ps : List Bytes}
    (h : Account log x (some k) (Frame.stream ps))
    (hw : writtenBy k log = Frame.ofPayload r.encode) (hl : r.encode.length ≤ Frame.maxSize)
    (hps : Frame.Fit ps) (hd : ps.map Response.decode = response.toList.map Except.ok) :
    Account (log ++ [.ended k (some x) (.completed r response)]) x none [] := by
  obtain ⟨hwritten, ⟨qs, hfit, hdecode, hstream⟩, hfits, hrising⟩ := h
  have hex : exchanges x (log ++ [.ended k (some x) (.completed r response)])
      = exchanges x log ++ [(k, .completed r response)] := by
    rw [exchanges_append]
    congr 1
    simp [exchanges, Mark.exchange?, Ending.completed]
  refine ⟨?_, ⟨qs ++ ps, ?_, ?_, ?_⟩, ?_, ?_⟩
  · have hlast : lastBytes (some k) log = (Frame.ofPayload r.encode).map (k, ·) := by
      simp only [lastBytes, hw]
    rw [writtenTo_append, hex, hwritten, hlast]
    simp only [frames, List.flatMap_append, List.flatMap_singleton, lastBytes, List.append_nil]
    exact List.append_nil _
  · intro p hp
    exact (List.mem_append.1 hp).elim (hfit p) (hps p)
  · rw [hex, List.map_append, hdecode, hd]
    simp only [answers, List.filterMap_append, List.map_append]
    cases response <;> rfl
  · rw [consumedFrom_append, hstream, Frame.stream_append, List.append_nil]
    exact List.append_nil _
  · rw [hex]
    intro e he
    rcases List.mem_append.1 he with he | he
    · exact hfits e he
    · rw [List.mem_singleton.1 he]
      exact hl
  · rw [hex, List.map_append, Option.toList_none, List.append_nil]
    exact hrising

/-- The bytes that went out over a stream whose account is even are complete frames. -/
theorem Account.whole {got : Bytes} (h : Account log x none got) :
    Frame.Whole ((writtenTo x log).map Prod.snd) := by
  refine ⟨(exchanges x log).map fun e => e.2.request.encode, fun p hp => ?_, ?_⟩
  · obtain ⟨e, he, rfl⟩ := List.mem_map.1 hp
    exact h.fit e he
  · rw [h.written, lastBytes, List.append_nil, frames, Frame.stream, List.map_flatMap,
      List.flatMap_map]
    simp only [List.map_map, Function.comp_def, List.map_id']

theorem Account.whole_consumed {last : Option Nat} (h : Account log x last []) :
    Frame.Whole (consumedFrom x log) := by
  obtain ⟨ps, hfit, -, hstream⟩ := h.consumed
  exact ⟨ps, hfit, by rw [hstream, List.append_nil]⟩

end Log

/-! ## What was given back -/

namespace Log
variable {χ : Type} {log new : List (Mark χ)}

/-- Streams are not used any more once something of them was given back. -/
def Silent (log : List (Mark χ)) : Prop :=
  ∀ front m back, log = front ++ m :: back → ∀ x, m.used? = some x →
    ∀ r, .released x r ∉ front

theorem silent_snoc {m : Mark χ} (h : Silent log)
    (hm : ∀ x, m.used? = some x → ∀ r, .released x r ∉ log) : Silent (log ++ [m]) := by
  intro front m' back he x hx
  rcases List.eq_nil_or_concat back with rfl | ⟨back', m'', rfl⟩
  · obtain ⟨rfl, he'⟩ := List.append_inj' he rfl
    cases he'
    exact hm x hx
  · rw [List.concat_eq_append, ← List.cons_append, ← List.append_assoc] at he
    obtain ⟨rfl, -⟩ := List.append_inj' he rfl
    exact h front m' back' rfl x hx

/-- Marks of no use of a stream. -/
theorem silent_unused (h : Silent log) (hn : ∀ m ∈ new, m.used? = none) : Silent (log ++ new) := by
  induction new generalizing log with
  | nil => rwa [List.append_nil]
  | cons m new ih =>
    rw [List.append_cons]
    refine ih (silent_snoc h fun x hx => ?_) fun m' hm' => hn m' (List.mem_cons_of_mem _ hm')
    rw [hn m List.mem_cons_self] at hx
    cases hx

end Log
end CommandLink
