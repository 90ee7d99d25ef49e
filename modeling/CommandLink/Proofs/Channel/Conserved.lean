import CommandLink.Duplex
import CommandLink.Proofs.Places
/-!
# What goes through a pipe

Two channels on the sides of a pipe are written, read, closed and let go of in any order. A history
tells what was done and what it came to; what would have to wait is given up, and may be tried again.
The bytes that a side was given are those that the other side got in, as far as they have come, and what
a read says of the pipe is so.

Results:
* `moved`: all that an act can do.
* `kept_recorded`: what was got in is what was given and what is still buffered.
* `conserves_bytes`: nothing is lost, repeated or made up, and no channel is closed by another.
-/
namespace CommandLink

/-- What can be done on a side of a pipe. -/
inductive PipeAct where
  | write (bytes : Bytes)
  | read (size : Nat)
  /-- Reads what is there, and does not wait. -/
  | tryRead (size : Nat)
  | close
  | letGo
  deriving DecidableEq

/-- What an act came to. -/
inductive PipeResult where
  | wrote (r : Attempt Nat)
  | read (r : Attempt Frame.ReadStatus)
  | released
  /-- The side has no channel any more. -/
  | gone

structure PipeNote where
  side : Side
  act : PipeAct
  result : PipeResult

/-! ## Histories -/

namespace PipeNote

/-- The bytes that a side got in. -/
def accepted (s : Side) (n : PipeNote) : Bytes :=
  match n.act, n.result with
  | .write bytes, .wrote (.done k) => if n.side = s then bytes.take k else []
  | _, _ => []

/-- The bytes that a side was given. -/
def delivered (s : Side) (n : PipeNote) : Bytes :=
  match n.result with
  | .read (.done (.data bytes)) => if n.side = s then bytes else []
  | _ => []

/-- A side did something. -/
def Did (s : Side) (act : PipeAct) (notes : List PipeNote) : Prop :=
  ∃ n ∈ notes, n.side = s ∧ n.act = act

/-- A channel was closed or let go of, on either side. -/
def Severed (notes : List PipeNote) : Prop :=
  ∃ s, Did s .close notes ∨ Did s .letGo notes

def allAccepted (s : Side) (notes : List PipeNote) : Bytes := notes.flatMap (accepted s)

def allDelivered (s : Side) (notes : List PipeNote) : Bytes := notes.flatMap (delivered s)

/-- The bytes on their way to a side: the other side got them in, and they were not given yet. -/
def outstanding (s : Side) (notes : List PipeNote) : Bytes :=
  (allAccepted s.other notes).drop (allDelivered s notes).length

/-- An error of using a channel that was closed. -/
def IsClosed (e : IoError) : Prop := e.kind = .notConnected

/-- What a note tells is so, by the history in front of it. -/
def Fits (capacity : Nat) (front : List PipeNote) (n : PipeNote) : Prop :=
  match n.act, n.result with
  | .write _, .wrote (.failed e) => IsClosed e ∧ Did n.side .close front
      ∨ e.kind = .brokenPipe ∧ ¬ Did n.side .close front ∧ Severed front
  | .write _, .wrote .waits =>
    ¬ Severed front ∧ capacity ≤ (outstanding n.side.other front).length
  | .write bytes, .wrote (.done k) =>
    ¬ Severed front ∧ k = min (capacity - (outstanding n.side.other front).length) bytes.length
  | .read _, .read (.failed e) | .tryRead _, .read (.failed e) =>
    IsClosed e ∧ Did n.side .close front
  | .read _, .read .waits | .tryRead _, .read (.done .empty) =>
    ¬ Severed front ∧ outstanding n.side front = []
  | .read _, .read (.done .eof) | .tryRead _, .read (.done .eof) =>
    Severed front ∧ outstanding n.side front = []
  | .read size, .read (.done (.data bytes)) | .tryRead size, .read (.done (.data bytes)) =>
    bytes = (outstanding n.side front).take size ∧ (bytes = [] → size = 0)
  | .close, .released | .letGo, .released => True
  | _, .gone => Did n.side .letGo front
  | _, _ => False

variable {s : Side} {act : PipeAct} {notes : List PipeNote} {n : PipeNote}

theorem did_snoc : Did s act (notes ++ [n]) ↔ Did s act notes ∨ n.side = s ∧ n.act = act := by
  simp only [Did, List.mem_append, List.mem_singleton, or_and_right, exists_or, exists_eq_left]

theorem did_snoc_of_ne (h : n.act ≠ act) : Did s act (notes ++ [n]) ↔ Did s act notes := by
  rw [did_snoc, or_iff_left fun hn => h hn.2]

theorem severed_snoc : Severed (notes ++ [n])
    ↔ Severed notes ∨ n.act = .close ∨ n.act = .letGo := by
  simp only [Severed, did_snoc, or_or_or_comm, exists_or, exists_eq_left']

theorem severed_of_did (h : Did s .close notes) : Severed notes := ⟨s, .inl h⟩

theorem allAccepted_snoc (s : Side) (notes : List PipeNote) (n : PipeNote) :
    allAccepted s (notes ++ [n]) = allAccepted s notes ++ n.accepted s := by
  simp [allAccepted]

theorem allDelivered_snoc (s : Side) (notes : List PipeNote) (n : PipeNote) :
    allDelivered s (notes ++ [n]) = allDelivered s notes ++ n.delivered s := by
  simp [allDelivered]

end PipeNote

namespace ChannelPair
variable {capacity : Nat} {p p' : ChannelPair} {s : Side} {act : PipeAct} {result : PipeResult}
  {notes : List PipeNote}
open PipeNote

/-- Does something on a side. -/
def step (p : ChannelPair) (s : Side) (act : PipeAct) : PipeResult × ChannelPair :=
  match p.channel s with
  | none => (.gone, p)
  | some c =>
    match act with
    | .write bytes => (p.write c bytes).map .wrote id
    | .read size => (p.read c size).map .read id
    | .tryRead size => (p.tryRead c size).map .read id
    | .close => (.released, p.close s c)
    | .letGo => (.released, p.letGo s)

/-- What can become of a pipe of some capacity, with its history until then. -/
inductive Recorded (capacity : Nat) : ChannelPair → List PipeNote → Prop
  | start : Recorded capacity (.start capacity) []
  | step {p : ChannelPair} {notes : List PipeNote} (before : Recorded capacity p notes) (s : Side)
      (act : PipeAct) :
      Recorded capacity (p.step s act).2 (notes ++ [⟨s, act, (p.step s act).1⟩])

/-! ## What an act does -/

/-- The pipe with other bytes on their way to a side. -/
def carrying (p : ChannelPair) (s : Side) (bytes : Bytes) : ChannelPair :=
  { p with pipe := p.pipe.setToward s bytes }

/-- All that an act can do. -/
inductive Moved (p : ChannelPair) (s : Side) : PipeAct → PipeResult → ChannelPair → Prop
  | gone (h : p.channel s = none) (act : PipeAct) : Moved p s act .gone p
  | unwritable {c : Channel Side} (h : p.channel s = some c) (closed : c.stream = none)
      (bytes : Bytes) : Moved p s (.write bytes) (.wrote (.failed c.closedError)) p
  | unreadable {c : Channel Side} (h : p.channel s = some c) (closed : c.stream = none)
      {act : PipeAct} {size : Nat} (reads : act = .read size ∨ act = .tryRead size) :
      Moved p s act (.read (.failed c.closedError)) p
  | broken {c : Channel Side} (h : p.channel s = some c) (unclosed : c.stream = some s)
      (severed : p.pipe.severed = true) (bytes : Bytes) :
      Moved p s (.write bytes) (.wrote (.failed Duplex.severedError)) p
  | full {c : Channel Side} (h : p.channel s = some c) (unclosed : c.stream = some s)
      (whole : p.pipe.severed = false) (room : p.pipe.room s = 0) (bytes : Bytes) :
      Moved p s (.write bytes) (.wrote .waits) p
  | wrote {c : Channel Side} (h : p.channel s = some c) (unclosed : c.stream = some s)
      (whole : p.pipe.severed = false) (bytes : Bytes) :
      Moved p s (.write bytes) (.wrote (.done (min (p.pipe.room s) bytes.length)))
        (p.carrying s.other
          (p.pipe.toward s.other ++ bytes.take (min (p.pipe.room s) bytes.length)))
  | waited {c : Channel Side} (h : p.channel s = some c) (unclosed : c.stream = some s)
      (whole : p.pipe.severed = false) (nothing : p.pipe.toward s = []) (size : Nat) :
      Moved p s (.read size) (.read .waits) p
  | empty {c : Channel Side} (h : p.channel s = some c) (unclosed : c.stream = some s)
      (whole : p.pipe.severed = false) (nothing : p.pipe.toward s = []) (size : Nat) :
      Moved p s (.tryRead size) (.read (.done .empty)) p
  | ended {c : Channel Side} (h : p.channel s = some c) (unclosed : c.stream = some s)
      (severed : p.pipe.severed = true) (nothing : p.pipe.toward s = []) {act : PipeAct}
      {size : Nat} (reads : act = .read size ∨ act = .tryRead size) :
      Moved p s act (.read (.done .eof)) (p.carrying s [])
  | took {c : Channel Side} (h : p.channel s = some c) (unclosed : c.stream = some s)
      {act : PipeAct} {size : Nat} (reads : act = .read size ∨ act = .tryRead size)
      (some : (p.pipe.toward s).take size = [] → size = 0) :
      Moved p s act (.read (.done (.data ((p.pipe.toward s).take size))))
        (p.carrying s ((p.pipe.toward s).drop size))
  | closed {c : Channel Side} (h : p.channel s = some c) :
      Moved p s .close .released (p.close s c)
  | letGo {c : Channel Side} (h : p.channel s = some c) : Moved p s .letGo .released (p.letGo s)

/-- Reading a channel that was not closed. -/
theorem read_cases {c : Channel Side} (unclosed : c.stream = some s) (size : Nat) :
    (p.read c size = (.waits, p) ∧ p.pipe.severed = false ∧ p.pipe.toward s = [])
    ∨ (p.read c size = (.done .eof, p.carrying s []) ∧ p.pipe.severed = true
      ∧ p.pipe.toward s = [])
    ∨ (p.read c size = (.done (.data ((p.pipe.toward s).take size)),
        p.carrying s ((p.pipe.toward s).drop size))
      ∧ ((p.pipe.toward s).take size = [] → size = 0)) := by
  simp only [read, Channel.stream?, unclosed, Duplex.read, Channel.status, List.isEmpty_iff,
    Bool.not_eq_true', carrying]
  by_cases hwaits : p.pipe.toward s = [] ∧ p.pipe.severed = false ∧ 0 < size
  · rw [if_pos hwaits]
    exact .inl ⟨rfl, hwaits.2.1, hwaits.1⟩
  · rw [if_neg hwaits]
    by_cases hnone : (p.pipe.toward s).take size = [] ∧ 0 < size
    · have hnothing : p.pipe.toward s = [] :=
        (List.take_eq_nil_iff.1 hnone.1).resolve_left (Nat.ne_of_gt hnone.2)
      rw [if_pos hnone]
      refine .inr (.inl ⟨by rw [hnothing, List.drop_nil], ?_, hnothing⟩)
      by_contra hwhole
      exact hwaits ⟨hnothing, by simpa using hwhole, hnone.2⟩
    · rw [if_neg hnone]
      exact .inr (.inr ⟨rfl, fun hnil => Nat.eq_zero_of_not_pos fun hpos => hnone ⟨hnil, hpos⟩⟩)

theorem moved (own : ∀ c t, p.channel s = some c → c.stream = some t → t = s) (act : PipeAct) :
    Moved p s act (p.step s act).1 (p.step s act).2 := by
  unfold step
  cases hc : p.channel s with
  | none => exact .gone hc act
  | some c =>
    cases hstream : c.stream with
    | none =>
      cases act with
      | write bytes =>
        simp only [write, Channel.stream?, hstream]
        exact .unwritable hc hstream bytes
      | read size =>
        simp only [read, Channel.stream?, hstream]
        exact .unreadable hc hstream (.inl rfl)
      | tryRead size =>
        simp only [tryRead, read, Channel.stream?, hstream]
        exact .unreadable hc hstream (.inr rfl)
      | close => exact .closed hc
      | letGo => exact .letGo hc
    | some t =>
      cases own c t hc hstream
      cases act with
      | write bytes =>
        simp only [write, Channel.stream?, hstream, Duplex.write]
        by_cases hsevered : p.pipe.severed = true
        · rw [if_pos hsevered]
          exact .broken hc hstream hsevered bytes
        · have hwhole : p.pipe.severed = false := by simpa using hsevered
          rw [if_neg hsevered]
          by_cases hfull : p.pipe.room s = 0 ∧ bytes ≠ []
          · rw [if_pos hfull]
            exact .full hc hstream hwhole hfull.1 bytes
          · rw [if_neg hfull]
            exact .wrote hc hstream hwhole bytes
      | read size =>
        rcases p.read_cases hstream size with ⟨hread, hwhole, hnothing⟩ |
          ⟨hread, hsevered, hnothing⟩ | ⟨hread, hsome⟩ <;> simp only [hread]
        · exact .waited hc hstream hwhole hnothing size
        · exact .ended hc hstream hsevered hnothing (.inl rfl)
        · exact .took hc hstream (.inl rfl) hsome
      | tryRead size =>
        rcases p.read_cases hstream size with ⟨hread, hwhole, hnothing⟩ |
          ⟨hread, hsevered, hnothing⟩ | ⟨hread, hsome⟩ <;> simp only [tryRead, hread]
        · exact .empty hc hstream hwhole hnothing size
        · exact .ended hc hstream hsevered hnothing (.inr rfl)
        · exact .took hc hstream (.inr rfl) hsome
      | close => exact .closed hc
      | letGo => exact .letGo hc

/-! ## What is kept -/

/-- What the history says of the channel of a side. -/
inductive Standing (s : Side) (notes : List PipeNote) : Option (Channel Side) → Prop
  | opened (held : ¬ Did s .letGo notes) (unclosed : ¬ Did s .close notes) :
      Standing s notes (some (.opened s.name s))
  | closed (held : ¬ Did s .letGo notes) (closed : Did s .close notes) :
      Standing s notes (some (Channel.opened s.name s).close.1)
  | gone (gone : Did s .letGo notes) : Standing s notes none

/-- What holds of a pipe with its history. -/
structure Kept (capacity : Nat) (p : ChannelPair) (notes : List PipeNote) : Prop where
  capacity : p.pipe.capacity = capacity
  flow : ∀ s, allAccepted s.other notes = allDelivered s notes ++ p.pipe.toward s
  severed : p.pipe.severed = true ↔ Severed notes
  standing : ∀ s, Standing s notes (p.channel s)

theorem Standing.own {c : Channel Side} {t : Side} (h : Standing s notes (some c))
    (ht : c.stream = some t) : t = s := by
  cases h with
  | opened => exact (Option.some.inj ht).symm
  | closed => cases ht

theorem Standing.gone_iff {c : Option (Channel Side)} (h : Standing s notes c) :
    c = none ↔ Did s .letGo notes := by
  cases h with
  | opened held | closed held => exact iff_of_false nofun held
  | gone gone => exact iff_of_true rfl gone

theorem Standing.closed_iff {c : Channel Side} (h : Standing s notes (some c)) :
    Did s .close notes ↔ c.stream = none := by
  cases h with
  | opened held unclosed => exact iff_of_false unclosed nofun
  | closed held closed => exact iff_of_true closed rfl

/-- A channel that was closed is not changed by being closed again. -/
theorem Standing.close {c : Channel Side} (h : Standing s notes (some c))
    (hclosed : Did s .close notes) : c.close.1 = c := by
  cases h with
  | opened held unclosed => exact absurd hclosed unclosed
  | closed held closed => rfl

theorem Standing.snoc {c : Option (Channel Side)} {n : PipeNote} (h : Standing s notes c)
    (hn : n.side = s → n.act ≠ .close ∧ n.act ≠ .letGo) : Standing s (notes ++ [n]) c := by
  cases h with
  | opened held unclosed =>
    refine .opened (fun hgone => ?_) fun hclosed => ?_
    · exact (did_snoc.1 hgone).elim held fun h => (hn h.1).2 h.2
    · exact (did_snoc.1 hclosed).elim unclosed fun h => (hn h.1).1 h.2
  | closed held closed =>
    refine .closed (fun hgone => ?_) (did_snoc.2 (.inl closed))
    exact (did_snoc.1 hgone).elim held fun h => (hn h.1).2 h.2
  | gone gone => exact .gone (did_snoc.2 (.inl gone))

theorem carrying_toward (p : ChannelPair) (s : Side) : p.carrying s (p.pipe.toward s) = p := by
  obtain ⟨⟨capacity, toward, severed⟩, channel⟩ := p
  simp only [carrying, Duplex.setToward, mk.injEq, Duplex.mk.injEq, true_and, and_true]
  funext t
  split
  · next h => rw [h]
  · rfl

theorem Kept.outstanding (h : Kept capacity p notes) (s : Side) :
    outstanding s notes = p.pipe.toward s := by
  rw [PipeNote.outstanding, h.flow s, List.drop_left]

/-- The pipe and the channels stay as they are, and the note tells of no bytes. -/
theorem Kept.same (h : Kept capacity p notes) {n : PipeNote}
    (going : n.act ≠ .close ∧ n.act ≠ .letGo) (accepted : ∀ s, n.accepted s = [])
    (delivered : ∀ s, n.delivered s = []) : Kept capacity p (notes ++ [n]) where
  capacity := h.capacity
  flow t := by
    rw [allAccepted_snoc, allDelivered_snoc, accepted, delivered, List.append_nil, List.append_nil,
      h.flow t]
  severed := by simp [severed_snoc, h.severed, going]
  standing t := (h.standing t).snoc fun _ => going

/-- A channel is closed or let go of. -/
theorem Kept.severs (h : Kept capacity p notes) {act : PipeAct} {c : Option (Channel Side)}
    (ends : act = .close ∨ act = .letGo)
    (standing : Standing s (notes ++ [⟨s, act, .released⟩]) c) :
    Kept capacity { p.setChannel s c with pipe := { p.pipe with severed := true } }
      (notes ++ [⟨s, act, .released⟩]) where
  capacity := h.capacity
  flow t := by
    rw [allAccepted_snoc, allDelivered_snoc]
    simp only [PipeNote.accepted, PipeNote.delivered, List.append_nil]
    exact h.flow t
  severed := by simp [severed_snoc, ends]
  standing t := by
    simp only [setChannel]
    split
    · next ht => rwa [ht]
    · next ht => exact (h.standing t).snoc fun hs => absurd hs.symm ht

theorem kept_moved (h : Kept capacity p notes) (hm : Moved p s act result p') :
    Kept capacity p' (notes ++ [⟨s, act, result⟩]) := by
  cases hm with
  | gone hnone act =>
    have hgone : Did s .letGo notes := (h.standing s).gone_iff.1 hnone
    refine ⟨h.capacity, fun t => ?_, ?_, fun t => ?_⟩
    · rw [allAccepted_snoc, allDelivered_snoc]
      cases act <;> simpa only [PipeNote.accepted, PipeNote.delivered, List.append_nil] using h.flow t
    · rw [severed_snoc, h.severed]
      exact ⟨.inl, fun _ => ⟨s, .inr hgone⟩⟩
    · by_cases ht : s = t
      · subst ht
        rw [hnone]
        exact .gone (did_snoc.2 (.inl hgone))
      · exact (h.standing t).snoc fun hs => absurd hs ht
  | unwritable | broken | full | waited | empty =>
    exact h.same ⟨nofun, nofun⟩ (fun _ => rfl) fun _ => rfl
  | unreadable _ _ reads =>
    rcases reads with rfl | rfl <;> exact h.same ⟨nofun, nofun⟩ (fun _ => rfl) fun _ => rfl
  | ended _ _ _ nothing reads =>
    rw [← nothing, carrying_toward]
    rcases reads with rfl | rfl <;> exact h.same ⟨nofun, nofun⟩ (fun _ => rfl) fun _ => rfl
  | wrote hc unclosed whole bytes =>
    refine ⟨h.capacity, fun t => ?_, ?_, fun t => (h.standing t).snoc fun _ => ⟨nofun, nofun⟩⟩
    · rw [allAccepted_snoc, allDelivered_snoc, h.flow t]
      cases s <;> cases t <;>
        simp [PipeNote.accepted, PipeNote.delivered, carrying, Duplex.toward_setToward, Side.other]
    · simp [severed_snoc, ← h.severed, carrying, Duplex.setToward]
  | took hc unclosed reads some =>
    have hgoing : act ≠ .close ∧ act ≠ .letGo := by
      rcases reads with rfl | rfl <;> exact ⟨nofun, nofun⟩
    refine ⟨h.capacity, fun t => ?_, ?_, fun t => (h.standing t).snoc fun _ => hgoing⟩
    · have haccepted : ∀ r u, PipeNote.accepted u ⟨s, act, .read r⟩ = [] := by
        rcases reads with rfl | rfl <;> exact fun _ _ => rfl
      rw [allAccepted_snoc, allDelivered_snoc, h.flow t, haccepted]
      by_cases ht : s = t
      · subst ht
        simp [PipeNote.delivered, carrying, Duplex.toward_setToward]
      · simp [PipeNote.delivered, carrying, Duplex.toward_setToward, ht, Ne.symm ht]
    · simp [severed_snoc, ← h.severed, carrying, Duplex.setToward, hgoing]
  | closed hc =>
    have hs := h.standing s
    rw [hc] at hs
    refine h.severs (.inl rfl) ?_
    have hdid : Did s .close (notes ++ [⟨s, .close, .released⟩]) := did_snoc.2 (.inr ⟨rfl, rfl⟩)
    have hheld (held : ¬ Did s .letGo notes) :
        ¬ Did s .letGo (notes ++ [⟨s, .close, .released⟩]) := by
      rwa [did_snoc_of_ne (by nofun)]
    cases hs with
    | opened held unclosed => exact .closed (hheld held) hdid
    | closed held closed => exact .closed (hheld held) hdid
  | letGo hc => exact h.severs (.inr rfl) (.gone (did_snoc.2 (.inr ⟨rfl, rfl⟩)))

theorem kept_recorded (h : Recorded capacity p notes) : Kept capacity p notes := by
  induction h with
  | start =>
    refine ⟨rfl, fun s => rfl, ?_, fun s => .opened ?_ ?_⟩ <;> simp [start, Duplex.empty, Severed, Did]
  | step _ s act ih =>
    exact kept_moved ih (moved (fun c t hc ht => (hc ▸ ih.standing s).own ht) act)

/-! ## What is told -/

theorem Kept.closed_iff (h : Kept capacity p notes) {c : Channel Side} (hc : p.channel s = some c) :
    Did s .close notes ↔ c.stream = none :=
  (hc ▸ h.standing s).closed_iff

theorem fits_moved (h : Kept capacity p notes) (hm : Moved p s act result p') :
    Fits capacity notes ⟨s, act, result⟩ := by
  have hopen (whole : p.pipe.severed = false) : ¬ Severed notes := by
    rw [← h.severed, whole]
    exact Bool.false_ne_true
  have hroom : p.pipe.room s = capacity - (outstanding s.other notes).length := by
    rw [h.outstanding, Duplex.room, h.capacity]
  cases hm with
  | gone hnone act =>
    have hgone := (h.standing s).gone_iff.1 hnone
    cases act <;> exact hgone
  | unwritable hc closed bytes => exact .inl ⟨rfl, (h.closed_iff hc).2 closed⟩
  | unreadable hc closed reads =>
    have hdid := (h.closed_iff hc).2 closed
    rcases reads with rfl | rfl <;> exact ⟨rfl, hdid⟩
  | broken hc unclosed severed bytes =>
    refine .inr ⟨rfl, ?_, h.severed.1 severed⟩
    rw [h.closed_iff hc, unclosed]
    nofun
  | full hc unclosed whole room bytes =>
    exact ⟨hopen whole, Nat.sub_eq_zero_iff_le.1 (hroom.symm.trans room)⟩
  | wrote hc unclosed whole bytes => exact ⟨hopen whole, by rw [hroom]⟩
  | waited hc unclosed whole nothing size => exact ⟨hopen whole, (h.outstanding s).trans nothing⟩
  | empty hc unclosed whole nothing size => exact ⟨hopen whole, (h.outstanding s).trans nothing⟩
  | ended hc unclosed severed nothing reads =>
    have htold := (⟨h.severed.1 severed, (h.outstanding s).trans nothing⟩ :
      Severed notes ∧ outstanding s notes = [])
    rcases reads with rfl | rfl <;> exact htold
  | took hc unclosed reads some =>
    rw [← h.outstanding s] at some ⊢
    rcases reads with rfl | rfl <;> exact ⟨rfl, some⟩
  | closed => trivial
  | letGo => trivial

theorem fits_recorded (h : Recorded capacity p notes) :
    Throughout (fun front n _ => Fits capacity front n) notes := by
  induction h with
  | start => exact .nil _
  | @step p notes before s act ih =>
    have hkept := kept_recorded before
    refine ih.append (fun _ _ _ hfits => hfits) fun front n back hnew => ?_
    cases front with
    | nil =>
      cases hnew
      rw [List.append_nil]
      exact fits_moved hkept (moved (fun c t hc ht => (hc ▸ hkept.standing s).own ht) act)
    | cons m front => simp at hnew

theorem setChannel_channel (p : ChannelPair) (s : Side) : p.setChannel s (p.channel s) = p := by
  obtain ⟨pipe, channel⟩ := p
  simp only [setChannel, mk.injEq, true_and]
  funext t
  split
  · next h => rw [h]
  · rfl

/-- Closing a channel that was closed before. -/
theorem Kept.close_closed (h : Kept capacity p notes) (hclosed : Did s .close notes)
    {c : Channel Side} (hc : p.channel s = some c) : p.close s c = p := by
  have hsame : c.close.1 = c := (hc ▸ h.standing s).close hclosed
  have hsevered : p.pipe.severed = true := h.severed.2 (severed_of_did hclosed)
  rw [close, hsame, ← hc, setChannel_channel]
  obtain ⟨⟨capacity, toward, severed⟩, channel⟩ := p
  cases hsevered
  rfl

/-- On a side whose channel was closed, nothing is written or read, and closing does nothing. -/
theorem Kept.step_closed (h : Kept capacity p notes) (hclosed : Did s .close notes)
    {c : Channel Side} (hc : p.channel s = some c) (hact : act ≠ .letGo) :
    (p.step s act).2 = p ∧ (act ≠ .close → ∃ e, e.kind = .notConnected
      ∧ ((p.step s act).1 = .wrote (.failed e) ∨ (p.step s act).1 = .read (.failed e))) := by
  have hstream := (h.closed_iff hc).1 hclosed
  unfold step
  rw [hc]
  cases act with
  | write bytes =>
    simp only [write, Channel.stream?, hstream]
    exact ⟨rfl, fun _ => ⟨_, rfl, .inl rfl⟩⟩
  | read size =>
    simp only [read, Channel.stream?, hstream]
    exact ⟨rfl, fun _ => ⟨_, rfl, .inr rfl⟩⟩
  | tryRead size =>
    simp only [tryRead, read, Channel.stream?, hstream]
    exact ⟨rfl, fun _ => ⟨_, rfl, .inr rfl⟩⟩
  | close =>
    exact ⟨h.close_closed hclosed hc, fun hne => absurd rfl hne⟩
  | letGo => exact absurd rfl hact

/-- What a pipe promises those who use it. -/
structure Conserves (capacity : Nat) (p : ChannelPair) (notes : List PipeNote) : Prop where
  /-- A side is given the bytes that the other side got in, from the first on and in order. -/
  delivered : ∀ s, allDelivered s notes <+: allAccepted s.other notes
  /-- The others are still there. -/
  buffered : ∀ s, allAccepted s.other notes = allDelivered s notes ++ p.pipe.toward s
  /-- Each act comes to what it has to: an end is told where the pipe was closed and all bytes were
  given, that nothing is there by a read that does not wait, where all bytes were given and the pipe was
  not closed. -/
  told : Throughout (fun front n _ => Fits capacity front n) notes
  /-- A channel is open until it is closed on its own side. -/
  isOpen_iff : ∀ s c, p.channel s = some c → (c.isOpen = true ↔ ¬ Did s .close notes)
  /-- A side has its channel until it lets go of it. -/
  gone_iff : ∀ s, p.channel s = none ↔ Did s .letGo notes
  /-- Once it was closed, nothing is written or read over it, and closing it changes nothing. -/
  closed : ∀ s c, Did s .close notes → p.channel s = some c → ∀ act, act ≠ .letGo →
    (p.step s act).2 = p ∧ (act ≠ .close → ∃ e, e.kind = .notConnected
      ∧ ((p.step s act).1 = .wrote (.failed e) ∨ (p.step s act).1 = .read (.failed e)))

/-- Whatever is done on the two sides of a pipe of any capacity, in any order: what a side is given is
what the other side got in, none of it is lost or given twice, reads tell how the pipe stands, and a
channel that was closed stays so and is of no more use, while the other one stays open. -/
theorem conserves_bytes (h : Recorded capacity p notes) : Conserves capacity p notes := by
  have hkept := kept_recorded h
  refine ⟨fun s => ⟨_, (hkept.flow s).symm⟩, hkept.flow, fits_recorded h, fun s c hc => ?_,
    fun s => (hkept.standing s).gone_iff, fun s c hclosed hc act => hkept.step_closed hclosed hc⟩
  rw [hkept.closed_iff hc, Channel.isOpen, Option.isSome_iff_ne_none]

/-- Three bytes are offered to a pipe that holds two. One of them is read at once, the other one when
the writer has closed its channel, behind it the end; the reader's channel is still open. -/
theorem conserves_bytes_across : ∃ (p : ChannelPair) (notes : List PipeNote),
    Recorded 2 p notes ∧ allAccepted .a notes = [1, 2] ∧ allDelivered .b notes = [1, 2]
    ∧ notes.getLast?.map PipeNote.result = some (.read (.done .eof))
    ∧ Conserves 2 p notes := by
  have hstart : Recorded 2 (.start 2) [] := .start
  have hwritten := (hstart.step .a (.write [1, 2, 3])).step .b (.tryRead 1)
  have hclosed := ((hwritten.step .a .close).step .b (.read 4)).step .b (.read 4)
  exact ⟨_, _, hclosed, rfl, rfl, rfl, conserves_bytes hclosed⟩

end ChannelPair
end CommandLink
