import CommandLink.AcceptLoop
import CommandLink.Proofs.Serve.Transcript
/-!
# A visit from a peer

A peer comes, sends its bytes and closes its end. The bytes arrive in reads of any size, with empty
ones between them, and what is written to the peer is taken in pieces of any size; at any moment the
loop may be told to stop. None of this has a part in what the visit comes to, which is the transcript
of the bytes.

Results:
* `standing_step`, `standing_run`: what was done so far, with what remains in front, is the
  transcript.
* `visit_follows_transcript`: a visit that is not broken off comes to exactly the transcript, one
  that is told to stop to a beginning of it, and the channel is closed either way.
-/
namespace CommandLink

namespace AcceptLoop
variable {χ σ : Type}

/-- A peer whose serving ends is gone and its channel closed. -/
theorem servePeer_ended {v : Service σ} {l : AcceptLoop χ} {n : Nat} {e : Serving.Event} {s s' : σ}
    {p : Peer χ} {x : χ} (hp : l.peer? n = some p) (hx : p.channel.stream = some x)
    (h : p.serving.step v p.channel.name e s = (.ended, s')) :
    (l.servePeer v n e s).1.peer? n = none ∧
      (l.servePeer v n e s).2 = (p.channel.close.2.map (.peer x), s') := by
  have hn : p.number = n := by simpa using List.find?_some hp
  simp only [servePeer, hp, h, Serving.isEnded, if_true, dismiss, hx]
  refine ⟨?_, trivial⟩
  rw [peer?, List.find?_eq_none]
  intro q hq
  have := (List.mem_filter.1 hq).2
  simpa [hn] using this

/-- A peer whose serving goes on stays, and nothing is given back. -/
theorem servePeer_going {v : Service σ} {l : AcceptLoop χ} {n : Nat} {e : Serving.Event} {s s' : σ}
    {p : Peer χ} {c : Serving} (hp : l.peer? n = some p)
    (h : p.serving.step v p.channel.name e s = (c, s')) (hc : c.isEnded = false) :
    (l.servePeer v n e s).1.peer? n = some { p with serving := c } ∧
      (l.servePeer v n e s).2 = ([], s') := by
  have hn : p.number = n := by simpa using List.find?_some hp
  simp only [servePeer, hp, h, hc, Bool.false_eq_true, if_false]
  refine ⟨?_, trivial⟩
  rw [peer?, List.find?_map]
  have hsame : ((fun q : Peer χ => q.number == n) ∘
      fun q => if q.number == n then { q with serving := c } else q) = fun q => q.number == n := by
    funext q
    simp only [Function.comp_apply]
    split <;> simp_all
  rw [hsame]
  rw [peer?] at hp
  rw [hp]
  simp [hn]

end AcceptLoop

/-- A visit, seen from outside: the loop that serves the peer, the receivers' world, what the peer
has sent and is not read, and what was written, handed over and given back so far. -/
structure Visit (χ σ : Type) where
  loop : AcceptLoop χ
  world : σ
  unread : Bytes
  written : Bytes
  handed : List Request
  acts : List (LoopAct χ)

namespace Visit
variable {χ σ : Type}

/-- The peer has sent its bytes, and nothing is read of them. -/
def start (l : AcceptLoop χ) (s : σ) (input : Bytes) : Visit χ σ := ⟨l, s, input, [], [], []⟩

/-- What an event for the peer of a number makes of the loop, the world and what is noted of them. -/
def serve (v : Service σ) (n : Nat) (w : Visit χ σ) (e : Serving.Event) : Visit χ σ :=
  let after := w.loop.step v (.peer n e) w.world
  let handed := (w.loop.peer? n).bind fun p => p.serving.handed? v p.channel.name e
  { w with
    loop := after.1
    acts := w.acts ++ after.2.1
    world := after.2.2
    handed := w.handed ++ handed.toList }

/-- What was done so far, as a transcript. -/
def sofar (w : Visit χ σ) : Transcript σ := ⟨w.written, w.handed, w.world, w.unread⟩

/-- What can happen during a visit. -/
inductive Move where
  /-- A read gives so many of the peer's bytes. -/
  | read (k : Nat)
  /-- A read finds nothing there yet. -/
  | idle
  /-- A read finds that all was read and the peer has closed its end. -/
  | hangUp
  /-- So many of the offered bytes are taken. -/
  | write (k : Nat)
  /-- The loop is told to stop. -/
  | stop
  deriving DecidableEq

/-- A move of the visit of a peer. Reads give no more than they ask for and writes take no more than
they offer, but both something. -/
inductive Step (v : Service σ) (n : Nat) (w : Visit χ σ) : Move → Visit χ σ → Prop
  | read {p : Peer χ} {i : Frame.Intake} {k : Nat} (hp : w.loop.peer? n = some p)
      (hi : p.serving = .reading i) (hk : 0 < k) (hw : k ≤ i.wanted) (hu : k ≤ w.unread.length) :
      Step v n w (.read k)
        { w.serve v n (.read (.ok (.data (w.unread.take k)))) with unread := w.unread.drop k }
  | idle {p : Peer χ} {i : Frame.Intake} (hp : w.loop.peer? n = some p)
      (hi : p.serving = .reading i) : Step v n w .idle (w.serve v n (.read (.ok .empty)))
  | hangUp {p : Peer χ} {i : Frame.Intake} (hp : w.loop.peer? n = some p)
      (hi : p.serving = .reading i) (hu : w.unread = []) :
      Step v n w .hangUp (w.serve v n (.read (.ok .eof)))
  | write {p : Peer χ} {o : Frame.Outgoing} {bs : Bytes} {k : Nat} (hp : w.loop.peer? n = some p)
      (ho : p.serving = .answering o) (hb : o.offered? = some bs) (hk : 0 < k)
      (hl : k ≤ bs.length) :
      Step v n w (.write k)
        { w.serve v n (.wrote (.took k)) with written := w.written ++ bs.take k }
  | stop {p : Peer χ} (hp : w.loop.peer? n = some p) :
      Step v n w .stop (w.serve v n .shutdown)

/-- One move after another. -/
inductive Run (v : Service σ) (n : Nat) (w : Visit χ σ) : List Move → Visit χ σ → Prop
  | nil : Run v n w [] w
  | snoc {moves : List Move} {move : Move} {w' w'' : Visit χ σ} (before : Run v n w moves w')
      (last : Step v n w' move w'') : Run v n w (moves ++ [move]) w''

/-! ## What holds throughout -/

/-- How a visit over a channel stands whose transcript is known: the peer is still served, and what
was done is the transcript without what remains; or the peer is gone, its channel was closed, and
what was done is the transcript unless a stop has cut it short. -/
inductive Standing (v : Service σ) (n : Nat) (c : Channel χ) (x : χ) (whole : Transcript σ)
    (moves : List Move) (w : Visit χ σ) : Prop
  | served (serving : Serving) (hp : w.loop.peer? n = some ⟨n, c, serving⟩)
      (going : serving.isEnded = false) (sound : serving.Sound)
      (rest : (serving.remaining v w.unread w.world).behind w.written w.handed = whole)
      (acts : w.acts = []) (unstopped : Move.stop ∉ moves)
  | gone (hp : w.loop.peer? n = none) (acts : w.acts = c.close.2.map (.peer x))
      (written : w.written <+: whole.written) (handed : w.handed <+: whole.handed)
      (all : Move.stop ∉ moves → w.sofar = whole)

section
variable {v : Service σ} {n : Nat} {c : Channel χ} {x : χ} {whole : Transcript σ}
  {moves : List Move} {w w' : Visit χ σ} {serving : Serving}

theorem written_begins {rest : Transcript σ} (h : rest.behind w.written w.handed = whole) :
    w.written <+: whole.written ∧ w.handed <+: whole.handed := by
  subst h
  exact ⟨List.prefix_append _ _, List.prefix_append _ _⟩

/-- An event that does a piece of what remains. -/
theorem standing_serve (hx : c.stream = some x) (hp : w.loop.peer? n = some ⟨n, c, serving⟩)
    (rest : (serving.remaining v w.unread w.world).behind w.written w.handed = whole)
    (acts : w.acts = []) (unstopped : Move.stop ∉ moves) {move : Move} (hm : move ≠ .stop)
    (e : Serving.Event) (unread out : Bytes)
    (sound : (serving.step v c.name e w.world).1.Sound)
    (hrem : ((serving.step v c.name e w.world).1.remaining v unread
        (serving.step v c.name e w.world).2).behind out (serving.handed? v c.name e).toList
      = serving.remaining v w.unread w.world)
    (hw : w' = { w.serve v n e with unread := unread, written := w.written ++ out }) :
    Standing v n c x whole (moves ++ [move]) w' := by
  subst hw
  rcases he : serving.step v c.name e w.world with ⟨c', s'⟩
  rw [he] at sound hrem
  have hmoves : Move.stop ∉ moves ++ [move] := by
    simp only [List.mem_append, List.mem_singleton, not_or]
    exact ⟨unstopped, hm.symm⟩
  have hhanded : (w.serve v n e).handed
      = w.handed ++ (serving.handed? v c.name e).toList := by
    simp only [serve, hp, Option.bind_some]
  have hall : (c'.remaining v unread s').behind (w.written ++ out)
      (w.handed ++ (serving.handed? v c.name e).toList) = whole := by
    rw [← rest, ← hrem, Transcript.behind_behind]
  cases hc : c'.isEnded with
  | false =>
    obtain ⟨hpeer, hrest⟩ := AcceptLoop.servePeer_going hp he hc
    refine .served c' hpeer hc sound ?_ ?_ hmoves
    · simp only [hhanded]
      simpa only [serve, AcceptLoop.step, hrest] using hall
    · simp only [serve, AcceptLoop.step, hrest, acts, List.append_nil]
  | true =>
    obtain rfl : c' = .ended := by cases c' <;> first | rfl | cases hc
    obtain ⟨hpeer, hrest⟩ := AcceptLoop.servePeer_ended hp hx he
    have hsofar : ({ w.serve v n e with
        unread := unread, written := w.written ++ out } : Visit χ σ).sofar = whole := by
      rw [← hall]
      simp only [sofar, hhanded, Serving.remaining, Transcript.behind, Transcript.done,
        List.append_nil]
      simp only [serve, AcceptLoop.step, hrest]
    refine .gone hpeer ?_ ?_ ?_ fun _ => hsofar
    · simp only [serve, AcceptLoop.step, hrest, acts, List.nil_append]
    · rw [← hsofar]
      exact List.prefix_refl _
    · rw [← hsofar]
      exact List.prefix_refl _

/-- Being told to stop. -/
theorem standing_stop (hx : c.stream = some x) (hp : w.loop.peer? n = some ⟨n, c, serving⟩)
    (rest : (serving.remaining v w.unread w.world).behind w.written w.handed = whole)
    (acts : w.acts = []) :
    Standing v n c x whole (moves ++ [.stop]) (w.serve v n .shutdown) := by
  have he := serving.step_shutdown v c.name w.world
  obtain ⟨hpeer, hrest⟩ := AcceptLoop.servePeer_ended hp hx he
  obtain ⟨hwritten, hhanded⟩ := written_begins rest
  have hnone : serving.handed? v c.name .shutdown = none := by cases serving <;> rfl
  refine .gone hpeer ?_ hwritten ?_ fun h => absurd (by simp) h
  · simp only [serve, AcceptLoop.step, hrest, acts, List.nil_append]
  · simpa only [serve, hp, Option.bind_some, hnone, Option.toList_none, List.append_nil]
      using hhanded

theorem Step.peer {move : Move} (h : Step v n w move w') : ∃ p, w.loop.peer? n = some p := by
  cases h with
  | read hp => exact ⟨_, hp⟩
  | idle hp => exact ⟨_, hp⟩
  | hangUp hp => exact ⟨_, hp⟩
  | write hp => exact ⟨_, hp⟩
  | stop hp => exact ⟨_, hp⟩

/-- One move keeps a visit in the line of its transcript. -/
theorem standing_step (hv : v.Answers) (hx : c.stream = some x)
    (hs : Standing v n c x whole moves w) {move : Move} (h : Step v n w move w') :
    Standing v n c x whole (moves ++ [move]) w' := by
  cases hs with
  | gone hp =>
    obtain ⟨p, hq⟩ := h.peer
    rw [hp] at hq
    cases hq
  | served serving hp going sound rest acts unstopped =>
    cases h with
    | read hq hi hk hw hu =>
      rw [hp] at hq
      cases hq
      cases hi
      have hlen : (w.unread.take _).length ≤ _ := Nat.le_trans (List.length_take_le _ _) hw
      obtain ⟨hsound, hrem⟩ := Serving.fed_remaining hv c.name sound hlen (w.unread.drop _) w.world
      rw [List.take_append_drop] at hrem
      exact standing_serve hx hp rest acts unstopped (by simp) _ (w.unread.drop _) [] hsound hrem
        (by simp [serve])
    | idle hq hi =>
      rw [hp] at hq
      cases hq
      cases hi
      exact standing_serve hx hp rest acts unstopped (by simp) (.read (.ok .empty)) w.unread []
        sound rfl (by simp [serve])
    | hangUp hq hi hu =>
      rw [hp] at hq
      cases hq
      cases hi
      obtain ⟨he, hn, hrem⟩ := Serving.eof_remaining v c.name sound w.world
      refine standing_serve hx hp rest acts unstopped (by simp) (.read (.ok .eof)) [] [] ?_ ?_
        (by simp [serve, hu])
      · rw [he]
        trivial
      · rw [he, hn, hu, hrem]
        rfl
    | write hq ho hb hk hl =>
      rw [hp] at hq
      cases hq
      cases ho
      obtain ⟨hworld, hsound, hrem⟩ := Serving.wrote_remaining v c.name hb hk hl w.unread w.world
      refine standing_serve hx hp rest acts unstopped (by simp) (.wrote (.took _)) w.unread _
        hsound ?_ rfl
      rw [hworld]
      exact hrem
    | stop hq =>
      exact standing_stop hx hp rest acts

end

/-- The world behind requests that are dispatched one after another. -/
def dispatched (v : Service σ) (s : σ) (handed : List Request) : σ :=
  handed.foldl (fun s r => (v.receivers.dispatch r s).2) s

theorem dispatched_append (v : Service σ) (s : σ) (a b : List Request) :
    dispatched v s (a ++ b) = dispatched v (dispatched v s a) b := List.foldl_append

/-- An event changes the world by what it hands over. -/
theorem serve_world {v : Service σ} {n : Nat} {w : Visit χ σ} {p : Peer χ}
    (hp : w.loop.peer? n = some p) (e : Serving.Event) {s : σ}
    (h : w.world = dispatched v s w.handed) :
    (w.serve v n e).world = dispatched v s (w.serve v n e).handed := by
  have hstep : (w.serve v n e).world = (p.serving.step v p.channel.name e w.world).2 := by
    simp only [serve, AcceptLoop.step, AcceptLoop.servePeer, hp]
    split <;> rfl
  rw [hstep, Serving.step_world]
  simp only [serve, hp, Option.bind_some, dispatched_append, ← h]
  cases p.serving.handed? v p.channel.name e <;> rfl

theorem step_world {v : Service σ} {n : Nat} {w w' : Visit χ σ} {move : Move} {s : σ}
    (h : Step v n w move w') (hw : w.world = dispatched v s w.handed) :
    w'.world = dispatched v s w'.handed := by
  cases h with
  | read hp => exact serve_world hp _ hw
  | idle hp => exact serve_world hp _ hw
  | hangUp hp => exact serve_world hp _ hw
  | write hp => exact serve_world hp _ hw
  | stop hp => exact serve_world hp _ hw

theorem run_world {v : Service σ} {n : Nat} {w w' : Visit χ σ} {moves : List Move} {s : σ}
    (h : Run v n w moves w') (hw : w.world = dispatched v s w.handed) :
    w'.world = dispatched v s w'.handed := by
  induction h with
  | nil => exact hw
  | snoc _ last ih => exact step_world last ih

section
variable {v : Service σ} {n : Nat} {c : Channel χ} {x : χ} {l : AcceptLoop χ} {s : σ}
  {input : Bytes} {moves : List Move} {w w' : Visit χ σ}

theorem standing_run (hv : v.Answers) (hx : c.stream = some x)
    (hp : l.peer? n = some ⟨n, c, .start⟩) (h : Run v n (.start l s input) moves w) :
    Standing v n c x (v.transcript input s) moves w := by
  induction h with
  | nil => exact .served .start hp rfl Serving.sound_start rfl rfl (by simp)
  | snoc _ last ih => exact standing_step hv hx ih last

theorem peer?_stop {serving : Serving} (hx : c.stream = some x)
    (hp : w.loop.peer? n = some ⟨n, c, serving⟩) :
    (w.serve v n .shutdown).loop.peer? n = none :=
  (AcceptLoop.servePeer_ended hp hx (serving.step_shutdown v c.name w.world)).1

theorem peer?_hangUp {i : Frame.Intake} (hx : c.stream = some x)
    (hp : w.loop.peer? n = some ⟨n, c, .reading i⟩) (hi : i.Sound) :
    (w.serve v n (.read (.ok .eof))).loop.peer? n = none :=
  (AcceptLoop.servePeer_ended hp hx (Serving.eof_remaining v c.name hi w.world).1).1

/-- What is still to happen to the peer's bytes and to the peer. -/
def todo (n : Nat) (w : Visit χ σ) : Nat :=
  w.unread.length + (w.loop.peer? n).toList.length

/-- Each move takes bytes in, gets bytes out or ends the visit, unless a read finds nothing. -/
theorem todo_step (hx : c.stream = some x) {whole : Transcript σ}
    (hs : Standing v n c x whole moves w) {move : Move} (h : Step v n w move w') :
    (if move = .idle then 0 else 1) + w'.todo n + w.written.length
      ≤ w.todo n + w'.written.length := by
  have hone : ∀ o : Option (Peer χ), o.toList.length ≤ 1 := fun o => by cases o <;> simp
  cases hs with
  | gone hp =>
    obtain ⟨p, hq⟩ := h.peer
    rw [hp] at hq
    cases hq
  | served serving hp going sound =>
    have halive : w.todo n = w.unread.length + 1 := by rw [todo, hp]; rfl
    rw [halive]
    cases h with
    | @read _ _ k _ _ hk _ hu =>
      have := hone ((w.serve v n (.read (.ok (.data (w.unread.take k))))).loop.peer? n)
      simp only [todo, reduceCtorEq, if_false, List.length_drop]
      show _ ≤ _ + w.written.length
      omega
    | idle =>
      have := hone ((w.serve v n (.read (.ok .empty))).loop.peer? n)
      simp only [todo, if_true]
      show 0 + (w.unread.length + _) + _ ≤ _ + w.written.length
      omega
    | hangUp hq hi hu =>
      rw [hp] at hq
      cases hq
      cases hi
      simp only [todo, peer?_hangUp hx hp sound, reduceCtorEq, if_false]
      show 1 + (w.unread.length + 0) + _ ≤ _ + w.written.length
      omega
    | @write _ _ bs k _ _ _ hk hl =>
      have := hone ((w.serve v n (.wrote (.took k))).loop.peer? n)
      simp only [todo, reduceCtorEq, if_false, List.length_append, List.length_take]
      show 1 + (w.unread.length + _) + _ ≤ _
      omega
    | stop =>
      simp only [todo, peer?_stop hx hp, reduceCtorEq, if_false]
      show 1 + (w.unread.length + 0) + _ ≤ _ + w.written.length
      omega

/-- How many moves of a visit do something. -/
def busy (moves : List Move) : Nat := moves.countP fun m => m != .idle

theorem busy_snoc (moves : List Move) (move : Move) :
    busy (moves ++ [move]) = busy moves + if move = .idle then 0 else 1 := by
  simp only [busy, List.countP_append, List.countP_singleton]
  by_cases hm : move = .idle <;> simp [hm]

theorem todo_run (hv : v.Answers) (hx : c.stream = some x)
    (hp : l.peer? n = some ⟨n, c, .start⟩) (h : Run v n (.start l s input) moves w) :
    busy moves + w.todo n ≤ input.length + 1 + w.written.length := by
  induction h with
  | nil => simp [busy, todo, start, hp]
  | @snoc moves move w w' before last ih =>
    have hstep := todo_step hx (standing_run hv hx hp before) last
    have hbusy := busy_snoc moves move
    omega

/-- As long as the peer is served, something can happen that is no stop and brings the visit on. -/
theorem served_goes_on {serving : Serving} (hp : w.loop.peer? n = some ⟨n, c, serving⟩)
    (going : serving.isEnded = false) (sound : serving.Sound) :
    ∃ move w', move ≠ .stop ∧ move ≠ .idle ∧ Step v n w move w' := by
  cases serving with
  | reading i =>
    by_cases hu : w.unread = []
    · exact ⟨.hangUp, _, by simp, by simp, .hangUp hp rfl hu⟩
    · exact ⟨.read 1, _, by simp, by simp, .read hp rfl Nat.one_pos
        (Frame.Intake.wanted_pos sound) (List.length_pos_iff.2 hu)⟩
  | answering o =>
    obtain ⟨bs, hb⟩ := Option.isSome_iff_exists.1 sound
    exact ⟨.write 1, _, by simp, by simp, .write hp rfl hb Nat.one_pos
      (List.length_pos_iff.2 (Frame.Outgoing.offered?_ne_nil hb))⟩
  | stuck => cases sound
  | ended => cases going

/-- A visit comes to the transcript of what the peer sends. Whatever the reads and writes come to,
what is written, handed over and made of the world is a beginning of the transcript at every moment;
only so many moves do something, and while the peer is served one more can, so that the visit comes
to an end. There, with no stop, everything is as in the transcript, and the channel is closed; a stop
can come at any moment, and it closes the channel too. -/
theorem visit_follows_transcript (hv : v.Answers) (hx : c.stream = some x)
    (hp : l.peer? n = some ⟨n, c, .start⟩) (h : Run v n (.start l s input) moves w) :
    (w.written <+: (v.transcript input s).written
      ∧ w.handed <+: (v.transcript input s).handed
      ∧ w.world = dispatched v s w.handed)
    ∧ (w.acts = if (w.loop.peer? n).isSome then []
        else (c.keyRelease ++ [Release.shutDown, Release.stream]).map (.peer x))
    ∧ (w.loop.peer? n = none → .stop ∉ moves →
        w.written = (v.transcript input s).written ∧ w.handed = (v.transcript input s).handed
          ∧ w.world = (v.transcript input s).world ∧ w.unread = (v.transcript input s).unread)
    ∧ (.stop ∈ moves → w.loop.peer? n = none)
    ∧ ((w.loop.peer? n).isSome →
        (∃ move w', move ≠ .stop ∧ move ≠ .idle ∧ Step v n w move w')
          ∧ ∃ w', Step v n w .stop w' ∧ w'.loop.peer? n = none)
    ∧ busy moves ≤ input.length + (v.transcript input s).written.length + 1 := by
  have hstanding := standing_run hv hx hp h
  have hworld : w.world = dispatched v s w.handed := run_world h rfl
  have htodo := todo_run hv hx hp h
  have hclose : c.close.2 = c.keyRelease ++ [Release.shutDown, Release.stream] := by
    simp [Channel.close, Channel.isOpen, hx]
  have hbusy : w.written <+: (v.transcript input s).written →
      busy moves ≤ input.length + (v.transcript input s).written.length + 1 := fun hpre => by
    have := hpre.length_le
    omega
  cases hstanding with
  | served serving hq going sound rest acts unstopped =>
    obtain ⟨hwritten, hhanded⟩ := written_begins rest
    refine ⟨⟨hwritten, hhanded, hworld⟩, by simp [hq, acts], fun hn => ?_, fun hs => ?_,
      fun _ => ⟨served_goes_on hq going sound, _, .stop hq, peer?_stop hx hq⟩, hbusy hwritten⟩
    · rw [hq] at hn
      cases hn
    · exact absurd hs unstopped
  | gone hq acts written handed all =>
    refine ⟨⟨written, handed, hworld⟩, by simp [hq, acts, hclose], fun _ hs => ?_, fun _ => hq,
      fun hs => ?_, hbusy written⟩
    · have hsofar := all hs
      rw [← hsofar]
      exact ⟨rfl, rfl, rfl, rfl⟩
    · rw [hq] at hs
      cases hs

set_option maxRecDepth 5000 in
/-- An empty frame is no request; the stop comes when the header of the answer is out. -/
theorem visit_follows_transcript_stopped :
    ∃ w : Visit Unit Unit,
      Run ⟨.agent, .empty⟩ 1 (.start ((AcceptLoop.overSocket .agent 0).accept () "") () [0, 0, 0, 0, 7])
        [.read 2, .idle, .read 2, .write 4, .stop] w
      ∧ w.written <+: (Service.transcript ⟨.agent, .empty⟩ [0, 0, 0, 0, 7] ()).written
      ∧ w.acts = [.peer () .shutDown, .peer () .stream] := by
  have hv : Service.Answers (σ := Unit) ⟨.agent, .empty⟩ := fun name receiver h => by cases h
  have hrun := (((((Run.nil (v := ⟨.agent, .empty⟩) (n := 1)
    (w := .start ((AcceptLoop.overSocket .agent 0).accept () "") () [0, 0, 0, 0, 7])).snoc
    (.read (k := 2) rfl rfl (by decide) (by decide) (by decide))).snoc
    (.idle rfl rfl)).snoc
    (.read (k := 2) rfl rfl (by decide) (by decide) (by decide))).snoc
    (.write (k := 4) rfl rfl (show _ = some [0, 0, 0, 109] by decide +kernel) (by decide) (by decide))).snoc
    (.stop rfl)
  obtain ⟨⟨hwritten, -⟩, hacts, -⟩ := visit_follows_transcript hv rfl rfl hrun
  exact ⟨_, hrun, hwritten, hacts⟩

end
end Visit
end CommandLink
