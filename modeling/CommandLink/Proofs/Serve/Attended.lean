import CommandLink.AcceptLoop
import Mathlib.Data.List.Nodup
/-!
# An accept loop among its peers

Peers come, send what they want and go, receivers answer or never do, and at some moment the loop is
told to stop: the signal is there for the loop and for whoever serves a peer, and each sees it in its
own time. Until the loop has seen it, peers are still taken in, on a socket in the file system those of
its user. What comes of it is noted: who was taken in and who was not, and what was given back in which
order.

Results:
* `moved_act`: all that can happen to the seats of a loop.
* `accepted_run`, `refused_run`: who was taken in and who was not, by whose they are.
-/
namespace CommandLink

/-- A peer that was taken in, with the key under which it is watched, if it is. -/
structure Seat (χ : Type) where
  number : Nat
  stream : χ
  key : Option Nat

/-- What is noted of a loop. -/
inductive LoopMark (χ : Type) where
  | accepted (s : Seat χ)
  | refused (stream : χ)
  | released (stream : χ) (r : Release)
  | handle
  | socketPath

/-- What can happen: the loop is told to stop, or anything that it waits for. -/
inductive LoopMove (χ : Type) where
  | tell
  | loop (e : LoopEvent χ)

/-- A loop under observation, among receivers in a state. -/
structure Attended (χ σ : Type) where
  loop : AcceptLoop χ
  /-- Whether the signal to stop is there. -/
  told : Bool
  state : σ
  log : List (LoopMark χ)

/-- The seat of a peer whose channel is open. -/
def Peer.seat? {χ : Type} (p : Peer χ) : Option (Seat χ) :=
  p.channel.stream.map fun x => ⟨p.number, x, p.channel.key⟩

namespace AcceptLoop
variable {χ : Type}

/-- The seats that are taken. -/
def seats (l : AcceptLoop χ) : List (Seat χ) := l.peers.filterMap Peer.seat?

/-- The seat of the next peer. -/
def nextSeat (l : AcceptLoop χ) (stream : χ) : Seat χ :=
  ⟨l.accepted + 1, stream, l.keys.map KeySet.next⟩

end AcceptLoop

namespace LoopMark
variable {χ : Type}

/-- All peers that were taken in. -/
def accepts (log : List (LoopMark χ)) : List (Seat χ) :=
  log.filterMap fun
    | accepted s => some s
    | _ => none

/-- The streams that were given back. -/
def returned (log : List (LoopMark χ)) : List χ :=
  log.filterMap fun
    | released x .stream => some x
    | _ => none

@[simp] theorem accepts_append (a b : List (LoopMark χ)) :
    accepts (a ++ b) = accepts a ++ accepts b := List.filterMap_append

@[simp] theorem returned_append (a b : List (LoopMark χ)) :
    returned (a ++ b) = returned a ++ returned b := List.filterMap_append

/-- What a loop does, as it is noted. -/
def of : LoopAct χ → LoopMark χ
  | .peer x r => released x r
  | .refused x => refused x
  | .handle => handle
  | .socketPath => socketPath

end LoopMark

namespace Attended
variable {χ σ : Type}

/-- What an event shows: a peer that is taken in. -/
def shown (l : AcceptLoop χ) : LoopEvent χ → List (LoopMark χ)
  | .accept x _ owner =>
    if l.phase = .accepting ∧ l.admits owner then [.accepted (l.nextSeat x)] else []
  | _ => []

def act (v : Service σ) (w : Attended χ σ) : LoopMove χ → Attended χ σ
  | .tell => { w with told := true }
  | .loop e =>
    let next := w.loop.step v e w.state
    ⟨next.1, w.told, next.2.2, w.log ++ shown w.loop e ++ next.2.1.map LoopMark.of⟩

/-- What is possible: a peer is taken in over a stream that was not there before, and only who was told
stops. -/
def Fits (w : Attended χ σ) : LoopMove χ → Prop
  | .loop (.accept x _ _) => ∀ s ∈ LoopMark.accepts w.log, s.stream ≠ x
  | .loop (.peer _ .shutdown) => w.told
  | .loop .shutdown => w.told
  | _ => True

/-- From one moment to another. -/
inductive Run (v : Service σ) (w : Attended χ σ) : List (LoopMove χ) → Attended χ σ → Prop
  | here : Run v w [] w
  | next {moves : List (LoopMove χ)} {w' : Attended χ σ} (before : Run v w moves w') (m : LoopMove χ)
      (fits : w'.Fits m) : Run v w (moves ++ [m]) (w'.act v m)

/-- A loop at a TCP port or at a socket in the file system, to which nothing has happened yet. -/
inductive Start (e : EndpointName) (s : σ) : Attended χ σ → Prop
  | tcp : Start e s ⟨.overTcp e, false, s, []⟩
  | socket (uid : Nat) : Start e s ⟨.overSocket e uid, false, s, []⟩

/-- A loop after anything that its peers may do. -/
def Reachable (v : Service σ) (w : Attended χ σ) : Prop :=
  ∃ e s start moves, Start e s start ∧ Run v start moves w

/-- All that can happen to who is seated. -/
inductive Moved (w : Attended χ σ) : Attended χ σ → Prop
  /-- Serving goes on, or not even that. -/
  | same {w' : Attended χ σ} (hphase : w'.loop.phase = w.loop.phase)
      (hseats : w'.loop.seats = w.loop.seats) (hkeys : w'.loop.keys = w.loop.keys)
      (haccepted : w'.loop.accepted = w.loop.accepted)
      (hnumbers : w'.loop.peers.map Peer.number = w.loop.peers.map Peer.number)
      (hopen : (∀ p ∈ w.loop.peers, p.channel.isOpen) → ∀ p ∈ w'.loop.peers, p.channel.isOpen)
      (hlog : w'.log = w.log) (htold : w.told → w'.told) : Moved w w'
  | took (x : χ) (address : String) (hp : w.loop.phase = .accepting)
      (fresh : ∀ s ∈ LoopMark.accepts w.log, s.stream ≠ x) :
    Moved w { w with loop := w.loop.accept x address, log := w.log ++ [.accepted (w.loop.nextSeat x)] }
  | refused (x : χ) (hp : w.loop.phase = .accepting) : Moved w { w with log := w.log ++ [.refused x] }
  | dismissed {p : Peer χ} (hp : p ∈ w.loop.peers) (s : σ) :
    Moved w { w with
      loop := (w.loop.dismiss p).1
      state := s
      log := w.log ++ (w.loop.dismiss p).2.map LoopMark.of }
  | stopped (hp : w.loop.phase = .accepting) (told : w.told) :
    Moved w { w with loop := { w.loop with phase := .stopping } }
  | ended (hp : w.loop.phase = .stopping) (hnone : w.loop.peers = []) :
    Moved w { w with
      loop := { w.loop with phase := .ended }
      log := w.log ++ (.handle :: if w.loop.keys.isNone then [.socketPath] else []) }

variable {v : Service σ} {w : Attended χ σ}

/-- Nothing happens to who is seated. -/
theorem Moved.still {w' : Attended χ σ} (hloop : w'.loop = w.loop) (hlog : w'.log = w.log)
    (htold : w.told → w'.told) : Moved w w' :=
  .same (by rw [hloop]) (by rw [hloop]) (by rw [hloop]) (by rw [hloop]) (by rw [hloop])
    (fun h => by rwa [hloop]) hlog htold

theorem moved_servePeer (number : Nat) (e : Serving.Event) : Moved w
    { w with
      loop := (w.loop.servePeer v number e w.state).1
      state := (w.loop.servePeer v number e w.state).2.2
      log := w.log ++ (w.loop.servePeer v number e w.state).2.1.map LoopMark.of } := by
  unfold AcceptLoop.servePeer
  split
  · exact .still rfl (List.append_nil _) id
  · next p hp =>
    simp only
    split
    · exact .dismissed (List.mem_of_find?_eq_some hp) _
    · -- whoever is served on keeps number and channel
      have hkeeps (q : Peer χ) : (if q.number == number then
          { q with serving := (p.serving.step v p.channel.name e w.state).1 } else q).channel = q.channel
          ∧ (if q.number == number then
            { q with serving := (p.serving.step v p.channel.name e w.state).1 } else q).number
            = q.number := by
        split <;> exact ⟨rfl, rfl⟩
      refine .same rfl ?_ rfl rfl ?_ (fun hopen q hq => ?_) (List.append_nil _) id
      · simp only [AcceptLoop.seats, List.filterMap_map]
        refine List.filterMap_congr fun q _ => ?_
        simp only [Function.comp, Peer.seat?, hkeeps q]
      · rw [List.map_map]
        exact List.map_congr_left fun q _ => (hkeeps q).2
      · obtain ⟨q', hq', rfl⟩ := List.mem_map.1 hq
        rw [(hkeeps q').1]
        exact hopen q' hq'

/-! ## Who arrives -/

section
variable {x : χ} {address : String} {owner : Except IoError Nat}

theorem act_admitted (hp : w.loop.phase = .accepting) (hown : w.loop.admits owner) :
    w.act v (.loop (.accept x address owner)) = { w with
      loop := w.loop.accept x address
      log := w.log ++ [.accepted (w.loop.nextSeat x)] } := by
  simp [act, AcceptLoop.step_admitted v hown, shown, hp, hown]

theorem act_refused (hp : w.loop.phase = .accepting) (hown : ¬ w.loop.admits owner) :
    w.act v (.loop (.accept x address owner)) = { w with log := w.log ++ [.refused x] } := by
  simp [act, AcceptLoop.step_refused v hp hown, shown, hown, LoopMark.of]

/-- A loop that does not accept does not see who arrives. -/
theorem act_unattended (hp : w.loop.phase ≠ .accepting) :
    w.act v (.loop (.accept x address owner)) = w := by
  simp [act, AcceptLoop.step, AcceptLoop.peers_accept_stopping hp, shown, hp]

end

theorem moved_act (m : LoopMove χ) (fits : w.Fits m) : Moved w (w.act v m) := by
  cases m with
  | tell => exact .still rfl rfl fun _ => rfl
  | loop e =>
    cases e with
    | accept x address owner =>
      by_cases hp : w.loop.phase = .accepting
      · by_cases hown : w.loop.admits owner
        · rw [act_admitted hp hown]
          exact .took x address hp fits
        · rw [act_refused hp hown]
          exact .refused x hp
      · rw [act_unattended hp]
        exact .still rfl rfl id
    | peer number e =>
      have hact : w.act v (.loop (.peer number e)) = { w with
          loop := (w.loop.servePeer v number e w.state).1
          state := (w.loop.servePeer v number e w.state).2.2
          log := w.log ++ (w.loop.servePeer v number e w.state).2.1.map LoopMark.of } := by
        simp [act, AcceptLoop.step, shown]
      rw [hact]
      exact moved_servePeer number e
    | shutdown =>
      by_cases hp : w.loop.phase = .accepting
      · have hact : w.act v (.loop .shutdown)
            = { w with loop := { w.loop with phase := .stopping } } := by
          simp [act, AcceptLoop.step, shown, hp]
        rw [hact]
        exact .stopped hp fits
      · exact .still (by simp [act, AcceptLoop.step, hp]) (by simp [act, AcceptLoop.step, shown]) id
    | finish =>
      by_cases hp : w.loop.phase = .stopping ∧ w.loop.peers.isEmpty
      · have hact : w.act v (.loop .finish) = { w with
            loop := { w.loop with phase := .ended }
            log := w.log ++ (.handle :: if w.loop.keys.isNone then [.socketPath] else []) } := by
          simp only [act, AcceptLoop.step, AcceptLoop.finish, shown, if_pos hp, List.append_nil]
          cases w.loop.keys <;> rfl
        rw [hact]
        exact .ended hp.1 (List.isEmpty_iff.1 hp.2)
      · have hfinish : w.loop.finish = (w.loop, []) := if_neg hp
        exact .still (by simp [act, AcceptLoop.step, hfinish])
          (by simp [act, AcceptLoop.step, hfinish, shown]) id

/-! ## Whose peers are taken in -/

/-- A peer that was taken in is one that arrived and was admitted. -/
theorem accepted_act {m : LoopMove χ} {s : Seat χ} (h : .accepted s ∈ (w.act v m).log) :
    .accepted s ∈ w.log
    ∨ ∃ address owner, m = .loop (.accept s.stream address owner) ∧ w.loop.admits owner := by
  cases m with
  | tell => exact .inl h
  | loop e =>
    rcases List.mem_append.1 h with h | h
    · refine (List.mem_append.1 h).imp_right fun h => ?_
      cases e with
      | accept x address owner =>
        by_cases hp : w.loop.phase = .accepting ∧ w.loop.admits owner
        · obtain rfl : s = w.loop.nextSeat x := by simpa [shown, hp] using h
          exact ⟨address, owner, rfl, hp.2⟩
        · simp [shown, hp] at h
      | _ => cases h
    · obtain ⟨a, -, ha⟩ := List.mem_map.1 h
      cases a <;> cases ha

/-- A peer that was refused is one that arrived and was not admitted. -/
theorem refused_act {m : LoopMove χ} {x : χ} (h : .refused x ∈ (w.act v m).log) :
    .refused x ∈ w.log
    ∨ ∃ address owner, m = .loop (.accept x address owner) ∧ ¬ w.loop.admits owner := by
  cases m with
  | tell => exact .inl h
  | loop e =>
    rcases List.mem_append.1 h with h | h
    · refine .inl ((List.mem_append.1 h).resolve_right fun h => ?_)
      cases e with
      | accept y address owner =>
        unfold shown at h
        split at h <;> simp at h
      | _ => cases h
    · obtain ⟨a, ha, hx⟩ := List.mem_map.1 h
      cases a with
      | refused y =>
        cases hx
        obtain ⟨address, owner, rfl, hown⟩ := AcceptLoop.mem_step_refused ha
        exact .inr ⟨address, owner, rfl, hown⟩
      | _ => cases hx

/-- Whose peers are taken in does not change. -/
theorem uid_act (m : LoopMove χ) : (w.act v m).loop.uid = w.loop.uid := by
  cases m with
  | tell => rfl
  | loop e =>
    cases e with
    | accept x address owner =>
      simp only [act, AcceptLoop.step, AcceptLoop.accept]
      split
      · rfl
      · split
        · split <;> rfl
        · rfl
    | peer number e =>
      simp only [act, AcceptLoop.step, AcceptLoop.servePeer]
      split
      · rfl
      · split <;> rfl
    | shutdown =>
      simp only [act, AcceptLoop.step]
      split <;> rfl
    | finish =>
      simp only [act, AcceptLoop.step, AcceptLoop.finish]
      split <;> rfl

theorem admits_run {w' : Attended χ σ} {moves : List (LoopMove χ)} (h : Run v w moves w') :
    w'.loop.admits = w.loop.admits := by
  induction h with
  | here => rfl
  | next _ m _ ih => rw [AcceptLoop.admits_congr (uid_act m), ih]

/-- What is noted was there before, or a move brought it. -/
theorem noted_run {w' : Attended χ σ} {moves : List (LoopMove χ)} (h : Run v w moves w')
    {mark : LoopMark χ} {P : LoopMove χ → Prop}
    (hact : ∀ (w₁ : Attended χ σ) m, w₁.loop.admits = w.loop.admits → mark ∈ (w₁.act v m).log →
      mark ∈ w₁.log ∨ P m)
    (hmark : mark ∈ w'.log) : mark ∈ w.log ∨ ∃ m ∈ moves, P m := by
  induction h with
  | here => exact .inl hmark
  | next before m _ ih =>
    rcases hact _ m (admits_run before) hmark with hmark | hm
    · exact (ih hmark).imp_right fun ⟨m', hm', hP⟩ => ⟨m', List.mem_append_left _ hm', hP⟩
    · exact .inr ⟨m, List.mem_append_right _ (List.mem_singleton_self m), hm⟩

theorem accepted_run {w' : Attended χ σ} {moves : List (LoopMove χ)} (h : Run v w moves w')
    {s : Seat χ} (hs : .accepted s ∈ w'.log) : .accepted s ∈ w.log
    ∨ ∃ m ∈ moves, ∃ address owner, m = .loop (.accept s.stream address owner)
      ∧ w.loop.admits owner :=
  noted_run h (fun _ _ hadmits hs => hadmits ▸ accepted_act hs) hs

theorem refused_run {w' : Attended χ σ} {moves : List (LoopMove χ)} (h : Run v w moves w')
    {x : χ} (hx : .refused x ∈ w'.log) : .refused x ∈ w.log
    ∨ ∃ m ∈ moves, ∃ address owner, m = .loop (.accept x address owner)
      ∧ ¬ w.loop.admits owner :=
  noted_run h (fun _ _ hadmits hx => hadmits ▸ refused_act hx) hx

/-! ## The others -/

/-- Only what happens to a peer itself unseats it. -/
theorem mem_peers_act {q : Peer χ} (hq : q ∈ w.loop.peers) {m : LoopMove χ}
    (hm : ∀ e, m ≠ .loop (.peer q.number e)) : q ∈ (w.act v m).loop.peers := by
  cases m with
  | tell => exact hq
  | loop e =>
    cases e with
    | accept x address owner =>
      simp only [act, AcceptLoop.step, AcceptLoop.accept]
      split
      · exact hq
      · split
        · split <;> exact List.mem_append_left _ hq
        · exact hq
    | peer number e =>
      have hne : q.number ≠ number := fun he => hm e (by rw [he])
      exact (AcceptLoop.mem_peers_servePeer v w.loop e w.state hne).2 hq
    | shutdown =>
      simp only [act, AcceptLoop.step]
      split <;> exact hq
    | finish =>
      simp only [act, AcceptLoop.step, AcceptLoop.finish]
      split <;> exact hq

theorem mem_peers_run {w' : Attended χ σ} {moves : List (LoopMove χ)} (h : Run v w moves w')
    {q : Peer χ} (hq : q ∈ w.loop.peers) (hm : ∀ e, .loop (.peer q.number e) ∉ moves) :
    q ∈ w'.loop.peers := by
  induction h with
  | here => exact hq
  | next _ m _ ih =>
    refine mem_peers_act (ih fun e he => hm e (List.mem_append_left _ he)) fun e he => ?_
    exact hm e (List.mem_append_right _ (by rw [he]; exact List.mem_singleton_self _))

/-- Only a loop that looks at the signal takes nobody in any more. -/
theorem phase_run {w' : Attended χ σ} {moves : List (LoopMove χ)} (h : Run v w moves w')
    (hp : w.loop.phase = .accepting) (hm : .loop .shutdown ∉ moves) :
    w'.loop.phase = .accepting := by
  induction h with
  | here => exact hp
  | @next moves w' _ m _ ih =>
    have hw' := ih fun hs => hm (List.mem_append_left _ hs)
    cases m with
    | tell => exact hw'
    | loop e =>
      cases e with
      | accept x address owner =>
        by_cases hown : w'.loop.admits owner
        · rw [act_admitted hw' hown]
          simp only [AcceptLoop.accept, hw', if_true]
          split <;> rfl
        · rw [act_refused hw' hown]
          exact hw'
      | peer number e =>
        simp only [act, AcceptLoop.step, AcceptLoop.servePeer]
        split
        · exact hw'
        · split <;> exact hw'
      | shutdown => exact absurd (List.mem_append_right _ (List.mem_singleton_self _)) hm
      | finish =>
        have hfinish : w'.loop.finish = (w'.loop, []) := if_neg (by simp [hw'])
        simp only [act, AcceptLoop.step, hfinish]
        exact hw'

end Attended
end CommandLink
