import CommandLink.Channel
import CommandLink.Serve
/-!
# The accept loop

A listener takes in peers and serves each of them, whatever becomes of the others. On a socket in the
file system it takes in peers of its own user alone. Told to stop, it takes in no more; once the last
peer is gone it gives back what it listened with.

Results:
* `step_refused`, `mem_step_refused`: a peer of somebody else is refused, which changes nothing, and
  nobody else is.
* `mem_peers_servePeer`: what happens to one peer leaves the others as they are.
* `peers_accept_stopping`: a loop that was told to stop takes in nobody.
* `finish_peers`: what the loop listened with goes only when no peer is left.
-/
namespace CommandLink

/-- A peer that was taken in, numbered from 1 in the order of arrival. -/
structure Peer (χ : Type) where
  number : Nat
  channel : Channel χ
  serving : Serving

inductive LoopPhase where
  | accepting
  | stopping
  | ended
  deriving Repr, DecidableEq

/-- A loop over peers with streams of type `χ`. -/
structure AcceptLoop (χ : Type) where
  endpoint : EndpointName
  /-- The keys of the peers, where the loop watches them itself; on a socket in the file system each
  peer is left to itself. -/
  keys : Option (KeySet String)
  /-- The user whose peers alone are taken in, on a socket in the file system. -/
  uid : Option Nat
  accepted : Nat
  peers : List (Peer χ)
  phase : LoopPhase

/-- What a loop gives back. -/
inductive LoopAct (χ : Type) where
  /-- Something of a peer's channel. -/
  | peer (stream : χ) (r : Release)
  /-- The stream of a peer that was not taken in. -/
  | refused (stream : χ)
  /-- What it listened with. -/
  | handle
  /-- The socket's path. -/
  | socketPath

/-- What can happen to a loop. -/
inductive LoopEvent (χ : Type) where
  /-- A peer arrives, of whom the system says whose it is. -/
  | accept (stream : χ) (address : String) (owner : Except IoError Nat)
  | peer (number : Nat) (e : Serving.Event)
  | shutdown
  /-- The loop looks whether it can end. -/
  | finish

namespace AcceptLoop
variable {χ σ : Type}

/-- A loop at a TCP port. -/
def overTcp (e : EndpointName) : AcceptLoop χ := ⟨e, some .empty, none, 0, [], .accepting⟩

/-- A loop at a socket in the file system of a user. -/
def overSocket (e : EndpointName) (uid : Nat) : AcceptLoop χ := ⟨e, none, some uid, 0, [], .accepting⟩

/-- Whether a peer of an owner is taken in. Where it matters whose it is, nobody else is, nor one of
whom that cannot be read. Mirrors the check of `peer_cred` in `accept_loop`. -/
def admits (l : AcceptLoop χ) (owner : Except IoError Nat) : Bool :=
  match l.uid, owner with
  | none, _ => true
  | some uid, .ok n => n = uid
  | some _, .error _ => false

/-- Takes in a peer. Its channel is named for its address, or for its number where peers have no
address. Mirrors a peer's arrival in `accept_loop`. -/
def accept (l : AcceptLoop χ) (stream : χ) (address : String) : AcceptLoop χ :=
  if l.phase = .accepting then
    let n := l.accepted + 1
    match l.keys with
    | some keys =>
      let (keys, key) := keys.register address
      let channel := (Channel.opened (l.endpoint.text ++ "@" ++ address) stream).withKey key
      { l with keys := some keys, accepted := n, peers := l.peers ++ [⟨n, channel, .start⟩] }
    | none =>
      let channel := Channel.opened (l.endpoint.text ++ "#" ++ Text.decimal n) stream
      { l with accepted := n, peers := l.peers ++ [⟨n, channel, .start⟩] }
  else l

/-- The keys after something of a channel was given back. -/
def cancelled (keys : Option (KeySet String)) : Release → Option (KeySet String)
  | .key k => keys.map fun s => s.cancel k
  | _ => keys

/-- A peer that is served no more: its channel is closed. Mirrors the end of `serve_channel`. -/
def dismiss (l : AcceptLoop χ) (p : Peer χ) : AcceptLoop χ × List (LoopAct χ) :=
  let releases := p.channel.close.2
  let keys := releases.foldl cancelled l.keys
  let acts := match p.channel.stream with
    | some stream => releases.map (.peer stream)
    | none => []
  ({ l with keys := keys, peers := l.peers.filter fun q => q.number != p.number }, acts)

/-- The peer of a number, as long as it is served. -/
def peer? (l : AcceptLoop χ) (number : Nat) : Option (Peer χ) :=
  l.peers.find? fun p => p.number == number

/-- Something happens to the peer of a number. -/
def servePeer (v : Service σ) (l : AcceptLoop χ) (number : Nat) (e : Serving.Event) (s : σ) :
    AcceptLoop χ × List (LoopAct χ) × σ :=
  match l.peer? number with
  | none => (l, [], s)
  | some p =>
    let (serving, s) := p.serving.step v p.channel.name e s
    if serving.isEnded then
      let (l, acts) := l.dismiss p
      (l, acts, s)
    else
      let moved := fun q : Peer χ => if q.number == number then { q with serving := serving } else q
      ({ l with peers := l.peers.map moved }, [], s)

/-- Ends the loop if it was told to stop and no peer is left. The handle goes first, then the path
of a socket. Mirrors the end of `accept_loop`. -/
def finish (l : AcceptLoop χ) : AcceptLoop χ × List (LoopAct χ) :=
  if l.phase = .stopping ∧ l.peers.isEmpty then
    ({ l with phase := .ended }, .handle :: if l.keys.isNone then [.socketPath] else [])
  else (l, [])

/-- What an event makes of a loop. Mirrors `accept_loop`. -/
def step (v : Service σ) (l : AcceptLoop χ) (e : LoopEvent χ) (s : σ) :
    AcceptLoop χ × List (LoopAct χ) × σ :=
  match e with
  | .accept stream address owner =>
    -- a loop that stops does not look at who arrives
    if l.phase = .accepting ∧ ¬ l.admits owner then (l, [.refused stream], s)
    else (l.accept stream address, [], s)
  | .peer number e => l.servePeer v number e s
  | .shutdown => (if l.phase = .accepting then { l with phase := .stopping } else l, [], s)
  | .finish =>
    let (l, acts) := l.finish
    (l, acts, s)

theorem admits_iff {l : AcceptLoop χ} {owner : Except IoError Nat} :
    l.admits owner ↔ ∀ uid, l.uid = some uid → owner = .ok uid := by
  unfold admits
  cases l.uid <;> cases owner <;> simp [eq_comm]

theorem admits_congr {l l' : AcceptLoop χ} (h : l.uid = l'.uid) : l.admits = l'.admits := by
  funext owner
  rw [Bool.eq_iff_iff, admits_iff, admits_iff, h]

theorem step_refused (v : Service σ) {l : AcceptLoop χ} (hp : l.phase = .accepting)
    {owner : Except IoError Nat} (h : ¬ l.admits owner) (stream : χ) (address : String) (s : σ) :
    l.step v (.accept stream address owner) s = (l, [.refused stream], s) :=
  if_pos ⟨hp, h⟩

theorem step_admitted (v : Service σ) {l : AcceptLoop χ} {owner : Except IoError Nat}
    (h : l.admits owner) (stream : χ) (address : String) (s : σ) :
    l.step v (.accept stream address owner) s = (l.accept stream address, [], s) :=
  if_neg fun hnot => hnot.2 h

theorem mem_dismiss {l : AcceptLoop χ} {p : Peer χ} {a : LoopAct χ} (h : a ∈ (l.dismiss p).2) :
    ∃ x r, a = .peer x r := by
  simp only [dismiss] at h
  split at h
  · obtain ⟨r, -, rfl⟩ := List.mem_map.1 h
    exact ⟨_, r, rfl⟩
  · cases h

theorem mem_servePeer {v : Service σ} {l : AcceptLoop χ} {number : Nat} {e : Serving.Event} {s : σ}
    {a : LoopAct χ} (h : a ∈ (l.servePeer v number e s).2.1) : ∃ x r, a = .peer x r := by
  simp only [servePeer] at h
  split at h
  · cases h
  · split at h
    · exact mem_dismiss (l := l) h
    · cases h

theorem mem_finish {l : AcceptLoop χ} {a : LoopAct χ} (h : a ∈ l.finish.2) :
    a = .handle ∨ a = .socketPath := by
  simp only [finish] at h
  split at h
  · refine (List.mem_cons.1 h).imp_right fun h => ?_
    split at h
    · exact List.mem_singleton.1 h
    · cases h
  · cases h

/-- Only who arrives is refused, and only for whose they are. -/
theorem mem_step_refused {v : Service σ} {l : AcceptLoop χ} {e : LoopEvent χ} {s : σ} {x : χ}
    (h : .refused x ∈ (l.step v e s).2.1) :
    ∃ address owner, e = .accept x address owner ∧ ¬ l.admits owner := by
  cases e with
  | accept y address owner =>
    simp only [step] at h
    split at h
    · next hp =>
      cases List.mem_singleton.1 h
      exact ⟨address, owner, rfl, hp.2⟩
    · cases h
  | peer number e =>
    obtain ⟨_, _, h⟩ := mem_servePeer h
    cases h
  | shutdown => cases h
  | finish => rcases mem_finish h with h | h <;> cases h

theorem peers_accept_stopping {l : AcceptLoop χ} (h : l.phase ≠ .accepting) (stream : χ)
    (address : String) : l.accept stream address = l := by
  simp [accept, h]

theorem finish_peers {l : AcceptLoop χ} (h : l.finish.2 ≠ []) : l.peers = [] := by
  simp only [finish] at h
  split at h
  · next hp => simpa using hp.2
  · exact absurd rfl h

theorem mem_peers_servePeer (v : Service σ) (l : AcceptLoop χ) {number : Nat} (e : Serving.Event)
    (s : σ) {q : Peer χ} (hq : q.number ≠ number) :
    q ∈ (l.servePeer v number e s).1.peers ↔ q ∈ l.peers := by
  simp only [servePeer, peer?]
  split
  · exact Iff.rfl
  · next p hp =>
    have hn : p.number = number := by simpa using List.find?_some hp
    split
    · simp [dismiss, hn, hq]
    · simp only [List.mem_map]
      constructor
      · rintro ⟨q', hm, rfl⟩
        split at hq
        · next he => simp at hq he; exact absurd he hq
        · next he => simpa [he] using hm
      · intro hm
        exact ⟨q, hm, by simp [hq]⟩

end AcceptLoop
end CommandLink
