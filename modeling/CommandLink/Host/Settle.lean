import CommandLink.Host.Reach
/-!
# Letting things happen

On a host, whatever can still happen does, one thing after another, until everything waits for
something that nobody does.

Results:
* `settle_quiet`: where nothing can happen, nothing does.
-/
namespace CommandLink.Host

/-! ## Listeners -/

/-- What a loop gives back, given back. -/
def applyLoopAct (l : Listening) (h : Host) : LoopAct Nat → Host
  | .peer n r => h.release n .server r
  | .refused n => h.release n .server .stream
  | .handle =>
    let h := l.backlog.foldl (fun h c => h.closeEnd c.1 .server) h
    { h with listeners := h.listeners.filter fun x => x.id ≠ l.id }
  | .socketPath =>
    match l.address with
    | .unix path =>
      { h with machine :=
        { h.machine with files := Rendezvous.unbind h.machine.files path } }
    | _ => h

/-- Something happens to the loop of a listener. -/
def loopStep (h : Host) (l : Listening) (e : LoopEvent Nat) : Host :=
  let (loop, acts, s) := l.loop.step l.service e ⟨⟨h.machine, l.pool⟩, h.seen⟩
  let l := { l with loop := loop, pool := s.agent.pool }
  let h := { h with machine := s.agent.machine, seen := s.seen }.setListener l
  acts.foldl (applyLoopAct l) h

/-- What the peer of a listener can go on with, if with anything. -/
def peerStep? (h : Host) (l : Listening) (p : Peer Nat) : Option Host := do
  let n ← p.channel.stream
  match p.serving with
  | .reading i =>
    let (r, h) ← h.readEnd n .server i.wanted
    some (h.loopStep l (.peer p.number (.read r)))
  | .answering o =>
    let (a, h) := h.writeEnd n .server (← o.offered?)
    some (h.loopStep l (.peer p.number (.wrote a)))
  | .stuck | .ended => none

/-- What a listener can go on with, if with anything. One that was told to stop lets its peers know
first. -/
def listenerStep? (h : Host) (l : Listening) : Option Host :=
  match l.loop.phase with
  | .accepting =>
    match l.backlog with
    | (n, address) :: rest =>
      -- everybody on a host is the same user
      let owner := .ok h.machine.user.uid
      some (h.loopStep { l with backlog := rest } (.accept n address owner))
    | [] => l.loop.peers.findSome? (h.peerStep? l)
  | .stopping =>
    match l.loop.peers with
    | p :: _ => some (h.loopStep l (.peer p.number .shutdown))
    | [] => some (h.loopStep l .finish)
  | .ended => none

/-! ## Scripted peers -/

/-- A scripted peer does on one of its connections what its script says about a frame. -/
def react (h : Host) (p : ScriptedPeer) (c : ScriptedConnection) (payload : Bytes) : Host :=
  let h := { h with seen := h.seen ++ [Seen.frame p.name c.index payload] }
  match c.reactions with
  | [] => h.setScripted (p.setConnection { c with intake := .start })
  | r :: rs =>
    let h := (h.writeEnd c.link .server r.write).2
    if r.hangUp then (h.closeEnd c.link .server).setScripted (p.dropConnection c)
    else h.setScripted (p.setConnection { c with reactions := rs, intake := .start })

def connectionStep? (h : Host) (p : ScriptedPeer) (c : ScriptedConnection) : Option Host := do
  let (r, h) ← h.readEnd c.link .server c.intake.wanted
  match (c.intake.read p.name r).1 with
  | .inl i => some (h.setScripted (p.setConnection { c with intake := i }))
  | .inr (.ok (some payload)) => some (h.react p c payload)
  | .inr _ => some ((h.closeEnd c.link .server).setScripted (p.dropConnection c))

/-- What a scripted peer can go on with. With its last script it stops listening. -/
def scriptedStep? (h : Host) (p : ScriptedPeer) : Option Host :=
  match p.backlog, p.scripts with
  | n :: rest, s :: ss =>
    let p := { p with
      backlog := if ss.isEmpty then [] else rest
      scripts := ss
      accepted := p.accepted + 1
      connections := p.connections ++ [⟨n, p.accepted, s, .start⟩] }
    let h := if ss.isEmpty then rest.foldl (fun h m => h.closeEnd m .server) h else h
    some (h.setScripted p)
  | _, _ => p.connections.findSome? (h.connectionStep? p)

/-! ## Queues -/

/-- What a queue does to the outside, done. -/
def applyQueueAct (h : Host) : QueueAct Nat → Host
  | .release n r => h.release n .client r
  | .ended e => { h with notices := h.notices ++ e.notices }

/-- A queue that was changed, with what that does to the outside. -/
def applyQueue (h : Host) (q : Queueing) (changed : RequestQueue Nat × List (QueueAct Nat)) : Host :=
  changed.2.foldl applyQueueAct (h.setQueue { q with queue := changed.1 })

/-- What a queue can go on with, if with anything. -/
def queueStep? (h : Host) (q : Queueing) : Option Host :=
  if q.queue.hasTurn then some (h.applyQueue q (q.queue.step .turn))
  else match q.queue.phase with
    | .probing _ _ c => do
      match h.readEnd (← c.stream) .client 1 with
      | none => some (h.applyQueue q (q.queue.step (.probed (.ok .empty))))
      | some (s, h) => some (h.applyQueue q (q.queue.step (.probed s)))
    | .connecting r _ =>
      match h.connect q.properties r.destination with
      | .ok (c, h) => some (h.applyQueue q (q.queue.step (.connected (.ok c))))
      | .error e => some (h.applyQueue q (q.queue.step (.connected (.error e))))
    | .sending _ _ c o => do
      let n ← c.stream
      let (a, h) ← h.offerEnd n .client (h.wantedAt n) (← o.offered?)
      some (h.applyQueue q (q.queue.step (.wrote a)))
    | .awaiting _ _ c i => do
      let (s, h) ← h.readEnd (← c.stream) .client i.wanted
      some (h.applyQueue q (q.queue.step (.read s)))
    | _ => none

/-! ## All of them -/

/-- The next thing that happens, if anything can. -/
def step? (h : Host) : Option Host :=
  (h.listeners.findSome? h.listenerStep?).or
    ((h.scripted.findSome? h.scriptedStep?).or (h.queues.findSome? h.queueStep?))

/-- At most so many things happen. -/
def run : Nat → Host → Host
  | 0, h => h
  | n + 1, h => match h.step? with
    | some h => run n h
    | none => h

def total (ns : List Nat) : Nat := ns.foldl (· + ·) 0

/-- How many things can happen at most: each takes up something that waits, and nothing that waits
is taken up in many parts. -/
def waiting (h : Host) : Nat :=
  let onLinks := h.links.map fun l => (l.2.incoming .client).length + (l.2.incoming .server).length
  let atListeners := h.listeners.map fun l => 1 + l.backlog.length + l.loop.peers.length
  let atScripted := h.scripted.map fun p =>
    1 + p.backlog.length + p.connections.length
      + total ((p.scripts ++ p.connections.map ScriptedConnection.reactions).flatten.map fun r =>
          1 + r.write.length)
  let inQueues := h.queues.map fun q =>
    1 + q.queue.requests.length + q.queue.calls.length + q.queue.cache.length
  1 + total onLinks + total atListeners + total atScripted + total inQueues

/-- Lets everything happen that can. -/
def settle (h : Host) : Host := run (64 * h.waiting) h

theorem run_quiet {h : Host} (hq : h.step? = none) (n : Nat) : run n h = h := by
  cases n with
  | zero => rfl
  | succ n => simp [run, hq]

theorem settle_quiet {h : Host} (hq : h.step? = none) : h.settle = h :=
  run_quiet hq _

end CommandLink.Host
