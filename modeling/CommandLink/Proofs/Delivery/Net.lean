import CommandLink.Proofs.Queue.Route
import CommandLink.Proofs.Serve.Transcript
/-!
# A queue and those who serve it

A queue, the peers that its streams lead to, and the bytes on their way. Each peer serves what comes
in over its stream. The bytes arrive in the order in which they were written, in pieces of any size
and as late as may be; a stream may be cut at any moment, from either end, which an end learns as an
end of the bytes or as a failure, and then nothing more comes or goes there.

A byte that a request is written with carries the number of the request along. Nobody who serves can
see the numbers: they tell, of each request that is handed to the receivers, whose bytes it was made
of.

Results:
* `Net.Move`: all that can happen.
* `calls_move`: requests reach the receivers by the calls that are noted, and by these alone.
-/
namespace CommandLink

/-- A request was handed to the receivers. -/
structure Call (χ σ : Type) where
  /-- The stream over which it came. -/
  via : χ
  /-- Where it was served. -/
  service : Service σ
  /-- The bytes that it was read from, each with the number of the request that it was written for. -/
  frame : List (Nat × UInt8)
  request : Request
  /-- The receivers' world at that moment. -/
  world : σ

namespace Call
variable {χ σ : Type}

/-- What came of it: the response that dispatching the request gave, if it gave one. -/
def response (c : Call χ σ) : Option Response :=
  (c.service.receivers.dispatch c.request c.world).1

/-- The receivers' world behind it. -/
def after (c : Call χ σ) : σ := (c.service.receivers.dispatch c.request c.world).2

/-- The number of the request that its first byte was written for. -/
def number (c : Call χ σ) : Nat := c.frame.head?.elim 0 Prod.fst

end Call

/-- The far end of a stream, and the bytes on their way. -/
structure Line (σ : Type) where
  service : Service σ
  /-- What the far end calls its channel. -/
  name : String
  serving : Serving
  /-- What the serving has taken up of the frame that it reads. -/
  frame : List (Nat × UInt8)
  toServer : List (Nat × UInt8)
  toClient : Bytes

namespace Serving

/-- The bytes that an event brings in. -/
def bytesIn : Event → Bytes
  | .read r => Frame.bytesRead r
  | .wrote _ | .shutdown => []

/-- The bytes that an event gets out. -/
def bytesOut (c : Serving) (e : Event) : Bytes :=
  match c, e with
  | answering o, .wrote a => o.offered?.elim [] fun bs => a.bytesTaken bs
  | _, _ => []

end Serving

namespace Line
variable {σ : Type}

/-- A stream to a service, just connected. -/
def start (v : Service σ) (name : String) : Line σ := ⟨v, name, .start, [], [], []⟩

/-- Bytes were written for a request. -/
def sent (l : Line σ) (k : Nat) (bs : Bytes) : Line σ :=
  { l with toServer := l.toServer ++ bs.map (k, ·) }

/-- Bytes were read. -/
def heard (l : Line σ) (bs : Bytes) : Line σ := { l with toClient := l.toClient.drop bs.length }

/-- What the serving has taken up once an event has brought its bytes. -/
def taking (l : Line σ) (e : Serving.Event) : List (Nat × UInt8) :=
  l.frame ++ l.toServer.take (Serving.bytesIn e).length

/-- The far end after an event. -/
def serve (l : Line σ) (e : Serving.Event) (s : σ) : Line σ :=
  { l with
    serving := (l.serving.step l.service l.name e s).1
    frame := if (l.serving.payload? l.name e).isSome then [] else l.taking e
    toServer := l.toServer.drop (Serving.bytesIn e).length
    toClient := l.toClient ++ l.serving.bytesOut e }

/-- The call that an event leads to, if it hands a request to the receivers. -/
def calls {χ : Type} (l : Line σ) (x : χ) (e : Serving.Event) (s : σ) : List (Call χ σ) :=
  (l.serving.handed? l.service l.name e).toList.map fun r => ⟨x, l.service, l.taking e, r, s⟩

/-- What can happen at the far end: a read gives of the bytes on their way no more than was asked
for, or says that they have ended or failed, and a write takes no more than was offered. -/
def Fits (l : Line σ) (e : Serving.Event) : Prop :=
  match l.serving, e with
  | _, .shutdown => True
  | .reading i, .read r =>
    Frame.bytesRead r <+: l.toServer.map Prod.snd ∧ (Frame.bytesRead r).length ≤ i.wanted
  | .answering o, .wrote a => ∀ n bs, a = .took n → o.offered? = some bs → n ≤ bs.length
  | _, _ => False

theorem fits_data {l : Line σ} {i : Frame.Intake} {bs : Bytes} (hi : l.serving = .reading i)
    (hb : bs <+: l.toServer.map Prod.snd) (hw : bs.length ≤ i.wanted) :
    l.Fits (.read (.ok (.data bs))) := by
  simp only [Fits, hi]
  exact ⟨hb, hw⟩

/-- Whether the far end offers at least so many bytes. -/
def offers (l : Line σ) (k : Nat) : Bool :=
  match l.serving with
  | .answering o => o.offered?.any fun bs => k ≤ bs.length
  | _ => false

theorem fits_took {l : Line σ} {k : Nat} (h : l.offers k) : l.Fits (.wrote (.took k)) := by
  unfold offers at h
  split at h
  · next o ho =>
    simp only [Fits, ho]
    intro n bs hn hb
    cases hn
    simpa [hb] using h
  · cases h

end Line

/-- A queue, the far ends of its streams, what was handed to receivers so far, and their world. -/
structure Net (χ σ : Type) where
  client : Watched χ
  line : χ → Option (Line σ)
  calls : List (Call χ σ)
  world : σ

namespace Net
variable {χ σ : Type} [DecidableEq χ]

/-- The number of the request in flight or next. -/
def number (n : Net χ σ) : Nat := Log.number n.client.log

/-- A queue that was put to nothing, in some world. -/
def start (s : σ) : Net χ σ := ⟨⟨.start, []⟩, fun _ => none, [], s⟩

def setLine (n : Net χ σ) (x : χ) (l : Line σ) : Net χ σ :=
  { n with line := fun y => if y = x then some l else n.line y }

/-- An event at the far end of a stream. -/
def serve (n : Net χ σ) (x : χ) (l : Line σ) (e : Serving.Event) : Net χ σ :=
  { n.setLine x (l.serve e n.world) with
    calls := n.calls ++ l.calls x e n.world
    world := (l.serving.step l.service l.name e n.world).2 }

/-- The queue changes, and a stream with it. -/
def event (n : Net χ σ) (e : QueueEvent χ) (x : χ) (l : Line σ) : Net χ σ :=
  { n.setLine x l with client := n.client.event e }

/-- All that can happen: calls of the queue's users, its own turns, what it waits for, what happens
at the far ends of its streams, and anything in the receivers' world. -/
inductive Move (n : Net χ σ) : Net χ σ → Prop
  | put (r : Request) : Move n { n with client := n.client.put r }
  | takeNumber : Move n { n with client.queue := n.client.queue.takeNumber.2 }
  | deliver (c : CloseCall) (taken : c.number ≤ n.client.queue.taken) :
      Move n { n with client.queue := n.client.queue.deliver c }
  | shutdown : Move n { n with client.queue := n.client.queue.shutdown }
  | turn : Move n { n with client := n.client.event .turn }
  | refuse {r : Request} {since : Nat} (hp : n.client.queue.phase = .connecting r since)
      (e : LinkError) : Move n { n with client := n.client.event (.connected (.error e)) }
  /-- A stream that was not there before leads to a service at the endpoint that was asked for. -/
  | connect {r : Request} {since : Nat} (hp : n.client.queue.phase = .connecting r since)
      {c : Channel χ} {x : χ} (hx : c.stream = some x) (fresh : n.line x = none)
      (v : Service σ) (hv : v.endpoint = r.destination) (name : String) :
      Move n (n.event (.connected (.ok c)) x (.start v name))
  | probe {r : Request} {since : Nat} {c : Channel χ} {x : χ} {l : Line σ}
      (hp : n.client.queue.phase = .probing r since c) (hx : c.stream = some x)
      (hl : n.line x = some l) (s : Except IoError Frame.ReadStatus)
      (hs : Frame.bytesRead s <+: l.toClient) :
      Move n (n.event (.probed s) x (l.heard (Frame.bytesRead s)))
  | write {r : Request} {since : Nat} {c : Channel χ} {o : Frame.Outgoing} {x : χ} {l : Line σ}
      {bs : Bytes} (hp : n.client.queue.phase = .sending r since c o) (hx : c.stream = some x)
      (hl : n.line x = some l) (ho : o.offered? = some bs) (a : Frame.Acceptance)
      (ha : ∀ k, a = .took k → k ≤ bs.length) :
      Move n (n.event (.wrote a) x (l.sent n.number (a.bytesTaken bs)))
  | read {r : Request} {since : Nat} {c : Channel χ} {i : Frame.Intake} {x : χ} {l : Line σ}
      (hp : n.client.queue.phase = .awaiting r since c i) (hx : c.stream = some x)
      (hl : n.line x = some l) (s : Except IoError Frame.ReadStatus)
      (hs : Frame.bytesRead s <+: l.toClient) (hw : (Frame.bytesRead s).length ≤ i.wanted) :
      Move n (n.event (.read s) x (l.heard (Frame.bytesRead s)))
  | serve {x : χ} {l : Line σ} (hl : n.line x = some l) (e : Serving.Event) (fits : l.Fits e) :
      Move n (n.serve x l e)
  | elapse (s : σ) : Move n { n with world := s }

inductive Reachable : Net χ σ → Prop
  | start (s : σ) : Reachable (start s)
  | step {n n' : Net χ σ} (before : Reachable n) (move : Move n n') : Reachable n'

/-- What was handed to receivers over a stream. -/
def callsVia (n : Net χ σ) (x : χ) : List (Call χ σ) := n.calls.filter fun c => c.via = x

/-- The receivers' world changes by the calls that are made, and by nothing else at a far end. -/
theorem serve_world (n : Net χ σ) (x : χ) (l : Line σ) (e : Serving.Event) :
    (n.serve x l e).world = (l.calls x e n.world).foldl (fun _ c => c.after) n.world := by
  show (l.serving.step l.service l.name e n.world).2 = _
  rw [Serving.step_world, Line.calls]
  cases l.serving.handed? l.service l.name e <;> rfl

/-- Unless their world moves by itself, it stays as it is, or a request is handed to the receivers as
it was and what dispatching that makes of it is there now. -/
theorem calls_move {n n' : Net χ σ} (move : Move n n') : (∃ s, n' = { n with world := s })
    ∨ (n'.calls = n.calls ∧ n'.world = n.world)
    ∨ ∃ c, n'.calls = n.calls ++ [c] ∧ c.world = n.world ∧ n'.world = c.after := by
  cases move with
  | elapse s => exact .inl ⟨s, rfl⟩
  | @serve x l hl e fits =>
    refine .inr ?_
    rw [serve_world]
    show (n.calls ++ l.calls x e n.world = _ ∧ _) ∨ ∃ c, n.calls ++ l.calls x e n.world = _ ∧ _
    unfold Line.calls
    cases l.serving.handed? l.service l.name e with
    | none => exact .inl ⟨List.append_nil _, rfl⟩
    | some r => exact .inr ⟨_, rfl, rfl, rfl⟩
  | _ => exact .inr (.inl ⟨rfl, rfl⟩)

@[simp] theorem setLine_self (n : Net χ σ) (x : χ) (l : Line σ) :
    (n.setLine x l).line x = some l := if_pos rfl

theorem setLine_of_ne (n : Net χ σ) {x y : χ} (h : y ≠ x) (l : Line σ) :
    (n.setLine x l).line y = n.line y := if_neg h

end Net

/-! ## What a queue notes -/

namespace Log
variable {χ : Type} {log log' shown : List (Mark χ)}

/-- A log grew by what was shown, with marks behind it of things given back and requests ended. -/
def Grew (log shown log' : List (Mark χ)) : Prop :=
  ∃ acts : List (QueueAct χ), ∃ k via,
    log' = log ++ (shown ++ acts.map (Watched.marked k via))

theorem grew_put (w : Watched χ) (r : Request) : Grew w.log [.put r] (w.put r).log :=
  ⟨_, _, _, rfl⟩

theorem grew_event (w : Watched χ) (e : QueueEvent χ) :
    Grew w.log (Watched.shown (number w.log) w.queue e) (w.event e).log :=
  ⟨_, _, _, List.append_assoc _ _ _⟩

/-- What things given back and requests ended do not tell of is told by what was shown. -/
theorem Grew.flatMap {β : Type} (h : Grew log shown log') {f : Mark χ → List β}
    (hr : ∀ x r, f (.released x r) = []) (he : ∀ k x e, f (.ended k x e) = []) :
    log'.flatMap f = log.flatMap f ++ shown.flatMap f := by
  obtain ⟨acts, k, via, rfl⟩ := h
  have hacts : (acts.map (Watched.marked k via)).flatMap f = [] := by
    refine List.flatMap_eq_nil_iff.2 fun m hm => ?_
    obtain ⟨a, -, rfl⟩ := List.mem_map.1 hm
    cases a with
    | release x r => exact hr x r
    | ended e => exact he k via e
  rw [List.flatMap_append, List.flatMap_append, hacts, List.append_nil]

theorem Grew.writtenTo [DecidableEq χ] (h : Grew log shown log') (x : χ) :
    writtenTo x log' = writtenTo x log ++ writtenTo x shown :=
  h.flatMap (fun _ _ => rfl) fun _ _ _ => rfl

theorem Grew.consumedFrom [DecidableEq χ] (h : Grew log shown log') (x : χ) :
    consumedFrom x log' = consumedFrom x log ++ consumedFrom x shown :=
  h.flatMap (fun _ _ => rfl) fun _ _ _ => rfl

theorem Grew.leads (h : Grew log shown log') {x : χ} {e : EndpointName} :
    Leads log' x e ↔ Leads log x e ∨ Leads shown x e := by
  obtain ⟨acts, k, via, rfl⟩ := h
  constructor
  · rintro ⟨j, hm⟩
    rcases List.mem_append.1 hm with hm | hm
    · exact .inl ⟨j, hm⟩
    rcases List.mem_append.1 hm with hm | hm
    · exact .inr ⟨j, hm⟩
    · obtain ⟨a, -, ha⟩ := List.mem_map.1 hm
      cases a <;> cases ha
  · rintro (hx | ⟨j, hm⟩)
    · exact hx.add _
    · exact ⟨j, List.mem_append_right _ (List.mem_append_left _ hm)⟩

/-- The requests that were put keep their places. -/
theorem Grew.puts (h : Grew log shown log') {k : Nat} {r : Request}
    (hr : (Log.puts log)[k]? = some r) : (Log.puts log')[k]? = some r := by
  obtain ⟨acts, j, via, rfl⟩ := h
  obtain ⟨hk, -⟩ := List.getElem?_eq_some_iff.1 hr
  rw [puts_append, List.getElem?_append_left hk, hr]

end Log
end CommandLink
