import CommandLink.Proofs.Places
import CommandLink.Proofs.Queue.Ledger
/-!
# A queue with its close calls on record

A call to close a channel takes its number in one step and is delivered in another. Any number of
callers are between the two at any moment, and requests are put and the queue goes on meanwhile. The
chronicle tells of all this in the order in which it happened: when a call took its number, when a
request went in flight, when a call was consumed, and in between whatever the log tells.

Results:
* `Chronicled.Reachable`: the queues that come about, in whatever order their callers and they
  themselves take their steps.
* `turned`: all that a turn can be to requests and close calls.
* `throughout_reachable`: what holds of every place of a chronicle is shown for the places that are
  new with a step.
-/
namespace CommandLink

/-- What a chronicle tells of. -/
inductive Entry (χ : Type) where
  | mark (m : Mark χ)
  /-- A close call took its number. -/
  | took (c : CloseCall)
  /-- A request with a number went in flight and noted the last number that a close call took. -/
  | began (k : Nat) (r : Request) (since : Nat)
  /-- The queue consumed a close call. -/
  | consumed (c : CloseCall)
  /-- What the queue waited for came to something. -/
  | came (e : QueueEvent χ)

namespace RequestQueue
variable {χ : Type}

/-- The request that goes in flight with the queue's turn. -/
def begins? (q : RequestQueue χ) : Option Request :=
  match q.phase with
  | .idle => q.requests.head?.map fun r => { r with progress := .inFlight }
  | _ => none

/-- The close call that is consumed with the queue's turn. -/
def consumes? (q : RequestQueue χ) : Option CloseCall :=
  match q.phase with
  | .idle => if q.requests.isEmpty && !q.sealed then q.calls.head? else none
  | .draining .. | .awaiting .. => q.calls.head?
  | _ => none

end RequestQueue

/-- A queue under observation, the close calls that have their number and are not yet delivered, and
the chronicle. -/
structure Chronicled (χ : Type) where
  watched : Watched χ
  underWay : List CloseCall
  chronicle : List (Entry χ)

namespace Chronicled
variable {χ : Type}

def start : Chronicled χ := ⟨⟨.start, []⟩, [], []⟩

/-- Something is told, and then what is noted when the queue becomes another. -/
def telling (w : Chronicled χ) (told : List (Entry χ)) (after : Watched χ) : Chronicled χ :=
  { w with
    watched := after
    chronicle := w.chronicle ++ (told ++ (after.log.drop w.watched.log.length).map .mark) }

def put (w : Chronicled χ) (r : Request) : Chronicled χ := w.telling [] (w.watched.put r)

/-- A caller's call to close the channel to an endpoint takes its number. -/
def take (w : Chronicled χ) (e : EndpointName) : Chronicled χ :=
  let (n, q) := w.watched.queue.takeNumber
  { w.telling [.took ⟨e, n⟩] { w.watched with queue := q } with
    underWay := w.underWay ++ [⟨e, n⟩] }

/-- A call that has its number is delivered. -/
def deliver (w : Chronicled χ) (c : CloseCall) : Chronicled χ :=
  { w.telling [] { w.watched with queue := w.watched.queue.deliver c } with
    underWay := w.underWay.erase c }

def shutdown (w : Chronicled χ) : Chronicled χ :=
  w.telling [] { w.watched with queue := w.watched.queue.shutdown }

/-- What is told of an event. -/
def told (w : Watched χ) : QueueEvent χ → List (Entry χ)
  | .turn => (w.queue.begins?.toList.map fun r => .began (Log.number w.log) r w.queue.taken)
    ++ w.queue.consumes?.toList.map .consumed
  | e => [.came e]

/-- Something happens that the queue waits for, or it takes its turn. -/
def event (w : Chronicled χ) (e : QueueEvent χ) : Chronicled χ :=
  w.telling (told w.watched e) (w.watched.event e)

/-- A queue after any steps of its callers and its own, whatever its streams do. Calls are delivered
in any order, and nothing says that a call is delivered at all. -/
inductive Reachable : Chronicled χ → Prop
  | start : Reachable start
  | put {w : Chronicled χ} (before : Reachable w) (r : Request) : Reachable (w.put r)
  | take {w : Chronicled χ} (before : Reachable w) (e : EndpointName) : Reachable (w.take e)
  | deliver {w : Chronicled χ} (before : Reachable w) {c : CloseCall} (taken : c ∈ w.underWay) :
      Reachable (w.deliver c)
  | shutdown {w : Chronicled χ} (before : Reachable w) : Reachable w.shutdown
  | event {w : Chronicled χ} (before : Reachable w) (e : QueueEvent χ) (fits : w.watched.Fits e) :
      Reachable (w.event e)

end Chronicled

/-! ## What a step adds -/

namespace Chronicled
variable {χ : Type} {w w' : Chronicled χ}

/-- A step tells of something, and then of what is noted. -/
structure Adds (w w' : Chronicled χ) (told : List (Entry χ)) (new : List (Mark χ)) : Prop where
  chronicle : w'.chronicle = w.chronicle ++ (told ++ new.map .mark)
  log : w'.watched.log = w.watched.log ++ new

theorem adds_telling (w : Chronicled χ) (told : List (Entry χ)) (after : Watched χ)
    {new : List (Mark χ)} (h : after.log = w.watched.log ++ new) :
    Adds w (w.telling told after) told new :=
  ⟨by simp [telling, h], h⟩

theorem adds_put (w : Chronicled χ) (r : Request) :
    Adds w (w.put r) [] (.put r :: (w.watched.queue.put r).2.map
      (Watched.marked (Log.number w.watched.log) none)) :=
  adds_telling w [] _ rfl

theorem adds_take (w : Chronicled χ) (e : EndpointName) :
    Adds w (w.take e) [.took ⟨e, w.watched.queue.taken + 1⟩] [] := by
  have h := adds_telling w [.took ⟨e, w.watched.queue.taken + 1⟩]
    { w.watched with queue := w.watched.queue.takeNumber.2 } (List.append_nil _).symm
  exact ⟨h.chronicle, h.log⟩

theorem adds_deliver (w : Chronicled χ) (c : CloseCall) : Adds w (w.deliver c) [] [] := by
  have h := adds_telling w [] { w.watched with queue := w.watched.queue.deliver c }
    (List.append_nil _).symm
  exact ⟨h.chronicle, h.log⟩

theorem adds_shutdown (w : Chronicled χ) : Adds w w.shutdown [] [] :=
  adds_telling w [] _ (List.append_nil _).symm

theorem adds_event (w : Chronicled χ) (e : QueueEvent χ) :
    Adds w (w.event e) (told w.watched e)
      (Watched.shown (Log.number w.watched.log) w.watched.queue e
        ++ (w.watched.queue.step e).2.map (Watched.marked (Log.number w.watched.log)
          (Watched.via? w.watched.queue e))) :=
  adds_telling w _ _ (List.append_assoc _ _ _)

end Chronicled

/-! ## Places of a chronicle -/

namespace Entry
variable {χ : Type}

def mark? : Entry χ → Option (Mark χ)
  | mark m => some m
  | _ => none

def isTook : Entry χ → Bool
  | took _ => true
  | _ => false

/-- What the log tells. -/
def marks (l : List (Entry χ)) : List (Mark χ) := l.filterMap mark?

/-- How many close calls took a number. -/
def takes (l : List (Entry χ)) : Nat := l.countP isTook

@[simp] theorem marks_append (a b : List (Entry χ)) : marks (a ++ b) = marks a ++ marks b :=
  List.filterMap_append

@[simp] theorem marks_map (ms : List (Mark χ)) : marks (ms.map mark) = ms := by
  simp [marks, List.filterMap_map, Function.comp_def, mark?]

@[simp] theorem takes_append (a b : List (Entry χ)) : takes (a ++ b) = takes a + takes b :=
  List.countP_append

theorem mem_map_mark {m : Mark χ} {ms : List (Mark χ)} : .mark m ∈ ms.map mark ↔ m ∈ ms := by
  simp

theorem mem_marks {l : List (Entry χ)} {m : Mark χ} : m ∈ marks l ↔ .mark m ∈ l := by
  constructor
  · intro h
    obtain ⟨a, ha, he⟩ := List.mem_filterMap.1 h
    cases a with
    | mark m' =>
      cases he
      exact ha
    | _ => cases he
  · exact fun h => List.mem_filterMap.2 ⟨_, h, rfl⟩

end Entry

/-! ## Turns -/

namespace QueuePhase
variable {χ : Type}

/-- The request in flight, with the number that it noted. -/
def flight? : QueuePhase χ → Option (Request × Nat)
  | draining r since | probing r since _ | connecting r since | sending r since _ _
  | awaiting r since _ _ => some (r, since)
  | idle | stopped => none

end QueuePhase

namespace RequestQueue
variable {χ : Type} {q : RequestQueue χ}

/-- All that a turn of a queue can be to requests and close calls: which request goes in flight,
which call is consumed, and what comes of it. -/
inductive Turned (q : RequestQueue χ) :
    Option Request → Option CloseCall → RequestQueue χ × List (QueueAct χ) → Prop
  | began {r : Request} {rs : List Request} (hp : q.phase = .idle) (hr : q.requests = r :: rs) :
      Turned q (some { r with progress := .inFlight }) none
        ({ q with requests := rs, phase := .draining { r with progress := .inFlight } q.taken }, [])
  | spared {c : CloseCall} {cs : List CloseCall} (hc : q.calls = c :: cs)
      (hp : ∀ r since d i, q.phase = .awaiting r since d i → c.endpoint ≠ r.destination) :
      Turned q none (some c) ({ q with calls := cs }.closeCached c.endpoint)
  | struck {r : Request} {since : Nat} {d : Channel χ} {i : Frame.Intake} {c : CloseCall}
      {cs : List CloseCall} (hp : q.phase = .awaiting r since d i) (hc : q.calls = c :: cs)
      (he : c.endpoint = r.destination) (hn : since < c.number) :
      Turned q none (some c) ({ q with calls := cs }.failOver d r closedInFlight)
  | overlooked {r : Request} {since : Nat} {d : Channel χ} {i : Frame.Intake} {c : CloseCall}
      {cs : List CloseCall} (hp : q.phase = .awaiting r since d i) (hc : q.calls = c :: cs)
      (he : c.endpoint = r.destination) (hn : c.number ≤ since) :
      Turned q none (some c) ({ q with calls := cs }, [])
  | other {q' : RequestQueue χ} {acts : List (QueueAct χ)} (hc : q'.calls ⊆ q.calls)
      (ht : q'.taken = q.taken)
      (hf : q'.phase.flight? = none ∨ q'.phase.flight? = q.phase.flight?)
      (hacts : ∀ e, .ended e ∉ acts) : Turned q none none (q', acts)

theorem not_ended_closing (c : Channel χ) (e : Ending) : .ended e ∉ closing c := by
  intro h
  unfold closing at h
  cases hs : c.stream with
  | none => simp [hs] at h
  | some x => simp [hs] at h

theorem not_ended_flatMap_closing (cs : List (EndpointName × Channel χ)) (e : Ending) :
    .ended e ∉ cs.flatMap fun c => closing c.2 := by
  intro h
  obtain ⟨c, -, h⟩ := List.mem_flatMap.1 h
  exact not_ended_closing c.2 e h

theorem turned (q : RequestQueue χ) : Turned q q.begins? q.consumes? q.turn := by
  obtain ⟨phase, requests, calls, sealed, taken, cache⟩ := q
  cases phase with
  | idle =>
    cases requests with
    | cons r rs => exact .began rfl rfl
    | nil =>
      cases sealed with
      | true => exact .other (List.nil_subset _) rfl (.inl rfl) (not_ended_flatMap_closing _)
      | false =>
        cases calls with
        | cons c cs => exact .spared rfl fun r since d i h => by cases h
        | nil => exact .other (List.nil_subset _) rfl (.inr rfl) (by simp)
  | draining r since =>
    cases calls with
    | cons c cs => exact .spared rfl fun r since d i h => by cases h
    | nil =>
      -- the cache is looked up
      simp only [begins?, consumes?, turn, List.head?_nil]
      split
      · exact .other (List.nil_subset _) rfl (.inr rfl) (by simp)
      · exact .other (List.nil_subset _) rfl (.inr rfl) (by simp)
  | awaiting r since d i =>
    cases calls with
    | cons c cs =>
      simp only [begins?, consumes?, turn, List.head?_cons]
      split
      · next he =>
        split
        · next hn => exact .struck rfl rfl he hn
        · next hn => exact .overlooked rfl rfl he (Nat.le_of_not_lt hn)
      · next he =>
        refine .spared rfl fun r' since' d' i' h => ?_
        cases h
        exact he
    | nil => exact .other (List.nil_subset _) rfl (.inr rfl) (by simp)
  | _ => exact .other (List.Subset.refl _) rfl (.inr rfl) (by simp)

/-- A queue that has a request in flight after a turn, and had none, began with it. -/
theorem turn_began (hp : q.phase = .idle) {r : Request} {since : Nat}
    (h : q.turn.1.phase.flight? = some (r, since)) :
    q.begins? = some r ∧ q.consumes? = none ∧ since = q.taken ∧ q.turn.2 = [] := by
  have hturned := q.turned
  generalize q.begins? = begun, q.consumes? = consumed, q.turn = next at h hturned ⊢
  cases hturned with
  | began hp' hr =>
    cases h
    exact ⟨rfl, rfl, rfl, rfl⟩
  | spared hc =>
    have hphase : q.phase.flight? = some (r, since) := h
    rw [hp] at hphase
    cases hphase
  | struck hp' =>
    rw [hp] at hp'
    cases hp'
  | overlooked hp' =>
    rw [hp] at hp'
    cases hp'
  | other hc ht hf =>
    rw [hp] at hf
    rcases hf with hf | hf <;> cases hf.symm.trans h

/-- No request goes in flight with a turn in which a close call is consumed. -/
theorem begins?_of_consumes? {c : CloseCall} (h : q.consumes? = some c) : q.begins? = none := by
  unfold consumes? at h
  unfold begins?
  split at h
  · next hp =>
    split at h
    · next hr =>
      rw [hp]
      cases hq : q.requests with
      | nil => rfl
      | cons r rs => simp [hq] at hr
    · cases h
  · next hp => rw [hp]
  · next hp => rw [hp]
  · cases h

theorem consumes?_of_awaiting {r : Request} {since : Nat} {d : Channel χ} {i : Frame.Intake}
    {c : CloseCall} {cs : List CloseCall} (hp : q.phase = .awaiting r since d i)
    (hc : q.calls = c :: cs) : q.consumes? = some c := by
  simp only [consumes?, hp, hc, List.head?_cons]

/-- What of a queue has to do with close calls. -/
def desk (q : RequestQueue χ) : List CloseCall × Nat := (q.calls, q.taken)

theorem desk_sendOver (q : RequestQueue χ) (r : Request) (since : Nat) (c : Channel χ) :
    (q.sendOver r since c).1.desk = q.desk := by
  unfold sendOver
  split
  · rfl
  · rfl

theorem desk_sent (q : RequestQueue χ) (r : Request) (since : Nat) (c : Channel χ) :
    (q.sent r since c).1.desk = q.desk := by
  unfold sent
  split
  · rfl
  · rfl

theorem desk_received (q : RequestQueue χ) (r : Request) (c : Channel χ)
    (outcome : Except LinkError (Option Bytes)) : (q.received r c outcome).1.desk = q.desk := by
  unfold received
  split
  · split
    · rfl
    · rfl
  · rfl
  · rfl

/-- Close calls are consumed in the queue's own turns alone. -/
theorem desk_step (q : RequestQueue χ) {e : QueueEvent χ} (he : e ≠ .turn) :
    (q.step e).1.desk = q.desk := by
  unfold step
  split
  · exact absurd rfl he
  · exact desk_sendOver q _ _ _
  · rfl
  · exact desk_sendOver q _ _ _
  · rfl
  · split
    · rfl
    · split
      · rfl
      · exact desk_sent q _ _ _
  · split
    · rfl
    · exact desk_received q _ _ _
  · rfl

theorem step_turn (q : RequestQueue χ) : q.step .turn = q.turn := by
  unfold step
  split <;> first | rfl | (next h => cases h)

/-- A request ends in a turn only over a close call. -/
theorem Turned.ended {begun : Option Request} {consumed : Option CloseCall}
    {next : RequestQueue χ × List (QueueAct χ)} (h : q.Turned begun consumed next) {e : Ending}
    (he : .ended e ∈ next.2) : ∃ r since d i c cs, q.phase = .awaiting r since d i
      ∧ q.calls = c :: cs ∧ c.endpoint = r.destination ∧ since < c.number := by
  cases h with
  | began => cases he
  | spared => exact absurd he (not_ended_flatMap_closing _ e)
  | struck hp hc hd hn => exact ⟨_, _, _, _, _, _, hp, hc, hd, hn⟩
  | overlooked => cases he
  | other _ _ _ hacts => exact absurd he (hacts e)

theorem Turned.desk {begun : Option Request} {consumed : Option CloseCall}
    {next : RequestQueue χ × List (QueueAct χ)} (h : q.Turned begun consumed next) :
    next.1.calls ⊆ q.calls ∧ next.1.taken = q.taken := by
  cases h with
  | began => exact ⟨List.Subset.refl _, rfl⟩
  | spared hc => exact ⟨hc ▸ List.subset_cons_self _ _, rfl⟩
  | struck _ hc => exact ⟨hc ▸ List.subset_cons_self _ _, rfl⟩
  | overlooked _ hc => exact ⟨hc ▸ List.subset_cons_self _ _, rfl⟩
  | other hc ht => exact ⟨hc, ht⟩

/-- No event brings a close call or a number. -/
theorem calls_step (q : RequestQueue χ) (e : QueueEvent χ) :
    (q.step e).1.calls ⊆ q.calls ∧ (q.step e).1.taken = q.taken := by
  by_cases he : e = .turn
  · rw [he, step_turn]
    exact q.turned.desk
  · obtain ⟨hcalls, htaken⟩ := Prod.mk.inj (desk_step q he)
    exact ⟨fun c hc => hcalls ▸ hc, htaken⟩

end RequestQueue

/-! ## What is told -/

namespace Chronicled
variable {χ : Type} {w : Watched χ}

theorem mem_told {e : QueueEvent χ} {a : Entry χ} (h : a ∈ told w e) :
    (∃ r, w.queue.begins? = some r ∧ a = .began (Log.number w.log) r w.queue.taken)
      ∨ (e = .turn ∧ ∃ c, w.queue.consumes? = some c ∧ a = .consumed c) ∨ a = .came e := by
  cases e with
  | turn =>
    rcases List.mem_append.1 h with h | h
    · obtain ⟨r, hr, rfl⟩ := List.mem_map.1 h
      exact .inl ⟨r, by simpa using hr, rfl⟩
    · obtain ⟨c, hc, rfl⟩ := List.mem_map.1 h
      exact .inr (.inl ⟨rfl, c, by simpa using hc, rfl⟩)
  | _ => exact .inr (.inr (List.mem_singleton.1 h))

theorem marks_told (w : Watched χ) (e : QueueEvent χ) : Entry.marks (told w e) = [] := by
  refine List.filterMap_eq_nil_iff.2 fun a ha => ?_
  rcases mem_told ha with ⟨r, -, rfl⟩ | ⟨-, c, -, rfl⟩ | rfl <;> rfl

theorem not_mark_told (w : Watched χ) (e : QueueEvent χ) (m : Mark χ) : .mark m ∉ told w e := by
  intro h
  rcases mem_told h with ⟨r, -, he⟩ | ⟨-, c, -, he⟩ | he <;> cases he

theorem not_took_told (w : Watched χ) (e : QueueEvent χ) (c : CloseCall) : .took c ∉ told w e := by
  intro h
  rcases mem_told h with ⟨r, -, he⟩ | ⟨-, c, -, he⟩ | he <;> cases he

/-- A turn in which a close call is consumed tells of that alone. -/
theorem told_of_consumes? {c : CloseCall} (h : w.queue.consumes? = some c) :
    told w .turn = [.consumed c] := by
  simp [told, RequestQueue.begins?_of_consumes? h, h]

/-- Something is shown of every place of every chronicle by showing it of the places that are new
with a step. -/
theorem throughout_reachable {R : List (Entry χ) → Entry χ → List (Entry χ) → Prop}
    (stays : ∀ front a back new, R front a back → R front a (back ++ new))
    (took : ∀ front c, R front (.took c) [])
    (put : ∀ (w : Chronicled χ) r front a back, w.Reachable →
      (.put r :: (w.watched.queue.put r).2.map (Watched.marked (Log.number w.watched.log) none)).map
        Entry.mark = front ++ a :: back → R (w.chronicle ++ front) a back)
    (event : ∀ (w : Chronicled χ) e new front a back, w.Reachable → w.watched.Fits e →
      Adds w (w.event e) (told w.watched e) new →
      told w.watched e ++ new.map .mark = front ++ a :: back → R (w.chronicle ++ front) a back)
    {w : Chronicled χ} (h : w.Reachable) : Throughout R w.chronicle := by
  induction h with
  | start => exact .nil _
  | @put w before r ih =>
    rw [(adds_put w r).chronicle, List.nil_append]
    exact ih.append (fun front a back => stays front a back _) fun front a back =>
      put w r front a back before
  | @take w _ e ih =>
    rw [(adds_take w e).chronicle]
    refine ih.append (fun front a back => stays front a back _) fun front a back he => ?_
    rcases front with - | ⟨b, front⟩
    · cases he
      exact took _ _
    · simp at he
  | deliver _ _ ih =>
    rw [(adds_deliver _ _).chronicle]
    exact ih.append (fun front a back => stays front a back _) fun front a back he => by simp at he
  | @shutdown w _ ih =>
    rw [(adds_shutdown w).chronicle]
    exact ih.append (fun front a back => stays front a back _) fun front a back he => by simp at he
  | @event w before e fits ih =>
    rw [(adds_event w e).chronicle]
    exact ih.append (fun front a back => stays front a back _) fun front a back =>
      event w e _ front a back before fits (adds_event w e)

end Chronicled
end CommandLink
