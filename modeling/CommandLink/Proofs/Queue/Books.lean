import CommandLink.Proofs.Queue.Account
/-!
# The books of a queue

Every stream that a queue has connected to is cached, in use, or given back. The cached ones stand
between two frames in both directions, and so does the one in use but for the request in flight.

Results:
* `books_change`: every change keeps the books.
* `Books.cached`, `Books.known`: what they say of a cached stream, and of every other.
-/
namespace CommandLink

namespace QueuePhase
variable {χ : Type}

/-- The channel of the request in flight. -/
def channel? : QueuePhase χ → Option (Channel χ)
  | probing _ _ c | sending _ _ c _ | awaiting _ _ c _ => some c
  | idle | draining _ _ | connecting _ _ | stopped => none

/-- The request in flight once the cache was looked up for it. -/
def placed? : QueuePhase χ → Option Request
  | probing r _ _ | connecting r _ | sending r _ _ _ | awaiting r _ _ _ => some r
  | idle | draining _ _ | stopped => none

/-- The number of the request in flight, once it may have been written in part. -/
def begun? (k : Nat) : QueuePhase χ → Option Nat
  | sending _ _ _ _ | awaiting _ _ _ _ => some k
  | idle | draining _ _ | probing _ _ _ | connecting _ _ | stopped => none

theorem begun?_eq {k j : Nat} {phase : QueuePhase χ} (h : phase.begun? k = some j) : j = k := by
  cases phase <;> cases h <;> rfl

/-- What was read of the response. -/
def got : QueuePhase χ → Bytes
  | awaiting _ _ _ i => i.taken
  | idle | draining _ _ | probing _ _ _ | connecting _ _ | sending _ _ _ _ | stopped => []

end QueuePhase

namespace Log
variable {χ : Type} [DecidableEq χ] {x : χ} {log new : List (Mark χ)}

/-- A stream that is in good order, and its account. -/
structure Kept (log : List (Mark χ)) (x : χ) (last : Option Nat) (got : Bytes) : Prop where
  account : Account log x last got
  connected : ∃ k e, .connected k e x ∈ log
  unreleased : ∀ r, .released x r ∉ log
  clean : ∀ m ∈ log, ¬ m.Spoils x

/-- A stream that was given back, and its account. -/
structure Gone (log : List (Mark χ)) (x : χ) : Prop where
  shutDown : .released x .shutDown ∈ log
  released : .released x .stream ∈ log
  account : ∃ last got, Account log x last got ∧ ∀ k, last = some k → k < number log

theorem Kept.add {last : Option Nat} {got : Bytes} (h : Kept log x last got)
    (hnew : ∀ m ∈ new, m.about? ≠ some x) (hlast : ∀ k, last = some k → writtenBy k new = []) :
    Kept (log ++ new) x last got := by
  obtain ⟨haccount, ⟨k, e, hc⟩, hun, hclean⟩ := h
  refine ⟨haccount.add (still_of_about hnew) hlast, ⟨k, e, List.mem_append_left _ hc⟩,
    fun r hm => ?_, fun m hm hs => ?_⟩
  · rcases List.mem_append.1 hm with hm | hm
    · exact hun r hm
    · exact hnew _ hm rfl
  · rcases List.mem_append.1 hm with hm | hm
    · exact hclean m hm hs
    · exact hnew m hm (Mark.spoils_about hs)

/-- A stream in good order is used, and stays so. -/
theorem Kept.use {last last' : Option Nat} {got got' : Bytes} {m : Mark χ}
    (h : Kept log x last got) (ha : Account (log ++ [m]) x last' got') (hs : ¬ m.Spoils x)
    (hr : ∀ r, m ≠ .released x r) : Kept (log ++ [m]) x last' got' := by
  obtain ⟨-, ⟨k, e, hc⟩, hun, hclean⟩ := h
  refine ⟨ha, ⟨k, e, List.mem_append_left _ hc⟩, fun r hm => ?_, fun m' hm hs' => ?_⟩
  · rcases List.mem_append.1 hm with hm | hm
    · exact hun r hm
    · exact hr r (List.mem_singleton.1 hm).symm
  · rcases List.mem_append.1 hm with hm | hm
    · exact hclean m' hm hs'
    · rw [List.mem_singleton.1 hm] at hs'
      exact hs hs'

theorem Kept.wrote {k : Nat} {got : Bytes} (h : Kept log x (some k) got) (bs : Bytes)
    {a : Frame.Acceptance} (ha : a.goesOn) : Kept (log ++ [.wrote k x bs a]) x (some k) got := by
  refine h.use (h.account.wrote bs a) (fun hs => ?_) fun r he => nomatch he
  have hno := hs.2
  rw [ha] at hno
  cases hno

theorem Kept.read {last : Option Nat} {k : Nat} {got : Bytes} (h : Kept log x last got)
    {p : Except IoError Frame.ReadStatus} (hp : Frame.goesOn p) :
    Kept (log ++ [.read k x p]) x last (got ++ Frame.bytesRead p) := by
  refine h.use (h.account.read p) (fun hs => ?_) fun r he => nomatch he
  have hno := hs.2
  rw [hp] at hno
  cases hno

theorem Kept.completed {k : Nat} {r : Request} (response : Option Response) (ps : List Bytes)
    (h : Kept log x (some k) (Frame.stream ps))
    (hw : writtenBy k log = Frame.ofPayload r.encode) (hl : r.encode.length ≤ Frame.maxSize)
    (hps : Frame.Fit ps) (hd : ps.map Response.decode = response.toList.map Except.ok) :
    Kept (log ++ [.ended k (some x) (.completed r response)]) x none [] :=
  h.use (h.account.completed hw hl hps hd) (fun hs => hs.2 rfl) fun _ he => nomatch he

/-- A request begins to be written over a stream in good order. -/
theorem Kept.begin {got : Bytes} (h : Kept log x none got) {k : Nat} (hk : writtenBy k log = [])
    (hlt : ∀ e ∈ exchanges x log, e.1 < k) : Kept log x (some k) got :=
  ⟨h.account.begin hk hlt, h.connected, h.unreleased, h.clean⟩

theorem Gone.add (h : Gone log x) (hnew : Still x new)
    (hlast : ∀ k, k < number log → writtenBy k new = []) : Gone (log ++ new) x := by
  obtain ⟨hs, hr, last, got, haccount, hlt⟩ := h
  refine ⟨List.mem_append_left _ hs, List.mem_append_left _ hr, last, got,
    haccount.add hnew fun k hk => hlast k (hlt k hk), fun k hk => ?_⟩
  rw [number_append]
  exact Nat.lt_of_lt_of_le (hlt k hk) (Nat.le_add_right _ _)

omit [DecidableEq χ] in
/-- Closing a channel gives its stream back. -/
theorem mem_closing_self {c : Channel χ} (hx : c.stream = some x) :
    .released x .shutDown ∈ closing c ∧ .released x .stream ∈ closing c := by
  simp only [closing, hx, Channel.close, Channel.isOpen, Option.isSome_some, if_true]
  exact ⟨List.mem_map_of_mem (List.mem_append_right _ (by simp)),
    List.mem_map_of_mem (List.mem_append_right _ (by simp))⟩

/-- All of these marks are about the stream. -/
def About (x : χ) (new : List (Mark χ)) : Prop := ∀ m ∈ new, m.about? = some x

omit [DecidableEq χ] in
theorem about_singleton {m : Mark χ} (hm : m.about? = some x) : About x [m] := fun m' hm' => by
  rw [List.mem_singleton.1 hm', hm]

omit [DecidableEq χ] in
theorem About.append {a b : List (Mark χ)} (ha : About x a) (hb : About x b) : About x (a ++ b) :=
  fun m hm => (List.mem_append.1 hm).elim (ha m) (hb m)

omit [DecidableEq χ] in
theorem about_closing {c : Channel χ} (hx : c.stream = some x) : About x (closing c) := by
  intro m hm
  obtain ⟨y, r, hy, rfl⟩ := mem_closing hm
  rw [hx] at hy
  cases hy
  rfl

/-- Closing a channel settles the account of its stream as it is. -/
theorem gone_closing {c : Channel χ} (hx : c.stream = some x) {last : Option Nat} {got : Bytes}
    (h : Account log x last got) {back : List (Mark χ)} (hback : Still x back)
    (hlast : ∀ k, last = some k →
      writtenBy k back = [] ∧ k < number (log ++ (closing c ++ back))) :
    Gone (log ++ (closing c ++ back)) x := by
  obtain ⟨hs, hr⟩ := mem_closing_self hx
  have hclosed := h.add (still_releases x (releases_closing c)) fun k _ =>
    writtenBy_releases k (releases_closing c)
  have hall := hclosed.add hback fun k hk => (hlast k hk).1
  rw [List.append_assoc] at hall
  exact ⟨List.mem_append_right _ (List.mem_append_left _ hs),
    List.mem_append_right _ (List.mem_append_left _ hr), last, got, hall, fun k hk => (hlast k hk).2⟩

end Log

namespace Sight
variable {χ : Type} [DecidableEq χ] {s s' : Sight χ}

open Log

/-- The account of the stream in use, by what it is used for. -/
def Current (log : List (Mark χ)) (k : Nat) (phase : QueuePhase χ) : Prop :=
  ∀ c, phase.channel? = some c →
    ∃ x, c.stream = some x ∧ Kept log x (phase.begun? k) phase.got

/-- No channel is in use. -/
theorem current_of_none {log : List (Mark χ)} {k : Nat} {phase : QueuePhase χ}
    (h : phase.channel? = none) : Current log k phase := fun c hc => by
  rw [h] at hc
  cases hc

/-- Some cached channel, or the one in use, has the stream. -/
def Held (s : Sight χ) (x : χ) : Prop :=
  (∃ p ∈ s.cache, p.2.stream = some x) ∨ ∃ c, s.phase.channel? = some c ∧ c.stream = some x

/-- The books of a queue: which streams it holds, and in what order they are. -/
structure Books (s : Sight χ) : Prop where
  /-- No endpoint has two cached channels. -/
  keys : ∀ p ∈ s.cache, ∀ q ∈ s.cache, p.1 = q.1 → p = q
  /-- The endpoint of the request in flight has none. -/
  absent : ∀ r, s.phase.placed? = some r → ∀ p ∈ s.cache, p.1 ≠ r.destination
  /-- No two endpoints share a stream. -/
  apart : ∀ p ∈ s.cache, ∀ q ∈ s.cache, p.2.stream = q.2.stream → p.1 = q.1
  /-- The stream in use is not cached. -/
  aside : ∀ c, s.phase.channel? = some c → ∀ p ∈ s.cache, p.2.stream ≠ c.stream
  cached : ∀ p ∈ s.cache, ∃ x, p.2.stream = some x ∧ Kept s.log x none []
  current : Current s.log s.number s.phase
  known : ∀ k e x, .connected k e x ∈ s.log → s.Held x ∨ Gone s.log x
  introduced : ∀ m ∈ s.log, ∀ x, m.about? = some x → ∃ k e, .connected k e x ∈ s.log

omit [DecidableEq χ] in
/-- Nothing is written for a request that has ended. -/
theorem writtenBy_new (h : Change s s') {new : List (Mark χ)} (hlog : s'.log = s.log ++ new)
    {k : Nat} (hk : k < s.number) : writtenBy k new = [] := by
  have hpast := writtenBy_past h hk
  rw [hlog, writtenBy_append] at hpast
  exact List.append_right_eq_self.1 hpast

/-- Marks about no stream change no books. -/
theorem Books.plain (hs : s.Books) (h : Change s s') {new : List (Mark χ)}
    (hlog : s'.log = s.log ++ new) (hnew : ∀ m ∈ new, m.about? = none)
    (hcache : s'.cache = s.cache) (hchannel : s'.phase.channel? = s.phase.channel?)
    (habsent : ∀ r, s'.phase.placed? = some r → ∀ p ∈ s.cache, p.1 ≠ r.destination)
    (hcurrent : Current s'.log s'.number s'.phase) : s'.Books := by
  have hnot : ∀ x, ∀ m ∈ new, m.about? ≠ some x := fun x m hm he => by
    rw [hnew m hm] at he
    cases he
  refine ⟨by rw [hcache]; exact hs.keys, by rw [hcache]; exact habsent,
    by rw [hcache]; exact hs.apart, by rw [hcache, hchannel]; exact hs.aside, fun p hp => ?_,
    hcurrent, fun k e x hm => ?_, fun m hm x hx => ?_⟩
  · rw [hcache] at hp
    obtain ⟨x, hx, hkept⟩ := hs.cached p hp
    rw [hlog]
    exact ⟨x, hx, hkept.add (hnot x) fun k hk => by cases hk⟩
  · rw [hlog] at hm
    rcases List.mem_append.1 hm with hm | hm
    · rcases hs.known k e x hm with hheld | hgone
      · left
        rwa [Held, hcache, hchannel]
      · right
        rw [hlog]
        exact hgone.add (still_of_about (hnot x)) fun k hk => writtenBy_new h hlog hk
    · exact absurd rfl (hnot x _ hm)
  · rw [hlog] at hm ⊢
    rcases List.mem_append.1 hm with hm | hm
    · obtain ⟨k, e, hc⟩ := hs.introduced m hm x hx
      exact ⟨k, e, List.mem_append_left _ hc⟩
    · exact absurd hx (hnot x m hm)

/-- The stream over which the request in flight goes: no cached channel has it, and the endpoint has
no cached channel. -/
structure Concerns (s : Sight χ) (r : Request) (c : Channel χ) (x : χ) : Prop where
  stream : c.stream = some x
  cached : ∀ p ∈ s.cache, p.2.stream ≠ some x
  inUse : ∀ d, s.phase.channel? = some d → d.stream = some x
  absent : ∀ p ∈ s.cache, p.1 ≠ r.destination

/-- The books of all streams but one, when something happens to that one. -/
structure Rest (s : Sight χ) (x : χ) (log : List (Mark χ)) : Prop where
  cached : ∀ p ∈ s.cache, ∃ y, p.2.stream = some y ∧ y ≠ x ∧ Kept log y none []
  known : ∀ k e y, .connected k e y ∈ log →
    y = x ∨ (∃ p ∈ s.cache, p.2.stream = some y) ∨ Gone log y
  introduced : ∀ m ∈ log, ∀ y, m.about? = some y → ∃ k e, .connected k e y ∈ log

theorem Books.rest (hs : s.Books) (h : Change s s') {r : Request} {c : Channel χ} {x : χ}
    {new : List (Mark χ)} (hconcerns : Concerns s r c x) (hlog : s'.log = s.log ++ new)
    (hnew : About x new) (hconnected : ∃ k e, .connected k e x ∈ s'.log) : Rest s x s'.log := by
  have habout : ∀ m ∈ new, ∀ y, m.about? = some y → y = x := fun m hm y hy =>
    Option.some.inj (hy.symm.trans (hnew m hm))
  refine ⟨fun p hp => ?_, fun k e y hm => ?_, fun m hm y hy => ?_⟩
  · obtain ⟨y, hy, hkept⟩ := hs.cached p hp
    have hne : y ≠ x := fun he => hconcerns.cached p hp (he ▸ hy)
    rw [hlog]
    exact ⟨y, hy, hne, hkept.add (fun m hm he => hne (habout m hm y he)) fun k hk => by cases hk⟩
  · by_cases hyx : y = x
    · exact .inl hyx
    rw [hlog] at hm
    rcases List.mem_append.1 hm with hm | hm
    · rcases hs.known k e y hm with (hheld | ⟨c, hc, hy⟩) | hgone
      · exact .inr (.inl hheld)
      · have hx := hconcerns.inUse c hc
        rw [hy] at hx
        cases hx
        exact absurd rfl hyx
      · rw [hlog]
        exact .inr (.inr (hgone.add (still_of_about fun m hm he => hyx (habout m hm y he))
          fun k hk => writtenBy_new h hlog hk))
    · exact .inl (habout _ hm y rfl)
  · rw [hlog] at hm
    rcases List.mem_append.1 hm with hm | hm
    · obtain ⟨k, e, hc⟩ := hs.introduced m hm y hy
      exact ⟨k, e, by rw [hlog]; exact List.mem_append_left _ hc⟩
    · rw [habout m hm y hy]
      exact hconnected

/-- The stream is the one in use. -/
theorem Rest.inUse {r : Request} {c : Channel χ} {x : χ} (hr : Rest s x s'.log) (hs : s.Books)
    (hconcerns : Concerns s r c x) (hcache : s'.cache = s.cache)
    (hc : s'.phase.channel? = some c) (hplaced : s'.phase.placed? = some r)
    (hkept : Kept s'.log x (s'.phase.begun? s'.number) s'.phase.got) : s'.Books := by
  have hx := hconcerns.stream
  refine ⟨by rw [hcache]; exact hs.keys, fun r' hr' => ?_, by rw [hcache]; exact hs.apart,
    fun d hd p hp => ?_, fun p hp => ?_, fun d hd => ?_, fun k e y hm => ?_, hr.introduced⟩
  · rw [hplaced] at hr'
    cases hr'
    rw [hcache]
    exact hconcerns.absent
  · rw [hc] at hd
    cases hd
    rw [hcache] at hp
    obtain ⟨y, hy, hne, -⟩ := hr.cached p hp
    rw [hy, hx]
    exact fun he => hne (Option.some.inj he)
  · rw [hcache] at hp
    obtain ⟨y, hy, -, hkept⟩ := hr.cached p hp
    exact ⟨y, hy, hkept⟩
  · rw [hc] at hd
    cases hd
    exact ⟨x, hx, hkept⟩
  · rcases hr.known k e y hm with rfl | hcached | hgone
    · exact .inl (.inr ⟨c, hc, hx⟩)
    · exact .inl (.inl (by rwa [hcache]))
    · exact .inr hgone

/-- The channel of the stream is cached. -/
theorem Rest.stored {r : Request} {c : Channel χ} {x : χ} (hr : Rest s x s'.log) (hs : s.Books)
    (hconcerns : Concerns s r c x) (hcache : s'.cache = (r.destination, c) :: s.cache)
    (hphase : s'.phase = .idle) (hkept : Kept s'.log x none []) : s'.Books := by
  have hx := hconcerns.stream
  have he := hconcerns.absent
  have hne : ∀ p ∈ s.cache, p.2.stream ≠ c.stream := fun p hp heq => by
    obtain ⟨y, hy, hyx, -⟩ := hr.cached p hp
    rw [hy, hx] at heq
    exact hyx (Option.some.inj heq)
  have hplaced : s'.phase.placed? = none := by rw [hphase]; rfl
  have hchannel : s'.phase.channel? = none := by rw [hphase]; rfl
  refine ⟨?_, fun r h => (by rw [hplaced] at h; cases h), ?_,
    fun d h => (by rw [hchannel] at h; cases h), ?_, current_of_none hchannel,
    fun k e' y hm => ?_, hr.introduced⟩
  · rw [hcache]
    intro p hp q hq hpq
    rcases List.mem_cons.1 hp with rfl | hp <;> rcases List.mem_cons.1 hq with rfl | hq
    · rfl
    · exact absurd hpq.symm (he q hq)
    · exact absurd hpq (he p hp)
    · exact hs.keys p hp q hq hpq
  · rw [hcache]
    intro p hp q hq hpq
    rcases List.mem_cons.1 hp with rfl | hp <;> rcases List.mem_cons.1 hq with rfl | hq
    · rfl
    · exact absurd hpq.symm (hne q hq)
    · exact absurd hpq (hne p hp)
    · exact hs.apart p hp q hq hpq
  · rw [hcache]
    intro p hp
    rcases List.mem_cons.1 hp with rfl | hp
    · exact ⟨x, hx, hkept⟩
    · obtain ⟨y, hy, -, hy'⟩ := hr.cached p hp
      exact ⟨y, hy, hy'⟩
  · rcases hr.known k e' y hm with rfl | ⟨p, hp, hy⟩ | hgone
    · exact .inl (.inl ⟨(r.destination, c), by rw [hcache]; exact List.mem_cons_self, hx⟩)
    · exact .inl (.inl ⟨p, by rw [hcache]; exact List.mem_cons_of_mem _ hp, hy⟩)
    · exact .inr hgone

/-- The stream was given back. -/
theorem Rest.gone {r : Request} {c : Channel χ} {x : χ} (hr : Rest s x s'.log) (hs : s.Books)
    (hconcerns : Concerns s r c x) (hcache : s'.cache = s.cache)
    (hc : s'.phase.channel? = none) (hplaced : ∀ r', s'.phase.placed? = some r' → r' = r)
    (hx : Gone s'.log x) : s'.Books := by
  refine ⟨by rw [hcache]; exact hs.keys, fun r' hr' => ?_, by rw [hcache]; exact hs.apart,
    fun d hd => ?_, fun p hp => ?_, current_of_none hc, fun k e y hm => ?_, hr.introduced⟩
  · rw [hcache, hplaced r' hr']
    exact hconcerns.absent
  · rw [hc] at hd
    cases hd
  · rw [hcache] at hp
    obtain ⟨y, hy, -, hkept⟩ := hr.cached p hp
    exact ⟨y, hy, hkept⟩
  · rcases hr.known k e y hm with rfl | hcached | hgone
    · exact .inr hx
    · exact .inl (.inl (by rwa [hcache]))
    · exact .inr hgone

theorem Current.add {log new : List (Mark χ)} {k : Nat} {phase : QueuePhase χ}
    (h : Current log k phase)
    (hnew : ∀ c x, phase.channel? = some c → c.stream = some x → ∀ m ∈ new, m.about? ≠ some x)
    (hw : writtenBy k new = []) : Current (log ++ new) k phase := by
  intro c hc
  obtain ⟨x, hx, hkept⟩ := h c hc
  refine ⟨x, hx, hkept.add (hnew c x hc hx) fun j hj => ?_⟩
  rwa [QueuePhase.begun?_eq hj]

/-- Cached channels of some endpoints are closed. -/
theorem Books.drop (hs : s.Books) (keep : EndpointName → Bool)
    (hcache : s'.cache = s.cache.filter fun c => keep c.1)
    (hlog : s'.log = s.log ++ (s.cache.filter fun c => ! keep c.1).flatMap fun c => closing c.2)
    (hchannel : s'.phase.channel? = s.phase.channel?)
    (hplaced : ∀ r, s'.phase.placed? = some r → s.phase.placed? = some r)
    (hcurrent : ∀ new, Current (s.log ++ new) s.number s.phase →
      Current (s.log ++ new) s.number s'.phase) : s'.Books := by
  have hsub : ∀ p ∈ s'.cache, p ∈ s.cache ∧ keep p.1 = true := fun p hp => by
    rw [hcache] at hp
    exact List.mem_filter.1 hp
  have habout : ∀ m ∈ (s.cache.filter fun c => ! keep c.1).flatMap fun c => closing c.2,
      ∃ q ∈ s.cache, keep q.1 = false ∧ m.about? = q.2.stream := fun m hm => by
    obtain ⟨q, hq, hm⟩ := List.mem_flatMap.1 hm
    obtain ⟨hq, hkeep⟩ := List.mem_filter.1 hq
    obtain ⟨y, hy, -⟩ := hs.cached q hq
    exact ⟨q, hq, by simpa using hkeep, by rw [hy, about_closing hy m hm]⟩
  have hstill := releases_flatMap (s.cache.filter fun c => ! keep c.1)
  have hnumber := number_during_log hlog (during_releases 0 hstill)
  refine ⟨fun p hp q hq => hs.keys p (hsub p hp).1 q (hsub q hq).1,
    fun r hr p hp => hs.absent r (hplaced r hr) p (hsub p hp).1,
    fun p hp q hq => hs.apart p (hsub p hp).1 q (hsub q hq).1,
    fun c hc p hp => hs.aside c (hchannel ▸ hc) p (hsub p hp).1, fun p hp => ?_, ?_,
    fun k e x hm => ?_, fun m hm x hx => ?_⟩
  · obtain ⟨hmem, hkeep⟩ := hsub p hp
    obtain ⟨x, hx, hkept⟩ := hs.cached p hmem
    rw [hlog]
    refine ⟨x, hx, hkept.add (fun m hm he => ?_) fun k hk => by cases hk⟩
    obtain ⟨q, hq, hdrop, hm⟩ := habout m hm
    have := hs.apart p hmem q hq (by rw [hx, ← he, hm])
    rw [this, hdrop] at hkeep
    cases hkeep
  · rw [hlog, hnumber]
    refine hcurrent _ (hs.current.add (fun c x hc hx m hm he => ?_) (writtenBy_releases _ hstill))
    obtain ⟨q, hq, -, hm⟩ := habout m hm
    exact hs.aside c hc q hq (by rw [hx, ← he, hm])
  · rw [hlog] at hm
    rcases List.mem_append.1 hm with hm | hm
    · rcases hs.known k e x hm with (⟨p, hp, hx⟩ | ⟨c, hc, hx⟩) | hgone
      · cases hkeep : keep p.1 with
        | true =>
          exact .inl (.inl ⟨p, by rw [hcache]; exact List.mem_filter.2 ⟨hp, hkeep⟩, hx⟩)
        | false =>
          -- the channel is closed now
          right
          have hdrop : p ∈ s.cache.filter fun c => ! keep c.1 :=
            List.mem_filter.2 ⟨hp, by simp [hkeep]⟩
          obtain ⟨hshut, hstream⟩ := mem_closing_self hx
          obtain ⟨y, hy, hkept⟩ := hs.cached p hp
          rw [hx] at hy
          cases hy
          rw [hlog]
          exact ⟨List.mem_append_right _ (List.mem_flatMap.2 ⟨p, hdrop, hshut⟩),
            List.mem_append_right _ (List.mem_flatMap.2 ⟨p, hdrop, hstream⟩), none, [],
            hkept.account.add (still_releases _ hstill) (fun k _ => writtenBy_releases k hstill),
            fun k hk => nomatch hk⟩
      · exact .inl (.inr ⟨c, by rw [hchannel]; exact hc, hx⟩)
      · rw [hlog]
        exact .inr (hgone.add (still_releases x hstill) fun k _ => writtenBy_releases k hstill)
    · obtain ⟨y, r, he⟩ := hstill _ hm
      cases he
  · rw [hlog] at hm ⊢
    rcases List.mem_append.1 hm with hm | hm
    · obtain ⟨k, e, hc⟩ := hs.introduced m hm x hx
      exact ⟨k, e, List.mem_append_left _ hc⟩
    · obtain ⟨q, hq, -, hm⟩ := habout m hm
      obtain ⟨y, hy, hkept⟩ := hs.cached q hq
      rw [hx, hy] at hm
      cases hm
      obtain ⟨k, e, hc⟩ := hkept.connected
      exact ⟨k, e, List.mem_append_left _ hc⟩

/-- The channel in use, with its account. -/
theorem Books.inUse (hs : s.Books) {phase : QueuePhase χ} (hp : s.phase = phase) {r : Request}
    {c : Channel χ} {x : χ} (hc : phase.channel? = some c) (hr : phase.placed? = some r)
    (hx : c.stream = some x) :
    Concerns s r c x ∧ Kept s.log x (phase.begun? s.number) phase.got := by
  subst hp
  obtain ⟨y, hy, hkept⟩ := hs.current c hc
  rw [hx] at hy
  cases hy
  refine ⟨⟨hx, fun p hp he => hs.aside c hc p hp (he.trans hx.symm), fun d hd => ?_,
    hs.absent r hr⟩, hkept⟩
  rw [hc] at hd
  cases hd
  exact hx

/-- A new stream is none that anything is noted of. -/
theorem Books.fresh (hs : s.Books) {x : χ} (fresh : ∀ k e, .connected k e x ∉ s.log) :
    (∀ m ∈ s.log, m.about? ≠ some x) ∧ ∀ p ∈ s.cache, p.2.stream ≠ some x := by
  have habout : ∀ m ∈ s.log, m.about? ≠ some x := fun m hm he => by
    obtain ⟨k, e, hc⟩ := hs.introduced m hm x he
    exact fresh k e hc
  refine ⟨habout, fun p hp he => ?_⟩
  obtain ⟨y, hy, hkept⟩ := hs.cached p hp
  rw [he] at hy
  cases hy
  obtain ⟨k, e, hc⟩ := hkept.connected
  exact fresh k e hc

theorem account_of_still {x : χ} {log : List (Mark χ)} (h : Still x log) :
    Account log x none [] := by
  refine ⟨?_, ⟨[], fun p hp => absurd hp (by simp), ?_, ?_⟩, ?_, ?_⟩
  · rw [h.writtenTo, h.exchanges]
    rfl
  · rw [h.exchanges]
    rfl
  · rw [h.consumedFrom]
    rfl
  · rw [h.exchanges]
    exact fun e he => absurd he (by simp)
  · rw [h.exchanges]
    exact .nil

/-- A channel that is there for a request stands at the boundary of a frame. -/
theorem Reached.kept {r : Request} {since : Nat} {c : Channel χ} {x : χ} {m : Mark χ}
    (h : Reached s r since c x m) (hs : s.Books) :
    Concerns s r c x ∧ m.about? = some x ∧ Kept (s.log ++ [m]) x none [] := by
  cases h with
  | again hp hx =>
    obtain ⟨hconcerns, hkept⟩ := hs.inUse hp rfl rfl hx
    exact ⟨hconcerns, rfl,
      hkept.use (hkept.account.probed (.ok .empty)) (fun h => h.2 rfl) fun r h => by cases h⟩
  | anew hp hx fresh =>
    obtain ⟨habout, hcached⟩ := hs.fresh fresh
    have hchannel : s.phase.channel? = none := congrArg QueuePhase.channel? hp
    refine ⟨⟨hx, hcached, fun d hd => ?_, hs.absent r (congrArg QueuePhase.placed? hp)⟩, rfl, ?_⟩
    · rw [hchannel] at hd
      cases hd
    · refine ⟨(account_of_still (still_of_about habout)).add ⟨rfl, rfl, rfl⟩ (fun k hk => nomatch hk),
        ⟨_, _, List.mem_append_right _ (List.mem_singleton_self _)⟩, fun r' hm => ?_,
        fun m hm hspoils => ?_⟩
      · rcases List.mem_append.1 hm with hm | hm
        · exact habout _ hm rfl
        · cases List.mem_singleton.1 hm
      · rcases List.mem_append.1 hm with hm | hm
        · exact habout m hm (Mark.spoils_about hspoils)
        · rw [List.mem_singleton.1 hm] at hspoils
          exact hspoils

/-- Requests that were completed over a stream have ended. -/
theorem exchange_lt {log : List (Mark χ)} (hn : Numbered log) {x : χ} {e : Nat × Ending}
    (he : e ∈ exchanges x log) : e.1 < Log.number log ∧ .ended e.1 (some x) e.2 ∈ log
      ∧ e.2.request.progress = .completed := by
  obtain ⟨m, hm, he⟩ := List.mem_filterMap.1 he
  cases m with
  | ended k y e' =>
    cases y with
    | none => cases he
    | some y =>
      simp only [Mark.exchange?] at he
      split at he
      · next hy =>
        cases he
        obtain ⟨rfl, hprogress⟩ := hy
        exact ⟨hn.ended_lt hm, hm, hprogress⟩
      · cases he
  | _ => cases he

/-- What goes wrong is about the stream in use and leaves it with an account. -/
theorem Mishap.account {r : Request} {c : Channel χ} {x : χ} {marks : List (Mark χ)}
    {response : Response} (h : Mishap s r c x marks response) (hs : s.Books) :
    Concerns s r c x ∧ About x marks ∧ (∃ k e, .connected k e x ∈ s.log ++ marks)
      ∧ ∃ last got, Account (s.log ++ marks) x last got ∧ ∀ k, last = some k → k = s.number := by
  have hold : ∀ {last got}, Kept s.log x last got → ∃ k e, .connected k e x ∈ s.log ++ marks :=
    fun hkept => by
      obtain ⟨k, e, hc⟩ := hkept.connected
      exact ⟨k, e, List.mem_append_left _ hc⟩
  cases h with
  | tooLarge hr =>
    obtain ⟨hconcerns, habout, hkept⟩ := hr.kept hs
    exact ⟨hconcerns, about_singleton habout, hkept.connected, _, _, hkept.account,
      fun k hk => nomatch hk⟩
  | unsent hp hx =>
    obtain ⟨hconcerns, hkept⟩ := hs.inUse hp rfl rfl hx
    exact ⟨hconcerns, about_singleton rfl, hold hkept, _, _, hkept.account.wrote _ _,
      fun k hk => (Option.some.inj hk).symm⟩
  | unanswered hp hx =>
    obtain ⟨hconcerns, hkept⟩ := hs.inUse hp rfl rfl hx
    exact ⟨hconcerns, about_singleton rfl, hold hkept, _, _, hkept.account.read _,
      fun k hk => (Option.some.inj hk).symm⟩
  | malformed hp hx =>
    obtain ⟨hconcerns, hkept⟩ := hs.inUse hp rfl rfl hx
    exact ⟨hconcerns, about_singleton rfl, hold hkept, _, _, hkept.account.read _,
      fun k hk => (Option.some.inj hk).symm⟩
  | cancelled hp hx =>
    obtain ⟨hconcerns, hkept⟩ := hs.inUse hp rfl rfl hx
    have haccount := hkept.account
    rw [← List.append_nil s.log] at haccount
    exact ⟨hconcerns, fun m hm => absurd hm (by simp), hold hkept, _, _, haccount,
      fun k hk => (Option.some.inj hk).symm⟩

/-- The stream on which something went wrong is given back. -/
theorem Mishap.gone {r : Request} {c : Channel χ} {x : χ} {marks : List (Mark χ)}
    {response : Response} (h : Mishap s r c x marks response) (hs : s.Books) :
    Gone (s.log ++ (marks ++ (closing c
      ++ [.ended s.number (some x) (.failed r response)]))) x := by
  obtain ⟨hconcerns, -, -, last, got, haccount, hlast⟩ := h.account hs
  rw [← List.append_assoc]
  refine gone_closing hconcerns.stream haccount ⟨rfl, rfl, ?_⟩ fun k hk => ⟨rfl, ?_⟩
  · simp [exchanges, Mark.exchange?, Ending.failed]
  · have hnumber : Log.number (s.log ++ marks ++ (closing c
        ++ [.ended s.number (some x) (.failed r response)])) = s.number + 1 := by
      rw [List.append_assoc, ← List.append_assoc marks, number_append, number_append,
        Log.number_during (during_append h.during (during_releases _ (releases_closing c)))]
      rfl
    rw [hlast k hk, hnumber]
    exact Nat.lt_succ_self _

/-- A cached channel is looked up. -/
theorem Books.checkOut (hs : s.Books) {r : Request} {since : Nat} {c : Channel χ}
    (hp : s.phase = .draining r since) (hc : s.cache.lookup r.destination = some c) :
    Books { s with
      phase := .probing r since c
      cache := s.cache.filter fun d => d.1 ≠ r.destination } := by
  have hmem := mem_of_lookup hc
  have hsub : ∀ p ∈ s.cache.filter fun d => d.1 ≠ r.destination,
      p ∈ s.cache ∧ p.1 ≠ r.destination := fun p hp => by
    obtain ⟨hp, hne⟩ := List.mem_filter.1 hp
    exact ⟨hp, by simpa using hne⟩
  refine ⟨fun p hp q hq => hs.keys p (hsub p hp).1 q (hsub q hq).1,
    fun r' hr' p hp => by cases hr'; exact (hsub p hp).2,
    fun p hp q hq => hs.apart p (hsub p hp).1 q (hsub q hq).1, fun d hd p hp he => ?_,
    fun p hp => hs.cached p (hsub p hp).1, fun d hd => ?_, fun k e y hm => ?_, hs.introduced⟩
  · cases hd
    exact (hsub p hp).2 (hs.apart p (hsub p hp).1 _ hmem he)
  · cases hd
    exact hs.cached _ hmem
  · rcases hs.known k e y hm with (⟨p, hp', hy⟩ | ⟨d, hd, -⟩) | hgone
    · by_cases hkey : p.1 = r.destination
      · rw [hs.keys p hp' _ hmem hkey] at hy
        exact .inl (.inr ⟨c, rfl, hy⟩)
      · exact .inl (.inl ⟨p, List.mem_filter.2 ⟨hp', by simpa using hkey⟩, hy⟩)
    · rw [hp] at hd
      cases hd
    · exact .inr hgone

/-- A change that uses the stream in use, which stays in use. -/
theorem Books.use (hs : s.Books) (h : Change s s') {r : Request} {c : Channel χ} {x : χ}
    {m : Mark χ} (hconcerns : Concerns s r c x) (hlog : s'.log = s.log ++ [m])
    (hm : m.about? = some x) (hduring : During s.number [m]) (hcache : s'.cache = s.cache)
    (hc : s'.phase.channel? = some c) (hplaced : s'.phase.placed? = some r)
    (hkept : Kept s'.log x (s'.phase.begun? s.number) s'.phase.got) : s'.Books := by
  refine (hs.rest h hconcerns hlog (about_singleton hm) hkept.connected).inUse hs hconcerns hcache
    hc hplaced ?_
  rwa [number_during_log hlog hduring]

theorem books_change (hn : Numbered s.log) (hf : s.InFlight) (hs : s.Books) (h : Change s s') :
    s'.Books := by
  have hchange := h
  cases h with
  | same => exact hs
  | put r hp =>
    refine hs.plain hchange rfl (fun m hm => by rw [List.mem_singleton.1 hm]; rfl) rfl rfl hs.absent ?_
    rw [number_during_log (s := s) (k := s.number) rfl (during_singleton rfl (.inl rfl))]
    exact hs.current.add (fun c x _ _ m hm he => by rw [List.mem_singleton.1 hm] at he; cases he)
      rfl
  | refused r hp =>
    refine hs.plain hchange rfl (fun m hm => ?_) rfl rfl hs.absent
      (current_of_none (congrArg QueuePhase.channel? hp))
    rcases List.mem_cons.1 hm with rfl | hm
    · rfl
    · rw [List.mem_singleton.1 hm]
      rfl
  | began since hp =>
    exact hs.plain hchange (List.append_nil _).symm (fun m hm => absurd hm (by simp)) rfl
      (congrArg QueuePhase.channel? hp).symm (fun r hr => by cases hr) (current_of_none rfl)
  | dropped e =>
    refine hs.drop (fun k => ! decide (k = e)) rfl ?_ rfl (fun r hr => hr) fun _ h => h
    simp only [Bool.not_not]
  | stopped hp =>
    have hall : (s.cache.filter fun _ => ! false) = s.cache :=
      List.filter_eq_self.2 fun _ _ => rfl
    refine hs.drop (fun _ => false) (by simp) ?_ (congrArg QueuePhase.channel? hp).symm
      (fun r hr => by cases hr) fun _ _ => current_of_none rfl
    rw [hall]
  | checkedOut hp hlookup => exact hs.checkOut hp hlookup
  | @missing r since hp hlookup =>
    refine hs.plain hchange (List.append_nil _).symm (fun m hm => absurd hm (by simp)) rfl
      (congrArg QueuePhase.channel? hp).symm (fun r' hr' p hp' he => ?_) (current_of_none rfl)
    cases hr'
    have := List.lookup_eq_none_iff.1 hlookup p hp'
    simp [he] at this
  | @stale r since c x p hp hx =>
    obtain ⟨hconcerns, hkept⟩ := hs.inUse hp rfl rfl hx
    obtain ⟨k, e, hconnected⟩ := hkept.connected
    have hnothing : Still x ([] : List (Mark χ)) := ⟨rfl, rfl, rfl⟩
    have hgone := gone_closing hx (hkept.account.probed (k := s.number) p) hnothing
      fun k hk => nomatch hk
    rw [List.append_nil, List.append_assoc] at hgone
    exact (hs.rest hchange hconcerns rfl ((about_singleton rfl).append (about_closing hx))
      ⟨k, e, List.mem_append_left _ hconnected⟩).gone hs hconcerns rfl rfl
        (fun r' hr' => (Option.some.inj hr').symm) hgone
  | unreachable e hp =>
    exact hs.plain hchange rfl (fun m hm => by rw [List.mem_singleton.1 hm]; rfl) rfl
      (congrArg QueuePhase.channel? hp).symm (fun r hr => by cases hr) (current_of_none rfl)
  | @reached r since c x m o hr =>
    obtain ⟨hconcerns, habout, hkept⟩ := hr.kept hs
    refine hs.use hchange hconcerns rfl habout hr.during rfl rfl rfl
      (hkept.begin ?_ fun e he => ?_)
    · rw [writtenBy_append, (hr.quiet _).1, List.append_nil]
      exact (hr.flight hf).1
    · have hlt := (exchange_lt (numbered_change hn hchange) he).1
      rwa [number_snoc (hr.during m (List.mem_singleton_self m)).1] at hlt
  | advanced hp hx hl ha =>
    obtain ⟨hconcerns, hkept⟩ := hs.inUse hp rfl rfl hx
    exact hs.use hchange hconcerns rfl rfl (during_singleton rfl (.inr rfl)) rfl rfl rfl
      (hkept.wrote _ ha)
  | @delivered r since c x o bs a hp hx hl ha hm =>
    obtain ⟨hconcerns, hkept⟩ := hs.inUse hp rfl rfl hx
    rw [InFlight, hp] at hf
    obtain ⟨hfits, -, hall, -⟩ := hf
    have hframe : writtenBy s.number (s.log ++ [.wrote s.number x bs a])
        = Frame.ofPayload r.encode := by
      rw [← hall, hl, writtenBy_append]
      simp [written, writtenBy, Mark.writtenBy]
    have hdone := (hkept.wrote bs ha).completed none [] hframe hfits
      (fun p hp => absurd hp (by simp)) rfl
    rw [List.append_assoc] at hdone
    exact (hs.rest hchange hconcerns rfl ((about_singleton rfl).append (about_singleton rfl))
      hdone.connected).stored hs hconcerns rfl rfl hdone
  | asked hp hx hl ha hm =>
    obtain ⟨hconcerns, hkept⟩ := hs.inUse hp rfl rfl hx
    exact hs.use hchange hconcerns rfl rfl (during_singleton rfl (.inr rfl)) rfl rfl rfl
      (hkept.wrote _ ha)
  | @heard r since c x i i' p hp hx hi ht hgo =>
    obtain ⟨hconcerns, hkept⟩ := hs.inUse hp rfl rfl hx
    have hread : Kept (s.log ++ [.read s.number x p]) x (some s.number)
        (i.taken ++ Frame.bytesRead p) := hkept.read hgo
    rw [← ht] at hread
    exact hs.use hchange hconcerns rfl rfl (during_singleton rfl (.inr rfl)) rfl rfl rfl hread
  | @answered r since c x i p payload response hp hx hl hi hgo hd =>
    obtain ⟨hconcerns, hkept⟩ := hs.inUse hp rfl rfl hx
    rw [InFlight, hp] at hf
    obtain ⟨hfits, -, hall, -⟩ := hf
    have hread : Kept (s.log ++ [.read s.number x p]) x (some s.number)
        (i.taken ++ Frame.bytesRead p) := hkept.read hgo
    rw [hi, ← List.append_nil (Frame.ofPayload payload)] at hread
    have hframe : writtenBy s.number (s.log ++ [.read s.number x p])
        = Frame.ofPayload r.encode := by
      rw [← hall, writtenBy_append]
      exact List.append_nil _
    have hdone := hread.completed (some response) [payload] hframe hfits
      (fun p hp => by rw [List.mem_singleton.1 hp]; exact hl) (congrArg ([·]) hd)
    rw [List.append_assoc] at hdone
    exact (hs.rest hchange hconcerns rfl ((about_singleton rfl).append (about_singleton rfl))
      hdone.connected).stored hs hconcerns rfl rfl hdone
  | @failed r c x marks response hm =>
    obtain ⟨hconcerns, habout, ⟨k, e, hconnected⟩, -⟩ := hm.account hs
    refine (hs.rest hchange hconcerns rfl (habout.append
      ((about_closing hconcerns.stream).append (about_singleton rfl))) ⟨k, e, ?_⟩).gone hs hconcerns
        rfl rfl (fun r' hr' => by cases hr') (hm.gone hs)
    rw [← List.append_assoc]
    exact List.mem_append_left _ hconnected

/-- At first there is nothing to keep books of. -/
theorem books_start : Books (χ := χ) ⟨.idle, [], [], []⟩ := by
  refine ⟨?_, fun r hr => (by cases hr), ?_, fun c hc => (by cases hc), ?_, current_of_none rfl,
    ?_, ?_⟩
  · exact fun p hp => absurd hp (by simp)
  · exact fun p hp => absurd hp (by simp)
  · exact fun p hp => absurd hp (by simp)
  · exact fun k e x hm => absurd hm (by simp)
  · exact fun m hm => absurd hm (by simp)

theorem books_reachable {w : Watched χ} (h : w.Reachable) : w.sight.Books :=
  Watched.reachable_induction (P := Books) books_start
    (fun _ _ hw hs hc => books_change (numbered_reachable hw) (inFlight_reachable hw) hs hc) h

end Sight
end CommandLink
