import CommandLink.Proofs.Serve.Attended
/-!
# Accept loops that stop in order

Each peer that was taken in is served by one until its channel is closed, whatever becomes of the
others. A loop that ends has closed them all before it gave back what it listened with, also those that
were taken in when it had been told to stop already.

Results:
* `sound_moved`: all that happens keeps the books of a loop.
* `can_end`: a loop that was told to stop can end by itself, whatever its peers and receivers do.
* `orderly`: what can be relied on of a loop at any moment.
-/
namespace CommandLink

namespace LoopMark
variable {χ : Type} {a b log : List (LoopMark χ)}

theorem mem_accepts {s : Seat χ} : s ∈ accepts log ↔ .accepted s ∈ log := by
  refine ⟨fun h => ?_, fun h => List.mem_filterMap.2 ⟨_, h, rfl⟩⟩
  obtain ⟨m, hm, he⟩ := List.mem_filterMap.1 h
  cases m with
  | accepted s' =>
    cases he
    exact hm
  | _ => cases he

theorem mem_returned {x : χ} : x ∈ returned log ↔ .released x .stream ∈ log := by
  refine ⟨fun h => ?_, fun h => List.mem_filterMap.2 ⟨_, h, rfl⟩⟩
  obtain ⟨m, hm, he⟩ := List.mem_filterMap.1 h
  cases m with
  | released y r =>
    cases r with
    | stream =>
      cases he
      exact hm
    | _ => cases he
  | _ => cases he

/-- What is noted when the channel of a seat is closed. -/
def closing (s : Seat χ) : List (LoopMark χ) :=
  s.key.toList.map (.released s.stream <| .key ·)
    ++ [.released s.stream .shutDown, .released s.stream .stream]

theorem accepts_closing (s : Seat χ) : accepts (closing s) = [] := by
  obtain ⟨number, x, key⟩ := s
  cases key <;> rfl

theorem returned_closing (s : Seat χ) : returned (closing s) = [s.stream] := by
  obtain ⟨number, x, key⟩ := s
  cases key <;> rfl

theorem mem_closing {s : Seat χ} {m : LoopMark χ} (h : m ∈ closing s) : ∃ r, m = .released s.stream r := by
  rcases List.mem_append.1 h with h | h
  · obtain ⟨k, -, rfl⟩ := List.mem_map.1 h
    exact ⟨_, rfl⟩
  · rcases List.mem_cons.1 h with rfl | h
    · exact ⟨_, rfl⟩
    · exact ⟨_, List.mem_singleton.1 h⟩

end LoopMark

namespace AcceptLoop
variable {χ : Type} {l : AcceptLoop χ}

/-- What a loop gives back when it ends. -/
def farewell (l : AcceptLoop χ) : List (LoopMark χ) :=
  .handle :: if l.keys.isNone then [.socketPath] else []

theorem mem_seats {s : Seat χ} : s ∈ l.seats ↔ ∃ p ∈ l.peers, p.seat? = some s :=
  List.mem_filterMap

theorem isOpen_of_seat? {p : Peer χ} {s : Seat χ} (h : p.seat? = some s) : p.channel.isOpen := by
  obtain ⟨x, hx, -⟩ := Option.map_eq_some_iff.1 h
  rw [Channel.isOpen, hx]
  rfl

theorem exists_seat? {p : Peer χ} (h : p.channel.isOpen) : ∃ s, p.seat? = some s := by
  obtain ⟨x, hx⟩ := Option.isSome_iff_exists.1 h
  exact ⟨_, congrArg _ hx⟩

theorem number_of_seat? {p : Peer χ} {s : Seat χ} (h : p.seat? = some s) : s.number = p.number := by
  obtain ⟨x, -, rfl⟩ := Option.map_eq_some_iff.1 h
  rfl

/-- A peer is taken in on the next seat. -/
theorem accept_eq (hp : l.phase = .accepting) (x : χ) (address : String) :
    ∃ p : Peer χ, p.seat? = some (l.nextSeat x) ∧ l.accept x address = { l with
      keys := l.keys.map fun ks => (ks.register address).1
      accepted := l.accepted + 1
      peers := l.peers ++ [p] } := by
  unfold accept
  rw [if_pos hp]
  cases hk : l.keys with
  | none => exact ⟨_, by simp [Peer.seat?, nextSeat, hk, Channel.opened], rfl⟩
  | some ks =>
    exact ⟨_, by simp [Peer.seat?, nextSeat, hk, Channel.opened, Channel.withKey], rfl⟩

/-- The loop without a peer that is in its list. -/
theorem peers_dismiss {p : Peer χ} {a b : List (Peer χ)} (hpeers : l.peers = a ++ p :: b)
    (hapart : (l.peers.map Peer.number).Nodup) : (l.dismiss p).1.peers = a ++ b := by
  rw [hpeers, (List.perm_middle.map Peer.number).nodup_iff, List.map_cons, List.nodup_cons] at hapart
  have hothers : ∀ q ∈ a ++ b, (q.number != p.number) = true := fun q hq => by
    rw [bne_iff_ne]
    exact fun he => hapart.1 (List.mem_map.2 ⟨q, hq, he⟩)
  show l.peers.filter _ = a ++ b
  rw [hpeers, List.filter_append, List.filter_cons_of_neg (by simp), ← List.filter_append,
    List.filter_eq_self.2 hothers]

/-- What is noted when a peer is served no more. -/
theorem marks_dismiss {p : Peer χ} {s : Seat χ} (hs : p.seat? = some s) :
    (l.dismiss p).2.map LoopMark.of = LoopMark.closing s := by
  obtain ⟨number, ⟨name, stream, key⟩, serving⟩ := p
  cases stream with
  | none => cases hs
  | some x =>
    cases hs
    cases key <;> rfl

/-- The keys that are left. -/
theorem keys_dismiss {p : Peer χ} {s : Seat χ} (hs : p.seat? = some s) :
    (l.dismiss p).1.keys = match s.key with
      | some k => l.keys.map fun ks => ks.cancel k
      | none => l.keys := by
  obtain ⟨number, ⟨name, stream, key⟩, serving⟩ := p
  cases stream with
  | none => cases hs
  | some x =>
    cases hs
    cases key <;> rfl

end AcceptLoop

namespace Attended
variable {χ σ : Type} {v : Service σ} {w w' : Attended χ σ}

open LoopMark

/-- The keys of a loop are those of the seats that are taken, in that order, if peers have keys. -/
def Keyed (l : AcceptLoop χ) (log : List (LoopMark χ)) : Prop :=
  match l.keys with
  | some ks => ks.next = l.accepted ∧ ks.peers.map (some ·.1) = l.seats.map Seat.key
      ∧ ∀ s ∈ accepts log, s.key = some (s.number - 1)
  | none => ∀ s ∈ accepts log, s.key = none

/-- The books of a loop. -/
structure Sound (w : Attended χ σ) : Prop where
  opened : ∀ p ∈ w.loop.peers, p.channel.isOpen
  apart : (w.loop.peers.map Peer.number).Nodup
  numbers : (accepts w.log).map Seat.number = List.range' 1 w.loop.accepted
  streams : ((accepts w.log).map Seat.stream).Nodup
  seated : ∀ s ∈ w.loop.seats, s ∈ accepts w.log
  untouched : ∀ s ∈ w.loop.seats, ∀ r, .released s.stream r ∉ w.log
  closed : ∀ s ∈ accepts w.log, s ∉ w.loop.seats → ∀ m ∈ closing s, m ∈ w.log
  known : ∀ x r, .released x r ∈ w.log → ∃ s ∈ accepts w.log, s.stream = x
  once : (returned w.log).Nodup
  keyed : Keyed w.loop w.log
  signalled : w.loop.phase ≠ .accepting → w.told
  emptied : w.loop.phase = .ended → w.loop.peers = []
  last : ∃ front, w.log = front ++ (if w.loop.phase = .ended then w.loop.farewell else [])
    ∧ .handle ∉ front ∧ .socketPath ∉ front

/-- No two peers have the same number. -/
theorem Sound.eq_of_number (h : w.Sound) {s t : Seat χ} (hs : s ∈ accepts w.log)
    (ht : t ∈ accepts w.log) (he : s.number = t.number) : s = t :=
  List.inj_on_of_nodup_map (by rw [h.numbers]; exact List.nodup_range') hs ht he

theorem Sound.eq_of_stream (h : w.Sound) {s t : Seat χ} (hs : s ∈ accepts w.log)
    (ht : t ∈ accepts w.log) (he : s.stream = t.stream) : s = t :=
  List.inj_on_of_nodup_map h.streams hs ht he

/-- Numbers are counted from 1. -/
theorem Sound.number_pos (h : w.Sound) {s : Seat χ} (hs : s ∈ accepts w.log) :
    1 ≤ s.number ∧ s.number ≤ w.loop.accepted := by
  have hm : s.number ∈ List.range' 1 w.loop.accepted := by
    rw [← h.numbers]
    exact List.mem_map_of_mem hs
  rw [List.mem_range'_1] at hm
  omega

theorem Sound.number_le (h : w.Sound) {p : Peer χ} (hp : p ∈ w.loop.peers) :
    p.number ≤ w.loop.accepted := by
  obtain ⟨s, hs⟩ := AcceptLoop.exists_seat? (h.opened p hp)
  rw [← AcceptLoop.number_of_seat? hs]
  exact (h.number_pos (h.seated s (AcceptLoop.mem_seats.2 ⟨p, hp, hs⟩))).2

/-! ## What keeps the books -/

theorem Sound.same (h : w.Sound) (hphase : w'.loop.phase = w.loop.phase)
    (hseats : w'.loop.seats = w.loop.seats) (hkeys : w'.loop.keys = w.loop.keys)
    (haccepted : w'.loop.accepted = w.loop.accepted)
    (hnumbers : w'.loop.peers.map Peer.number = w.loop.peers.map Peer.number)
    (hopen : (∀ p ∈ w.loop.peers, p.channel.isOpen) → ∀ p ∈ w'.loop.peers, p.channel.isOpen)
    (hlog : w'.log = w.log) (htold : w.told → w'.told) : w'.Sound where
  opened := hopen h.opened
  apart := hnumbers ▸ h.apart
  numbers := by rw [hlog, haccepted, h.numbers]
  streams := hlog ▸ h.streams
  seated := by rw [hseats, hlog]; exact h.seated
  untouched := by rw [hseats, hlog]; exact h.untouched
  closed := by rw [hseats, hlog]; exact h.closed
  known := by rw [hlog]; exact h.known
  once := hlog ▸ h.once
  keyed := by
    have hkeyed := h.keyed
    unfold Keyed at hkeyed ⊢
    rwa [hkeys, hseats, haccepted, hlog]
  signalled hp := htold (h.signalled (hphase ▸ hp))
  emptied hp := by
    have hnone := h.emptied (hphase ▸ hp)
    rw [hnone] at hnumbers
    exact List.map_eq_nil_iff.1 hnumbers
  last := by
    have hlast := h.last
    unfold AcceptLoop.farewell at hlast ⊢
    rwa [hlog, hphase, hkeys]

/-- Nothing that a loop listens with is given back before it ends. -/
theorem Sound.unended (h : w.Sound) (hp : w.loop.phase ≠ .ended) :
    .handle ∉ w.log ∧ .socketPath ∉ w.log := by
  obtain ⟨front, hlog, hnone⟩ := h.last
  rw [if_neg hp, List.append_nil] at hlog
  exact hlog ▸ hnone

theorem last_of_unended {l : AcceptLoop χ} {log : List (LoopMark χ)} (hp : l.phase ≠ .ended)
    (hnone : .handle ∉ log ∧ .socketPath ∉ log) :
    ∃ front, log = front ++ (if l.phase = .ended then l.farewell else [])
      ∧ .handle ∉ front ∧ .socketPath ∉ front :=
  ⟨log, by rw [if_neg hp, List.append_nil], hnone⟩

/-- The keys with that of a peer who is taken in. -/
theorem Sound.keyed_took (h : w.Sound) {x : χ} {address : String} {l : AcceptLoop χ}
    (hseats : l.seats = w.loop.seats ++ [w.loop.nextSeat x]) (haccepted : l.accepted = w.loop.accepted + 1)
    (hkeys : l.keys = w.loop.keys.map fun ks => (ks.register address).1) :
    Keyed l (w.log ++ [.accepted (w.loop.nextSeat x)]) := by
  have hkeyed := h.keyed
  have haccepts : accepts (w.log ++ [.accepted (w.loop.nextSeat x)])
      = accepts w.log ++ [w.loop.nextSeat x] := accepts_append ..
  unfold Keyed at hkeyed ⊢
  rw [hseats, haccepts, haccepted, hkeys]
  cases hk : w.loop.keys with
  | none =>
    simp only [hk, Option.map_none] at hkeyed ⊢
    intro s hs
    rcases List.mem_append.1 hs with hs | hs
    · exact hkeyed s hs
    · rw [List.mem_singleton.1 hs, AcceptLoop.nextSeat, hk]
      rfl
  | some ks =>
    simp only [hk, Option.map_some] at hkeyed ⊢
    obtain ⟨hnext, hpeers, hall⟩ := hkeyed
    refine ⟨by rw [← hnext]; rfl, ?_, fun s hs => ?_⟩
    · rw [List.map_append, ← hpeers]
      simp [KeySet.register, AcceptLoop.nextSeat, hk]
    · rcases List.mem_append.1 hs with hs | hs
      · exact hall s hs
      · rw [List.mem_singleton.1 hs, AcceptLoop.nextSeat, hk, Option.map_some, hnext]
        rfl

theorem Sound.took (h : w.Sound) {x : χ} (address : String) (hp : w.loop.phase = .accepting)
    (fresh : ∀ s ∈ accepts w.log, s.stream ≠ x) : Sound { w with
      loop := w.loop.accept x address
      log := w.log ++ [.accepted (w.loop.nextSeat x)] } := by
  obtain ⟨p, hseat, haccept⟩ := w.loop.accept_eq hp x address
  have hnumber : w.loop.accepted + 1 = p.number := AcceptLoop.number_of_seat? hseat
  have hseats : (w.loop.accept x address).seats = w.loop.seats ++ [w.loop.nextSeat x] := by
    rw [haccept]
    simp only [AcceptLoop.seats, List.filterMap_append, List.filterMap_cons, hseat, List.filterMap_nil]
  have haccepts : accepts (w.log ++ [.accepted (w.loop.nextSeat x)])
      = accepts w.log ++ [w.loop.nextSeat x] := accepts_append ..
  have hreturned : returned (w.log ++ [.accepted (w.loop.nextSeat x)]) = returned w.log := by
    rw [returned_append]
    exact List.append_nil _
  have hreleased {y : χ} {r : Release} (hm : .released y r ∈ w.log ++ [.accepted (w.loop.nextSeat x)]) :
      .released y r ∈ w.log := by simpa using hm
  have hphase : (w.loop.accept x address).phase = .accepting := by rw [haccept]; exact hp
  exact {
    opened := fun q hq => by
      rw [haccept] at hq
      rcases List.mem_append.1 hq with hq | hq
      · exact h.opened q hq
      · rw [List.mem_singleton.1 hq]
        exact AcceptLoop.isOpen_of_seat? hseat
    apart := by
      rw [haccept, List.map_append, List.nodup_append]
      refine ⟨h.apart, by simp, fun n hn m hm => ?_⟩
      rw [List.mem_singleton.1 hm, ← hnumber]
      obtain ⟨q, hq, rfl⟩ := List.mem_map.1 hn
      have := h.number_le hq
      omega
    numbers := by
      rw [haccepts, List.map_append, h.numbers, haccept]
      show _ ++ [w.loop.accepted + 1] = List.range' 1 (w.loop.accepted + 1)
      rw [List.range'_1_concat, Nat.add_comm 1]
    streams := by
      rw [haccepts, List.map_append, List.nodup_append]
      refine ⟨h.streams, by simp, fun y hy z hz => ?_⟩
      rw [List.mem_singleton.1 hz]
      obtain ⟨s, hs, rfl⟩ := List.mem_map.1 hy
      exact fresh s hs
    seated := by
      rw [hseats, haccepts]
      intro s hs
      rcases List.mem_append.1 hs with hs | hs
      · exact List.mem_append_left _ (h.seated s hs)
      · exact List.mem_append_right _ hs
    untouched := by
      rw [hseats]
      intro s hs r hm
      rcases List.mem_append.1 hs with hs | hs
      · exact h.untouched s hs r (hreleased hm)
      · rw [List.mem_singleton.1 hs] at hm
        obtain ⟨t, ht, he⟩ := h.known _ r (hreleased hm)
        exact fresh t ht he
    closed := by
      rw [hseats, haccepts]
      intro s hs hnot m hm
      rw [List.mem_append, not_or] at hnot
      have hold := (List.mem_append.1 hs).resolve_right hnot.2
      exact List.mem_append_left _ (h.closed s hold hnot.1 m hm)
    known := fun y r hm => by
      rw [haccepts]
      obtain ⟨s, hs, he⟩ := h.known y r (hreleased hm)
      exact ⟨s, List.mem_append_left _ hs, he⟩
    once := by
      rw [hreturned]
      exact h.once
    keyed := h.keyed_took hseats (by rw [haccept]) (by rw [haccept])
    signalled := fun hnot => absurd hphase hnot
    emptied := fun hended => by
      rw [hphase] at hended
      cases hended
    last := last_of_unended (by rw [hphase]; simp) (by simpa using h.unended (by rw [hp]; simp)) }

/-- Who is left has another number than who is dismissed. -/
theorem number_ne_of_dismiss {p : Peer χ} {s t : Seat χ} (hs : p.seat? = some s)
    (ht : t ∈ (w.loop.dismiss p).1.seats) : t.number ≠ s.number := by
  obtain ⟨q, hq, hqt⟩ := AcceptLoop.mem_seats.1 ht
  rw [AcceptLoop.number_of_seat? hs, AcceptLoop.number_of_seat? hqt]
  exact bne_iff_ne.1 (List.mem_filter.1 hq).2

/-- The keys that are left are those of the seats that are. -/
theorem Sound.keyed_dismiss (h : w.Sound) {p : Peer χ} {s : Seat χ} {a b : List (Seat χ)}
    (hs : p.seat? = some s) (hseats : w.loop.seats = a ++ s :: b)
    (hleft : (w.loop.dismiss p).1.seats = a ++ b) : Keyed (w.loop.dismiss p).1 (w.log ++ closing s) := by
  have hkeyed := h.keyed
  have hmem : s ∈ accepts w.log := h.seated s (by simp [hseats])
  unfold Keyed at hkeyed ⊢
  rw [accepts_append, accepts_closing, List.append_nil, AcceptLoop.keys_dismiss hs]
  cases hk : w.loop.keys with
  | none =>
    rw [hk] at hkeyed
    rw [hkeyed s hmem]
    exact hkeyed
  | some ks =>
    simp only [hk] at hkeyed
    obtain ⟨hnext, hkeys, hall⟩ := hkeyed
    have hothers : ∀ k ∈ (a ++ b).map Seat.key, decide (k ≠ some (s.number - 1)) = true := fun k hk => by
      obtain ⟨t, ht, rfl⟩ := List.mem_map.1 hk
      have hne := number_ne_of_dismiss hs (hleft ▸ ht)
      have ht' : t ∈ accepts w.log := by
        refine h.seated t (hseats ▸ ?_)
        exact ((List.sublist_cons_self s b).append_left a).mem ht
      have hpos := (h.number_pos hmem).1
      have hpos' := (h.number_pos ht').1
      rw [hall t ht', decide_eq_true_iff, ne_eq, Option.some.injEq]
      omega
    have hfilter : (ks.peers.filter fun q => q.1 != s.number - 1).map (some ·.1)
        = (ks.peers.map (some ·.1)).filter fun k => decide (k ≠ some (s.number - 1)) := by
      rw [List.filter_map]
      congr 1
      refine List.filter_congr fun q _ => ?_
      simp [bne, Bool.beq_eq_decide_eq]
    rw [hall s hmem]
    refine ⟨hnext, ?_, hall⟩
    show (ks.peers.filter fun q => q.1 != s.number - 1).map (some ·.1) = _
    rw [hfilter, hkeys, hseats, List.map_append, List.map_cons, hall s hmem, List.filter_append,
      List.filter_cons_of_neg (by simp), ← List.filter_append, ← List.map_append, hleft,
      List.filter_eq_self.2 hothers]

theorem Sound.dismissed (h : w.Sound) {p : Peer χ} (hp : p ∈ w.loop.peers) (state : σ) : Sound { w with
    loop := (w.loop.dismiss p).1
    state := state
    log := w.log ++ (w.loop.dismiss p).2.map LoopMark.of } := by
  obtain ⟨s, hs⟩ := AcceptLoop.exists_seat? (h.opened p hp)
  obtain ⟨a, b, hpeers⟩ := List.append_of_mem hp
  have hseats : w.loop.seats = a.filterMap Peer.seat? ++ s :: b.filterMap Peer.seat? := by
    rw [AcceptLoop.seats, hpeers, List.filterMap_append, List.filterMap_cons, hs]
  have hleft : (w.loop.dismiss p).1.seats = a.filterMap Peer.seat? ++ b.filterMap Peer.seat? := by
    rw [AcceptLoop.seats, AcceptLoop.peers_dismiss hpeers h.apart, List.filterMap_append]
  have hmem : s ∈ w.loop.seats := by simp [hseats]
  have hsub {t : Seat χ} (ht : t ∈ (w.loop.dismiss p).1.seats) : t ∈ w.loop.seats := by
    rw [hleft] at ht
    rw [hseats]
    exact ((List.sublist_cons_self s _).append_left _).mem ht
  have haccepts : accepts (w.log ++ closing s) = accepts w.log := by
    rw [accepts_append, accepts_closing, List.append_nil]
  have hopen : w.loop.phase ≠ .ended := fun hended => by
    rw [h.emptied hended] at hp
    cases hp
  rw [AcceptLoop.marks_dismiss hs]
  exact {
    opened := fun q hq => h.opened q (List.mem_filter.1 hq).1
    apart := h.apart.sublist (List.filter_sublist.map _)
    numbers := by
      rw [haccepts]
      exact h.numbers
    streams := by
      rw [haccepts]
      exact h.streams
    seated := fun t ht => by
      rw [haccepts]
      exact h.seated t (hsub ht)
    untouched := fun t ht r hm => by
      rcases List.mem_append.1 hm with hm | hm
      · exact h.untouched t (hsub ht) r hm
      · obtain ⟨_, he⟩ := mem_closing hm
        have hsame := h.eq_of_stream (h.seated t (hsub ht)) (h.seated s hmem) (LoopMark.released.inj he).1
        exact number_ne_of_dismiss hs ht (by rw [hsame])
    closed := fun t ht hnot m hm => by
      rw [haccepts] at ht
      by_cases hseat : t ∈ w.loop.seats
      · rw [hleft, List.mem_append, not_or] at hnot
        rw [hseats] at hseat
        have hts : t = s := (List.mem_cons.1 ((List.mem_append.1 hseat).resolve_left hnot.1)).resolve_right
          hnot.2
        exact List.mem_append_right _ (hts ▸ hm)
      · exact List.mem_append_left _ (h.closed t ht hseat m hm)
    known := fun x r hm => by
      rw [haccepts]
      rcases List.mem_append.1 hm with hm | hm
      · exact h.known x r hm
      · obtain ⟨_, he⟩ := mem_closing hm
        exact ⟨s, h.seated s hmem, (LoopMark.released.inj he).1.symm⟩
    once := by
      rw [returned_append, returned_closing, List.nodup_append]
      refine ⟨h.once, by simp, fun x hx y hy he => ?_⟩
      rw [List.mem_singleton.1 hy] at he
      exact h.untouched s hmem .stream (he ▸ mem_returned.1 hx)
    keyed := h.keyed_dismiss hs hseats hleft
    signalled := h.signalled
    emptied := fun hended => absurd hended hopen
    last := by
      refine last_of_unended hopen ?_
      obtain ⟨hhandle, hpath⟩ := h.unended hopen
      have hother {m : LoopMark χ} (hm : ∀ r, m ≠ .released s.stream r) (hnone : m ∉ w.log) :
          m ∉ w.log ++ closing s := fun hmem =>
        (List.mem_append.1 hmem).elim hnone fun hmem => (mem_closing hmem).elim hm
      exact ⟨hother (by simp) hhandle, hother (by simp) hpath⟩ }

/-- Whatever else is noted leaves the seats as they are, also where the loop goes on to another phase. -/
theorem Sound.noting (h : w.Sound) {phase : LoopPhase} {marks : List (LoopMark χ)}
    (haccepts : accepts marks = []) (hreleased : ∀ x r, .released x r ∉ marks)
    (signalled : phase ≠ .accepting → w.told) (emptied : phase = .ended → w.loop.peers = [])
    (last : ∃ front, w.log ++ marks = front ++ (if phase = .ended then w.loop.farewell else [])
      ∧ .handle ∉ front ∧ .socketPath ∉ front) :
    Sound { w with loop := { w.loop with phase := phase }, log := w.log ++ marks } := by
  have hall : accepts (w.log ++ marks) = accepts w.log := by
    rw [accepts_append, haccepts, List.append_nil]
  have hreturned : returned (w.log ++ marks) = returned w.log := by
    have hnone : returned marks = [] :=
      List.eq_nil_iff_forall_not_mem.2 fun x hx => hreleased x .stream (mem_returned.1 hx)
    rw [returned_append, hnone, List.append_nil]
  have hold {x : χ} {r : Release} (hm : .released x r ∈ w.log ++ marks) : .released x r ∈ w.log :=
    (List.mem_append.1 hm).resolve_right (hreleased x r)
  exact {
    opened := h.opened
    apart := h.apart
    numbers := hall.symm ▸ h.numbers
    streams := hall.symm ▸ h.streams
    seated := hall.symm ▸ h.seated
    untouched := fun s hs r hm => h.untouched s hs r (hold hm)
    closed := fun s hs hnot m hm => List.mem_append_left _ (h.closed s (hall ▸ hs) hnot m hm)
    known := fun x r hm => hall.symm ▸ h.known x r (hold hm)
    once := hreturned.symm ▸ h.once
    keyed := by
      show Keyed _ (w.log ++ marks)
      have hkeyed := h.keyed
      unfold Keyed at hkeyed ⊢
      rwa [hall]
    signalled := signalled
    emptied := emptied
    last := last }

/-- A peer that is refused leaves everything as it is. -/
theorem Sound.refused (h : w.Sound) (x : χ) (hp : w.loop.phase = .accepting) :
    Sound { w with log := w.log ++ [.refused x] } := by
  have hopen : w.loop.phase ≠ .ended := by rw [hp]; simp
  have haccepts : accepts [.refused x] = [] := rfl
  exact h.noting haccepts (by simp) h.signalled h.emptied
    (last_of_unended hopen (by simpa using h.unended hopen))

theorem Sound.stopped (h : w.Sound) (hp : w.loop.phase = .accepting) (told : w.told) :
    Sound { w with loop := { w.loop with phase := .stopping } } :=
  ⟨h.opened, h.apart, h.numbers, h.streams, h.seated, h.untouched, h.closed, h.known, h.once, h.keyed,
    fun _ => told, fun hended => (by cases hended),
    last_of_unended (by simp) (h.unended (by rw [hp]; simp))⟩

theorem Sound.ended (h : w.Sound) (hp : w.loop.phase = .stopping) (hnone : w.loop.peers = []) :
    Sound { w with
      loop := { w.loop with phase := .ended }
      log := w.log ++ (.handle :: if w.loop.keys.isNone then [.socketPath] else []) } := by
  refine h.noting ?_ (fun x r hm => ?_) (fun _ => h.signalled (by rw [hp]; simp)) (fun _ => hnone)
    ⟨w.log, rfl, h.unended (by rw [hp]; simp)⟩
  · split <;> rfl
  · split at hm <;> simp at hm

theorem sound_moved (h : w.Sound) (hmoved : Moved w w') : w'.Sound := by
  cases hmoved with
  | same hphase hseats hkeys haccepted hnumbers hopen hlog htold =>
    exact h.same hphase hseats hkeys haccepted hnumbers hopen hlog htold
  | took x address hp fresh => exact h.took address hp fresh
  | refused x hp => exact h.refused x hp
  | dismissed hp state => exact h.dismissed hp state
  | stopped hp told => exact h.stopped hp told
  | ended hp hnone => exact h.ended hp hnone

theorem sound_start {e : EndpointName} {s : σ} (h : Start e s w) : w.Sound := by
  have hnothing (l : AcceptLoop χ) (hp : l.peers = []) (ha : l.accepted = 0)
      (hphase : l.phase = .accepting) (hk : Keyed l []) : Sound ⟨l, false, s, []⟩ :=
    ⟨by simp [hp], by simp [hp], by rw [ha]; rfl, .nil, by simp [AcceptLoop.seats, hp], by simp,
      by simp [accepts], by simp, .nil, hk, fun hnot => absurd hphase hnot, fun _ => hp,
      last_of_unended (by rw [hphase]; simp) (by simp)⟩
  cases h with
  | tcp => exact hnothing _ rfl rfl rfl ⟨rfl, rfl, by simp [accepts]⟩
  | socket uid => exact hnothing _ rfl rfl rfl (by simp [Keyed, AcceptLoop.overSocket, accepts])

theorem sound_run {moves : List (LoopMove χ)} (h : w.Sound) (hrun : Run v w moves w') : w'.Sound := by
  induction hrun with
  | here => exact h
  | next _ m fits ih => exact sound_moved ih (moved_act m fits)

theorem sound_reachable (h : w.Reachable v) : w.Sound := by
  obtain ⟨e, s, start, moves, hstart, hrun⟩ := h
  exact sound_run (sound_start hstart) hrun

/-! ## Who is served -/

/-- Who was taken in is seated until the channel is closed. -/
theorem Sound.seated_iff (h : w.Sound) {s : Seat χ} (hs : s ∈ accepts w.log) :
    s ∈ w.loop.seats ↔ .released s.stream .stream ∉ w.log := by
  refine ⟨fun hseat => h.untouched s hseat .stream, fun hopen => ?_⟩
  exact Classical.byContradiction fun hnot =>
    hopen (h.closed s hs hnot _ (List.mem_append_right _ (by simp)))

/-- On every seat there is one peer. -/
theorem Sound.peer_unique (h : w.Sound) {p q : Peer χ} (hp : p ∈ w.loop.peers) (hq : q ∈ w.loop.peers)
    (he : p.number = q.number) : p = q :=
  List.inj_on_of_nodup_map h.apart hp hq he

/-- Seats with the same key are the same, where there are keys. -/
theorem Sound.eq_of_key (h : w.Sound) {ks : KeySet String} (hk : w.loop.keys = some ks) {s t : Seat χ}
    (hs : s ∈ accepts w.log) (ht : t ∈ accepts w.log) (he : s.key = t.key) : s = t := by
  have hkeyed := h.keyed
  simp only [Keyed, hk] at hkeyed
  rw [hkeyed.2.2 s hs, hkeyed.2.2 t ht, Option.some.injEq] at he
  have hpos := (h.number_pos hs).1
  have hpos' := (h.number_pos ht).1
  exact h.eq_of_number hs ht (by omega)

/-- The seats that are taken, by their keys. -/
theorem Sound.map_keys (h : w.Sound) {ks : KeySet String} (hk : w.loop.keys = some ks) :
    (ks.peers.map Prod.fst).map some = w.loop.seats.map Seat.key := by
  have hkeyed := h.keyed
  simp only [Keyed, hk] at hkeyed
  rw [List.map_map]
  exact hkeyed.2.1

theorem Sound.seats_number (h : w.Sound) : w.loop.seats.map Seat.number = w.loop.peers.map Peer.number := by
  have hopened := h.opened
  rw [AcceptLoop.seats]
  generalize w.loop.peers = peers at hopened ⊢
  induction peers with
  | nil => rfl
  | cons p ps ih =>
    obtain ⟨s, hs⟩ := AcceptLoop.exists_seat? (hopened p List.mem_cons_self)
    rw [List.filterMap_cons, hs, List.map_cons, List.map_cons, AcceptLoop.number_of_seat? hs,
      ih fun q hq => hopened q (List.mem_cons_of_mem _ hq)]

theorem Sound.nodup_keys (h : w.Sound) {ks : KeySet String} (hk : w.loop.keys = some ks) :
    (ks.peers.map Prod.fst).Nodup := by
  have hseats : w.loop.seats.Nodup := by
    refine List.Nodup.of_map Seat.number ?_
    rw [h.seats_number]
    exact h.apart
  have hkeys : (w.loop.seats.map Seat.key).Nodup :=
    hseats.map_on fun s hs t ht he => h.eq_of_key hk (h.seated s hs) (h.seated t ht) he
  rw [← h.map_keys hk] at hkeys
  exact hkeys.of_map

/-- A key is in the set as long as the channel that bears it is not closed. -/
theorem Sound.mem_keys_iff (h : w.Sound) {ks : KeySet String} (hk : w.loop.keys = some ks)
    {s : Seat χ} (hs : s ∈ accepts w.log) {k : Nat} (hkey : s.key = some k) :
    k ∈ ks.peers.map Prod.fst ↔ .released s.stream .stream ∉ w.log := by
  rw [← h.seated_iff hs]
  have hmem : k ∈ ks.peers.map Prod.fst ↔ some k ∈ w.loop.seats.map Seat.key := by
    rw [← h.map_keys hk]
    simp
  rw [hmem]
  constructor
  · intro hm
    obtain ⟨t, ht, he⟩ := List.mem_map.1 hm
    rwa [← h.eq_of_key hk (h.seated t ht) hs (he.trans hkey.symm)]
  · exact fun hseat => List.mem_map.2 ⟨s, hseat, hkey⟩

/-! ## Stopping -/

/-- What a loop that was told to stop does by itself, with whoever serves its peers. -/
def isOwn : LoopMove χ → Bool
  | .loop .shutdown | .loop (.peer _ .shutdown) | .loop .finish => true
  | _ => false

theorem Run.trans {w'' : Attended χ σ} {a b : List (LoopMove χ)} (h : Run v w a w')
    (h' : Run v w' b w'') : Run v w (a ++ b) w'' := by
  induction h' with
  | here => rwa [List.append_nil]
  | next _ m fits ih =>
    rw [← List.append_assoc]
    exact ih.next m fits

theorem Run.single (m : LoopMove χ) (fits : w.Fits m) : Run v w [m] (w.act v m) :=
  Run.here.next m fits

/-- Who serves a peer sees the signal, whatever is under way, and closes the channel. -/
theorem act_peer_shutdown {p : Peer χ} (hp : p ∈ w.loop.peers) :
    ∃ q ∈ w.loop.peers, q.number = p.number ∧ w.act v (.loop (.peer p.number .shutdown)) = { w with
      loop := (w.loop.dismiss q).1
      log := w.log ++ (w.loop.dismiss q).2.map LoopMark.of } := by
  obtain ⟨q, hq⟩ : ∃ q, w.loop.peer? p.number = some q :=
    Option.isSome_iff_exists.1 (List.find?_isSome.2 ⟨p, hp, by simp⟩)
  have hnumber : q.number = p.number := by simpa using List.find?_some hq
  refine ⟨q, List.mem_of_find?_eq_some hq, hnumber, ?_⟩
  simp only [act, AcceptLoop.step, AcceptLoop.servePeer, hq, Serving.step_shutdown, Serving.isEnded,
    if_true, shown, List.append_nil]

/-- With every peer that sees the signal there is one less, and then the loop ends. -/
theorem ends_stopping (h : w.Sound) (hp : w.loop.phase = .stopping) :
    ∃ moves w', Run v w moves w' ∧ (∀ m ∈ moves, isOwn m) ∧ w'.loop.phase = .ended := by
  generalize hn : w.loop.peers.length = n
  induction n generalizing w with
  | zero =>
    have hnone : w.loop.peers.isEmpty := by simpa using hn
    refine ⟨_, _, .single (.loop .finish) trivial, by simp [isOwn], ?_⟩
    simp [act, AcceptLoop.step, AcceptLoop.finish, hp, hnone]
  | succ n ih =>
    obtain ⟨p, hpeer⟩ : ∃ p, p ∈ w.loop.peers := List.exists_mem_of_length_pos (by omega)
    have fits : w.Fits (.loop (.peer p.number .shutdown)) := h.signalled (by rw [hp]; simp)
    obtain ⟨q, hq, -, hact⟩ := act_peer_shutdown (v := v) hpeer
    have hsound := sound_moved h (moved_act (v := v) _ fits)
    obtain ⟨a, b, hpeers⟩ := List.append_of_mem hq
    rw [hact] at hsound
    obtain ⟨moves, w', hrun, hown, hended⟩ := ih hsound hp (by
      show (w.loop.dismiss q).1.peers.length = n
      rw [hpeers] at hn
      rw [AcceptLoop.peers_dismiss hpeers h.apart]
      simp only [List.length_append, List.length_cons] at hn ⊢
      omega)
    rw [← hact] at hrun
    refine ⟨_, w', (Run.single _ fits).trans hrun, fun m hm => ?_, hended⟩
    rcases List.mem_append.1 hm with hm | hm
    · rw [List.mem_singleton.1 hm]
      rfl
    · exact hown m hm

/-- A loop that was told to stop can end by itself: no peer and no receiver has to do anything. -/
theorem can_end (h : w.Sound) (told : w.told) :
    ∃ moves w', Run v w moves w' ∧ (∀ m ∈ moves, isOwn m) ∧ w'.loop.phase = .ended := by
  cases hp : w.loop.phase with
  | accepting =>
    have hact : w.act v (.loop .shutdown) = { w with loop := { w.loop with phase := .stopping } } := by
      simp [act, AcceptLoop.step, shown, hp]
    obtain ⟨moves, w', hrun, hown, hended⟩ := ends_stopping (v := v) (h.stopped hp told) rfl
    rw [← hact] at hrun
    refine ⟨_, w', (Run.single (.loop .shutdown) told).trans hrun, fun m hm => ?_, hended⟩
    rcases List.mem_append.1 hm with hm | hm
    · rw [List.mem_singleton.1 hm]
      rfl
    · exact hown m hm
  | stopping => exact ends_stopping h hp
  | ended => exact ⟨[], w, .here, by simp, hp⟩

/-! ## At any moment -/

/-- The key set of a loop has one key for each channel that was taken in and not closed. -/
structure Orderly.Keys (ks : KeySet String) (log : List (LoopMark χ)) : Prop where
  nodup : (ks.peers.map Prod.fst).Nodup
  each : ∀ s, .accepted s ∈ log → ∃ k, s.key = some k
    ∧ (k ∈ ks.peers.map Prod.fst ↔ .released s.stream .stream ∉ log)
  apart : ∀ s t, .accepted s ∈ log → .accepted t ∈ log → s.key = t.key → s = t
  only : ∀ k ∈ ks.peers.map Prod.fst, ∃ s, .accepted s ∈ log ∧ s.key = some k

/-- What can be relied on of an accept loop, whatever happened. -/
structure Orderly (v : Service σ) (w : Attended χ σ) : Prop where
  numbers : ((accepts w.log).map Seat.number).Nodup
  streams : ((accepts w.log).map Seat.stream).Nodup
  /-- Who was taken in is served, by one, with nothing of the channel given back; or the channel was
  closed, and nobody serves it. -/
  served : ∀ s, .accepted s ∈ w.log →
    ((∃! p, p ∈ w.loop.peers ∧ p.number = s.number) ∧ ∀ r, .released s.stream r ∉ w.log)
    ∨ ((∀ p ∈ w.loop.peers, p.number ≠ s.number) ∧ ∀ m ∈ closing s, m ∈ w.log)
  taken : ∀ p ∈ w.loop.peers, ∃ s, p.seat? = some s ∧ .accepted s ∈ w.log
  /-- On a socket in the file system, only peers of its user are taken in. -/
  owned : ∀ moves w', Run v w moves w' → ∀ s, .accepted s ∈ w'.log → .accepted s ∈ w.log
    ∨ ∃ address owner, .loop (.accept s.stream address owner) ∈ moves
      ∧ ∀ uid, w.loop.uid = some uid → owner = .ok uid
  /-- Only others are refused there. -/
  refused : ∀ moves w', Run v w moves w' → ∀ x, .refused x ∈ w'.log → .refused x ∈ w.log
    ∨ ∃ address owner, .loop (.accept x address owner) ∈ moves
      ∧ ∃ uid, w.loop.uid = some uid ∧ owner ≠ .ok uid
  once : (returned w.log).Nodup
  keys : ∀ ks, w.loop.keys = some ks → Orderly.Keys ks w.log
  /-- Whatever becomes of the others, a peer is served as before, and its channel is open. -/
  isolated : ∀ moves w', Run v w moves w' → ∀ q ∈ w.loop.peers,
    (∀ e, .loop (.peer q.number e) ∉ moves) →
    q ∈ w'.loop.peers ∧ ∀ s, q.seat? = some s → ∀ r, .released s.stream r ∉ w'.log
  /-- The loop goes on until it looks at the signal, which is there then. -/
  undisturbed : ∀ moves w', Run v w moves w' → w.loop.phase = .accepting →
    .loop .shutdown ∉ moves → w'.loop.phase = .accepting
  signalled : w.loop.phase ≠ .accepting → w.told
  /-- A loop that has ended has closed every channel before it gave back what it listened with. -/
  ended : w.loop.phase = .ended → w.loop.peers = []
    ∧ (∀ ks, w.loop.keys = some ks → ks.peers = [])
    ∧ ∃ front, w.log = front ++ (.handle :: if w.loop.keys.isNone then [.socketPath] else [])
      ∧ .handle ∉ front ∧ .socketPath ∉ front
      ∧ ∀ s, .accepted s ∈ w.log → ∀ m ∈ closing s, m ∈ front
  ends : w.told → ∃ moves w', Run v w moves w' ∧ (∀ m ∈ moves, isOwn m) ∧ w'.loop.phase = .ended

theorem Sound.orderly_keys (h : w.Sound) {ks : KeySet String} (hk : w.loop.keys = some ks) :
    Orderly.Keys ks w.log where
  nodup := h.nodup_keys hk
  each s hs := by
    have hkeyed := h.keyed
    simp only [Keyed, hk] at hkeyed
    have hkey := hkeyed.2.2 s (mem_accepts.2 hs)
    exact ⟨_, hkey, h.mem_keys_iff hk (mem_accepts.2 hs) hkey⟩
  apart s t hs ht := h.eq_of_key hk (mem_accepts.2 hs) (mem_accepts.2 ht)
  only k hm := by
    have hm' : some k ∈ w.loop.seats.map Seat.key := by
      rw [← h.map_keys hk]
      exact List.mem_map_of_mem hm
    obtain ⟨s, hs, he⟩ := List.mem_map.1 hm'
    exact ⟨s, mem_accepts.1 (h.seated s hs), he⟩

theorem Sound.served (h : w.Sound) {s : Seat χ} (hs : s ∈ accepts w.log) :
    ((∃! p, p ∈ w.loop.peers ∧ p.number = s.number) ∧ ∀ r, .released s.stream r ∉ w.log)
    ∨ ((∀ p ∈ w.loop.peers, p.number ≠ s.number) ∧ ∀ m ∈ closing s, m ∈ w.log) := by
  by_cases hseat : s ∈ w.loop.seats
  · obtain ⟨p, hp, hps⟩ := AcceptLoop.mem_seats.1 hseat
    have hnumber := (AcceptLoop.number_of_seat? hps).symm
    exact .inl ⟨⟨p, ⟨hp, hnumber⟩, fun q ⟨hq, he⟩ => h.peer_unique hq hp (he.trans hnumber.symm)⟩,
      h.untouched s hseat⟩
  · refine .inr ⟨fun p hp he => hseat ?_, h.closed s hs hseat⟩
    obtain ⟨t, ht⟩ := AcceptLoop.exists_seat? (h.opened p hp)
    have hmem := AcceptLoop.mem_seats.2 ⟨p, hp, ht⟩
    rwa [← h.eq_of_number (h.seated t hmem) hs ((AcceptLoop.number_of_seat? ht).trans he)]

theorem Sound.ended_in_order (h : w.Sound) (hp : w.loop.phase = .ended) : w.loop.peers = []
    ∧ (∀ ks, w.loop.keys = some ks → ks.peers = [])
    ∧ ∃ front, w.log = front ++ (.handle :: if w.loop.keys.isNone then [.socketPath] else [])
      ∧ .handle ∉ front ∧ .socketPath ∉ front
      ∧ ∀ s, .accepted s ∈ w.log → ∀ m ∈ closing s, m ∈ front := by
  have hnone := h.emptied hp
  have hseats : w.loop.seats = [] := by rw [AcceptLoop.seats, hnone, List.filterMap_nil]
  obtain ⟨front, hlog, hhandle, hpath⟩ := h.last
  rw [if_pos hp, AcceptLoop.farewell] at hlog
  refine ⟨hnone, fun ks hk => ?_, front, hlog, hhandle, hpath, fun s hs m hm => ?_⟩
  · have hmap := h.map_keys hk
    rw [hseats] at hmap
    simpa using hmap
  · have hmem := h.closed s (mem_accepts.2 hs) (by simp [hseats]) m hm
    obtain ⟨r, rfl⟩ := mem_closing hm
    rw [hlog] at hmem
    refine (List.mem_append.1 hmem).resolve_right fun hlate => ?_
    split at hlate <;> simp at hlate

theorem orderly (h : w.Reachable v) : w.Orderly v := by
  have hsound := sound_reachable h
  exact {
    numbers := by
      rw [hsound.numbers]
      exact List.nodup_range'
    streams := hsound.streams
    served := fun s hs => hsound.served (mem_accepts.2 hs)
    taken := fun p hp => by
      obtain ⟨s, hs⟩ := AcceptLoop.exists_seat? (hsound.opened p hp)
      exact ⟨s, hs, mem_accepts.1 (hsound.seated s (AcceptLoop.mem_seats.2 ⟨p, hp, hs⟩))⟩
    owned := fun moves w' hrun s hs => by
      refine (accepted_run hrun hs).imp_right fun ⟨m, hm, address, owner, he, hown⟩ => ?_
      exact ⟨address, owner, he ▸ hm, AcceptLoop.admits_iff.1 hown⟩
    refused := fun moves w' hrun x hx => by
      refine (refused_run hrun hx).imp_right fun ⟨m, hm, address, owner, he, hown⟩ => ?_
      refine ⟨address, owner, he ▸ hm, ?_⟩
      simpa [AcceptLoop.admits_iff] using hown
    once := hsound.once
    keys := fun ks hk => hsound.orderly_keys hk
    isolated := fun moves w' hrun q hq hnot => by
      have hstays := mem_peers_run hrun hq hnot
      exact ⟨hstays, fun s hs => (sound_run hsound hrun).untouched s
        (AcceptLoop.mem_seats.2 ⟨q, hstays, hs⟩)⟩
    undisturbed := fun moves w' hrun hp hnot => phase_run hrun hp hnot
    signalled := hsound.signalled
    ended := hsound.ended_in_order
    ends := can_end hsound }

/-- A service without receivers. -/
def unmanned : Service Unit := ⟨.agent, .empty⟩

/-- A peer is taken in when the signal is there already, before the loop looks at it: its channel is
closed before the loop lets go of its port. -/
theorem orderly_late : ∃ w : Attended Nat Unit, w.Reachable unmanned ∧ w.loop.phase = .ended
    ∧ .accepted ⟨1, 5, some 0⟩ ∈ w.log ∧ ∃ front, w.log = front ++ [.handle]
      ∧ .released 5 (.key 0) ∈ front ∧ .released 5 .stream ∈ front := by
  have hrun : Run unmanned ⟨.overTcp .agent, false, (), []⟩
      [.tell, .loop (.accept 5 "127.0.0.1:9" (.ok 0)), .loop .shutdown, .loop (.peer 1 .shutdown), .loop .finish]
      ⟨⟨.agent, some ⟨1, []⟩, none, 1, [], .ended⟩, true, (),
        [.accepted ⟨1, 5, some 0⟩, .released 5 (.key 0), .released 5 .shutDown, .released 5 .stream,
          .handle]⟩ := by
    have htold := Run.single (χ := Nat) (v := unmanned) (w := ⟨.overTcp .agent, false, (), []⟩) .tell trivial
    have htaken := htold.next (.loop (.accept 5 "127.0.0.1:9" (.ok 0)))
      (by simp [Fits, act, accepts])
    have hstopping := htaken.next (.loop .shutdown) rfl
    have hclosed := hstopping.next (.loop (.peer 1 .shutdown)) rfl
    exact hclosed.next (.loop .finish) trivial
  have hreachable : Reachable unmanned _ := ⟨.agent, (), _, _, .tcp, hrun⟩
  obtain ⟨-, -, front, hlog, -, -, hfront⟩ := (orderly hreachable).ended rfl
  refine ⟨_, hreachable, rfl, List.mem_cons_self, front, hlog, ?_, ?_⟩
  · exact hfront ⟨1, 5, some 0⟩ List.mem_cons_self _ (by simp [closing])
  · exact hfront ⟨1, 5, some 0⟩ List.mem_cons_self _ (by simp [closing])

end Attended
end CommandLink
