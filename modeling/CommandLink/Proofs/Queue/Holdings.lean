import CommandLink.Proofs.Queue.Route
import Mathlib.Data.List.Nodup
/-!
# What a queue holds

A stream that was connected is held until it is given back: in a channel of the cache or in the one
that the request in flight has. It is held once, and it is given back once.

Results:
* `holdings_change`: no change loses a stream, or doubles one.
* `holdings_reachable`: what is held and what was given back are together what was connected.
-/
namespace CommandLink

namespace Log
variable {χ : Type}

/-- The streams that were connected, with their endpoints. -/
def arrived (log : List (Mark χ)) : List (EndpointName × χ) :=
  log.filterMap fun
    | .connected _ e x => some (e, x)
    | _ => none

/-- The streams that were given back. -/
def returned (log : List (Mark χ)) : List χ :=
  log.filterMap fun
    | .released x .stream => some x
    | _ => none

@[simp] theorem arrived_append (a b : List (Mark χ)) : arrived (a ++ b) = arrived a ++ arrived b :=
  List.filterMap_append

@[simp] theorem returned_append (a b : List (Mark χ)) :
    returned (a ++ b) = returned a ++ returned b :=
  List.filterMap_append

theorem mem_arrived {log : List (Mark χ)} {e : EndpointName} {x : χ} :
    (e, x) ∈ arrived log ↔ ∃ k, .connected k e x ∈ log := by
  refine ⟨fun h => ?_, fun ⟨k, h⟩ => List.mem_filterMap.2 ⟨_, h, rfl⟩⟩
  obtain ⟨m, hm, he⟩ := List.mem_filterMap.1 h
  cases m with
  | connected k e' x' =>
    cases he
    exact ⟨k, hm⟩
  | _ => cases he

theorem mem_returned {log : List (Mark χ)} {x : χ} :
    x ∈ returned log ↔ .released x .stream ∈ log := by
  refine ⟨fun h => ?_, fun h => List.mem_filterMap.2 ⟨_, h, rfl⟩⟩
  obtain ⟨m, hm, he⟩ := List.mem_filterMap.1 h
  cases m with
  | released y r =>
    cases r with
    | stream =>
      cases he
      exact hm
    | _ => cases he
  | _ => cases he

theorem arrived_releases {new : List (Mark χ)} (h : Releases new) : arrived new = [] := by
  refine List.filterMap_eq_nil_iff.2 fun m hm => ?_
  obtain ⟨x, r, rfl⟩ := h m hm
  rfl

/-- Closing a channel gives its stream back, once. -/
theorem returned_closing (c : Channel χ) : returned (closing c) = c.stream.toList := by
  obtain ⟨name, stream, key⟩ := c
  cases stream <;> cases key <;> rfl

theorem returned_flatMap_closing (cs : List (EndpointName × Channel χ)) :
    returned (cs.flatMap fun c => closing c.2) = cs.filterMap fun c => c.2.stream := by
  induction cs with
  | nil => rfl
  | cons c cs ih =>
    rw [List.flatMap_cons, returned_append, ih, returned_closing, List.filterMap_cons]
    cases c.2.stream <;> rfl

end Log

namespace Sight
variable {χ : Type} {s s' : Sight χ}

open Log

/-- The streams of the cached channels. -/
def stored (s : Sight χ) : List χ := s.cache.filterMap fun p => p.2.stream

/-- The stream of the request in flight. -/
def engaged (s : Sight χ) : List χ := (s.phase.channel?.bind Channel.stream).toList

/-- What a queue holds and what it gave back are together what it connected to, and no endpoint has
two cached channels. -/
structure Holdings (s : Sight χ) : Prop where
  all : (s.stored ++ s.engaged ++ returned s.log).Perm ((arrived s.log).map Prod.snd)
  once : ((arrived s.log).map Prod.snd).Nodup
  keys : (s.cache.map Prod.fst).Nodup

/-- A change that connects to nothing: what it gives back was held. -/
theorem Holdings.move (h : s.Holdings) {new : List (Mark χ)} (hlog : s'.log = s.log ++ new)
    (harrived : arrived new = [])
    (hheld : (s'.stored ++ s'.engaged ++ returned new).Perm (s.stored ++ s.engaged))
    (hkeys : (s'.cache.map Prod.fst).Nodup) : s'.Holdings := by
  have hsame : arrived s'.log = arrived s.log := by
    rw [hlog, arrived_append, harrived, List.append_nil]
  refine ⟨?_, by rw [hsame]; exact h.once, hkeys⟩
  rw [hsame]
  refine List.Perm.trans ?_ h.all
  rw [hlog, returned_append]
  refine (List.perm_append_comm.append_left _).trans ?_
  rw [← List.append_assoc]
  exact hheld.append_right _

/-- The cached channel of an endpoint is taken out. -/
theorem perm_checkedOut {cache : List (EndpointName × Channel χ)} {e : EndpointName} {c : Channel χ}
    (hkeys : (cache.map Prod.fst).Nodup) (hc : cache.lookup e = some c) :
    ((cache.filter fun d => d.1 ≠ e) ++ [(e, c)]).Perm cache := by
  obtain ⟨front, back, rfl, hfront⟩ := List.lookup_eq_some_iff.1 hc
  rw [(List.perm_middle.map Prod.fst).nodup_iff, List.map_cons, List.nodup_cons] at hkeys
  have hothers : ∀ d ∈ front ++ back, decide (d.1 ≠ e) = true := fun d hd => by
    refine decide_eq_true fun he => hkeys.1 ?_
    exact List.mem_map.2 ⟨d, hd, he⟩
  rw [List.filter_append, List.filter_cons_of_neg (by simp), ← List.filter_append,
    List.filter_eq_self.2 hothers, List.append_assoc]
  exact (@List.perm_append_comm _ back [(e, c)]).append_left front

/-- A channel is there for a request: the cached one, or one that is new. -/
theorem Reached.holdings {r : Request} {since : Nat} {c : Channel χ} {x : χ} {m : Mark χ}
    (h : Reached s r since c x m) (hs : s.Holdings) :
    (s.stored ++ [x] ++ returned s.log).Perm ((arrived (s.log ++ [m])).map Prod.snd)
      ∧ ((arrived (s.log ++ [m])).map Prod.snd).Nodup ∧ returned [m] = [] := by
  cases h with
  | again hp hx =>
    have hengaged : s.engaged = [x] := by rw [engaged, hp]; simp [QueuePhase.channel?, hx]
    rw [arrived_append, show arrived [_] = [] from rfl, List.append_nil, ← hengaged]
    exact ⟨hs.all, hs.once, rfl⟩
  | anew hp hx fresh =>
    have hengaged : s.engaged = [] := by rw [engaged, hp]; rfl
    have hall := hs.all
    rw [hengaged, List.append_nil] at hall
    have hnew : x ∉ (arrived s.log).map Prod.snd := fun hm => by
      obtain ⟨⟨e, y⟩, hmem, rfl⟩ := List.mem_map.1 hm
      obtain ⟨k, hk⟩ := mem_arrived.1 hmem
      exact fresh k e hk
    rw [arrived_append, List.map_append]
    refine ⟨?_, ?_, rfl⟩
    · rw [List.append_assoc]
      refine (List.perm_append_comm.append_left _).trans ?_
      rw [← List.append_assoc]
      exact hall.append_right _
    · exact (List.perm_append_singleton _ _).nodup_iff.2 (List.nodup_cons.2 ⟨hnew, hs.once⟩)

/-- Whatever goes wrong, the stream over which it does is the only one beside those cached. -/
theorem Mishap.holdings {r : Request} {c : Channel χ} {x : χ} {marks : List (Mark χ)}
    {response : Response} (h : Mishap s r c x marks response) (hs : s.Holdings) :
    c.stream = some x
      ∧ (s.stored ++ [x] ++ returned s.log).Perm ((arrived (s.log ++ marks)).map Prod.snd)
      ∧ ((arrived (s.log ++ marks)).map Prod.snd).Nodup ∧ returned marks = [] := by
  have hused {phase : QueuePhase χ} (hp : s.phase = phase) (hc : phase.channel? = some c)
      (hx : c.stream = some x) (hmarks : arrived marks = []) :
      (s.stored ++ [x] ++ returned s.log).Perm ((arrived (s.log ++ marks)).map Prod.snd)
        ∧ ((arrived (s.log ++ marks)).map Prod.snd).Nodup := by
    have hengaged : s.engaged = [x] := by rw [engaged, hp, hc]; simp [hx]
    rw [arrived_append, hmarks, List.append_nil, ← hengaged]
    exact ⟨hs.all, hs.once⟩
  cases h with
  | @tooLarge since m e hr =>
    have hx : c.stream = some x := by cases hr <;> assumption
    exact ⟨hx, hr.holdings hs⟩
  | unsent hp hx => exact ⟨hx, (hused hp rfl hx rfl).1, (hused hp rfl hx rfl).2, rfl⟩
  | unanswered hp hx => exact ⟨hx, (hused hp rfl hx rfl).1, (hused hp rfl hx rfl).2, rfl⟩
  | malformed hp hx => exact ⟨hx, (hused hp rfl hx rfl).1, (hused hp rfl hx rfl).2, rfl⟩
  | cancelled hp hx => exact ⟨hx, (hused hp rfl hx rfl).1, (hused hp rfl hx rfl).2, rfl⟩

/-- The channel in use is cached. -/
theorem Holdings.store (hs : s.Holdings) {phase : QueuePhase χ} (hp : s.phase = phase) {r : Request}
    {c : Channel χ} (hc : phase.channel? = some c) (habsent : ∀ p ∈ s.cache, p.1 ≠ r.destination)
    {new : List (Mark χ)} (hlog : s'.log = s.log ++ new) (harrived : arrived new = [])
    (hreturned : returned new = []) (hcache : s'.cache = (r.destination, c) :: s.cache)
    (hidle : s'.phase = .idle) : s'.Holdings := by
  refine hs.move hlog harrived ?_ ?_
  · have hengaged : s.engaged = c.stream.toList := by rw [engaged, hp, hc]; rfl
    have hstored : s'.stored = c.stream.toList ++ s.stored := by
      rw [stored, hcache, List.filterMap_cons]
      cases c.stream <;> rfl
    have hnone : s'.engaged = [] := by rw [engaged, hidle]; rfl
    rw [hreturned, hnone, hstored, hengaged, List.append_nil, List.append_nil]
    exact List.perm_append_comm
  · rw [hcache, List.map_cons, List.nodup_cons]
    refine ⟨fun hm => ?_, hs.keys⟩
    obtain ⟨p, hp, he⟩ := List.mem_map.1 hm
    exact habsent p hp he

/-- Nothing that has to do with channels changes. -/
theorem Holdings.same (hs : s.Holdings) {new : List (Mark χ)} (hlog : s'.log = s.log ++ new)
    (harrived : arrived new = []) (hreturned : returned new = []) (hcache : s'.cache = s.cache)
    (hchannel : s'.phase.channel? = s.phase.channel?) : s'.Holdings := by
  refine hs.move hlog harrived ?_ (by rw [hcache]; exact hs.keys)
  rw [hreturned, List.append_nil, stored, engaged, hcache, hchannel]
  exact .refl _

theorem holdings_change [DecidableEq χ] (hb : s.Books) (hs : s.Holdings) (h : Change s s') :
    s'.Holdings := by
  cases h with
  | same => exact hs
  | put => exact hs.same rfl rfl rfl rfl rfl
  | refused => exact hs.same rfl rfl rfl rfl rfl
  | began since hp =>
    exact hs.same (List.append_nil _).symm rfl rfl rfl (congrArg QueuePhase.channel? hp).symm
  | dropped e =>
    refine hs.move rfl (arrived_releases (releases_flatMap _)) ?_
      (hs.keys.sublist (List.filter_sublist.map _))
    have hsplit := (List.filter_append_perm (fun c : EndpointName × Channel χ => !decide (c.1 = e))
      s.cache).filterMap fun p => p.2.stream
    simp only [List.filterMap_append, Bool.not_not] at hsplit
    rw [returned_flatMap_closing, List.append_assoc]
    refine (List.perm_append_comm.append_left _).trans ?_
    rw [← List.append_assoc]
    exact hsplit.append_right _
  | stopped hp =>
    refine hs.move rfl (arrived_releases (releases_flatMap _)) ?_ List.nodup_nil
    have hengaged : s.engaged = [] := by rw [engaged, hp]; rfl
    rw [returned_flatMap_closing, hengaged, List.append_nil]
    exact .refl _
  | @checkedOut r since c hp hc =>
    refine hs.move (List.append_nil _).symm rfl ?_ (hs.keys.sublist (List.filter_sublist.map _))
    have hengaged : s.engaged = [] := by rw [engaged, hp]; rfl
    have hout := (perm_checkedOut hs.keys hc).filterMap fun p => p.2.stream
    rw [List.filterMap_append] at hout
    rw [hengaged, List.append_nil, show returned [] = ([] : List χ) from rfl, List.append_nil]
    have hthis : [(r.destination, c)].filterMap (fun p => p.2.stream) = c.stream.toList := by
      cases hx : c.stream <;> simp [hx]
    rw [hthis] at hout
    exact hout
  | missing hp =>
    exact hs.same (List.append_nil _).symm rfl rfl rfl (congrArg QueuePhase.channel? hp).symm
  | @stale r since c x p hp hx =>
    have hengaged : s.engaged = [x] := by rw [engaged, hp]; simp [QueuePhase.channel?, hx]
    refine @Holdings.move _ _ _ hs ([.probed s.number x p] ++ closing c) rfl ?_ ?_ hs.keys
    · rw [arrived_append, arrived_releases (releases_closing c)]
      rfl
    · rw [returned_append, returned_closing, hx, hengaged, List.append_assoc]
      exact .refl _
  | unreachable e hp => exact hs.same rfl rfl rfl rfl (congrArg QueuePhase.channel? hp).symm
  | @reached r since c x m o hr =>
    obtain ⟨hall, honce, hreturned⟩ := hr.holdings hs
    have hx : c.stream = some x := by cases hr <;> assumption
    refine ⟨?_, honce, hs.keys⟩
    rw [returned_append, hreturned, List.append_nil]
    have hengaged (requests : List Request) (log : List (Mark χ)) :
        engaged ⟨.sending r since c o, requests, s.cache, log⟩ = [x] := by
      simp [engaged, QueuePhase.channel?, hx]
    rw [hengaged]
    exact hall
  | advanced hp => exact hs.same rfl rfl rfl rfl (congrArg QueuePhase.channel? hp).symm
  | delivered hp =>
    exact hs.store hp rfl (hb.absent _ (congrArg QueuePhase.placed? hp)) rfl rfl rfl rfl rfl
  | asked hp => exact hs.same rfl rfl rfl rfl (congrArg QueuePhase.channel? hp).symm
  | heard hp => exact hs.same rfl rfl rfl rfl (congrArg QueuePhase.channel? hp).symm
  | answered hp =>
    exact hs.store hp rfl (hb.absent _ (congrArg QueuePhase.placed? hp)) rfl rfl rfl rfl rfl
  | @failed r c x marks response hm =>
    obtain ⟨hx, hall, honce, hreturned⟩ := hm.holdings hs
    have harrived : arrived (s.log ++ (marks ++ (closing c
        ++ [.ended s.number (some x) (.failed r response)]))) = arrived (s.log ++ marks) := by
      simp only [arrived_append, arrived_releases (releases_closing c)]
      exact congrArg (arrived s.log ++ ·) (List.append_nil _)
    refine ⟨?_, by rw [harrived]; exact honce, hs.keys⟩
    rw [harrived]
    refine List.Perm.trans ?_ hall
    simp only [returned_append, hreturned, returned_closing, hx]
    show (s.stored ++ [] ++ (returned s.log ++ ([] ++ ([x] ++ [])))).Perm _
    rw [List.append_nil, List.append_nil, List.nil_append, List.append_assoc]
    exact List.perm_append_comm.append_left _

theorem holdings_reachable [DecidableEq χ] {w : Watched χ} (h : w.Reachable) : w.sight.Holdings :=
  Watched.reachable_induction (P := Holdings) ⟨.nil, List.nodup_nil, List.nodup_nil⟩
    (fun _ _ hw hs hc => holdings_change (books_reachable hw) hs hc) h

/-- A queue that has stopped holds nothing. -/
theorem emptied_change (hs : s.phase = .stopped → s.cache = []) (h : Change s s')
    (hp : s'.phase = .stopped) : s'.cache = [] := by
  cases h with
  | same => exact hs hp
  | put _ hnot => exact absurd hp hnot
  | refused => exact hs hp
  | dropped e =>
    show s.cache.filter _ = []
    rw [hs hp, List.filter_nil]
  | stopped => rfl
  | _ => cases hp

theorem emptied_reachable [DecidableEq χ] {w : Watched χ} (h : w.Reachable) :
    w.sight.phase = .stopped → w.sight.cache = [] :=
  Watched.reachable_induction (P := fun s => s.phase = .stopped → s.cache = []) (fun _ => rfl)
    (fun _ _ _ hs hc => emptied_change hs hc) h

end Sight
end CommandLink
