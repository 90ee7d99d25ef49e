import CommandLink.Proofs.Files.Site
/-!
# Listeners that follow each other

Listeners of one user are bound below one base directory, and are closed, in any order. A listener
that was told to close first gives back what it listened with and then takes away what stands at its
path, whosever that is by then; a bind takes away what stands at the path before. So a listener can
lose its socket while it listens, in two ways: to one that is bound after it, and to one that was bound
before it and closes after that.

Results:
* `settled_run`: at every endpoint where a listener was bound stands the socket of the last one that
  was, unless some listener there has closed since.
* `reached_iff_uncleared`: the listener that was bound last is reached as long as none of those before
  it closes.
* `bind_displaces`: a bind leaves the listeners at all other endpoints, and puts out of reach the one at
  its own.
* `lost_to_elder`, `lost_to_younger`: both losses happen.
-/
namespace CommandLink.Rendezvous

open FileSystem

/-- What happened at a site: a listener of a number was bound to an endpoint, gave back what it
listened with, and cleared its path. -/
inductive Mark where
  | bound (n : Nat) (e : EndpointName)
  | released (n : Nat) (e : EndpointName)
  | cleared (n : Nat) (e : EndpointName)
  deriving DecidableEq

/-- Whether a listener listens, after what happened. -/
def alive (log : List Mark) (n : Nat) : Bool :=
  log.any fun
    | .bound k e => k == n && !log.contains (.released n e)
    | _ => false

/-- What happened, after a bind that came to something. -/
def noted (log : List Mark) (n : Nat) (e : EndpointName) : Except LinkError Unit → List Mark
  | .ok () => log ++ [.bound n e]
  | .error _ => log

/-- How what happened changes whose socket stands at an endpoint. -/
def stand (e : EndpointName) : Option Nat → Mark → Option Nat
  | s, .bound n e' => if e' = e then some n else s
  | s, .released _ _ => s
  | s, .cleared _ e' => if e' = e then none else s

/-- Whose socket stands at an endpoint, going by what happened. -/
def standing (log : List Mark) (e : EndpointName) : Option Nat :=
  log.foldl (stand e) none

namespace Site
variable {m : Site} {start fs fs' : FileSystem} {log : List Mark} {e e' : EndpointName} {n k : Nat}

/-- What can become of a site and its files when listeners come and go. One that closes does what
`AcceptLoop.finish` gives it to do, and others may do something in between. Clients come at any time
and change nothing. -/
inductive Run (m : Site) (start : FileSystem) : FileSystem → List Mark → Prop
  | start : Run m start start []
  | bind {fs fs' : FileSystem} {log : List Mark} (before : Run m start fs log) {n : Nat}
      (new : ∀ e, .bound n e ∉ log) {e : EndpointName} {r : Except LinkError Unit}
      (h : Rendezvous.bind fs m.user m.props e n = (r, fs')) : Run m start fs' (noted log n e r)
  | release {fs : FileSystem} {log : List Mark} (before : Run m start fs log) {n : Nat}
      {e : EndpointName} (bound : .bound n e ∈ log) (first : .released n e ∉ log) :
      Run m start fs (log ++ [.released n e])
  | clear {fs : FileSystem} {log : List Mark} (before : Run m start fs log) {n : Nat}
      {e : EndpointName} (released : .released n e ∈ log) (first : .cleared n e ∉ log) :
      Run m start (unbind fs (m.path e)) (log ++ [.cleared n e])

/-- Whom a client reaches. -/
def connect (m : Site) (fs : FileSystem) (log : List Mark) (e : EndpointName) : Except LinkError Nat :=
  locate fs m.user (alive log) m.props e

/-- The files are as what happened tells. -/
structure Settled (m : Site) (fs : FileSystem) (log : List Mark) : Prop where
  unlinked : m.Unlinked fs
  known {n : Nat} {e : EndpointName} (h : .bound n e ∈ log) : m.Ready fs
    ∧ (m.path e).text.utf8ByteSize < maxSocketPath ∧ ∃ p, fs.place false (m.path e) = .ok p
  agrees {k : Nat} {e : EndpointName} (h : .bound k e ∈ log) (n : Nat) :
    m.Stands fs e n ↔ standing log e = some n
  released {n : Nat} {e : EndpointName} (h : .released n e ∈ log) : .bound n e ∈ log
  cleared {n : Nat} {e : EndpointName} (h : .cleared n e ∈ log) : .released n e ∈ log

theorem standing_snoc (log : List Mark) (x : Mark) (e : EndpointName) :
    standing (log ++ [x]) e = stand e (standing log e) x := by
  rw [standing, List.foldl_append]
  rfl

theorem mem_noted {r : Except LinkError Unit} {x : Mark} (h : x ∈ log) : x ∈ noted log n e r := by
  cases r with
  | ok => exact List.mem_append_left _ h
  | error => exact h

/-- Where a change leaves an endpoint, what happened still tells whose socket stands there. -/
theorem Settled.agrees_of_leaves (h : m.Settled fs log) (hl : m.Leaves fs fs' e)
    (hb : .bound k e ∈ log) (n : Nat) : m.Stands fs' e n ↔ standing log e = some n := by
  obtain ⟨hready, -, p, hplace⟩ := h.known hb
  exact (hl.stands_iff hready.own hplace).trans (h.agrees hb n)

theorem Settled.known_keeps (h : m.Settled fs log) (hk : fs.Keeps fs') (hb : .bound n e ∈ log) :
    m.Ready fs' ∧ (m.path e).text.utf8ByteSize < maxSocketPath
      ∧ ∃ p, fs'.place false (m.path e) = .ok p := by
  obtain ⟨hready, hshort, p, hplace⟩ := h.known hb
  exact ⟨hready.keeps hk, hshort, p, hk.place hplace⟩

/-- A bind that failed leaves whatever stood at an endpoint. -/
theorem Settled.refused {fault : LinkError} (h : m.Settled fs log)
    (hb : Rendezvous.bind fs m.user m.props e n = (.error fault, fs')) : m.Settled fs' log where
  unlinked := h.unlinked.keeps (bind_keeps hb h.unlinked)
  known := h.known_keeps (bind_keeps hb h.unlinked)
  agrees hk := h.agrees_of_leaves
    (bind_leaves hb h.unlinked (.inr ⟨by simp, (h.known hk).2.1⟩)) hk
  released := h.released
  cleared := h.cleared

theorem Settled.bound (h : m.Settled fs log)
    (hb : Rendezvous.bind fs m.user m.props e n = (.ok (), fs')) :
    m.Settled fs' (log ++ [.bound n e]) := by
  have hkeeps := bind_keeps hb h.unlinked
  obtain ⟨hready, hstands⟩ := stands_bind hb h.unlinked
  refine ⟨h.unlinked.keeps hkeeps, fun {k e'} hk => ?_, fun {k e'} hk i => ?_, fun {k e'} hk => ?_,
    fun {k e'} hk => ?_⟩
  · rcases List.mem_append.1 hk with hk | hk
    · exact h.known_keeps hkeeps hk
    · cases List.mem_singleton.1 hk
      obtain ⟨p, hplace, -⟩ := hstands.socket
      exact ⟨hready, hstands.short, p, hplace⟩
  · rw [standing_snoc, stand]
    by_cases he : e = e'
    · subst he
      rw [if_pos rfl]
      exact ⟨fun hi => congrArg some (hstands.unique hi), fun hi => by cases hi; exact hstands⟩
    · rw [if_neg he]
      have hmem : .bound k e' ∈ log := by simpa [Ne.symm he] using hk
      exact h.agrees_of_leaves (bind_leaves hb h.unlinked (.inl he)) hmem i
  · exact List.mem_append_left _ (h.released (by simpa using hk))
  · exact List.mem_append_left _ (h.cleared (by simpa using hk))

theorem Settled.release (h : m.Settled fs log) (hb : .bound n e ∈ log) :
    m.Settled fs (log ++ [.released n e]) where
  unlinked := h.unlinked
  known hk := h.known (by simpa using hk)
  agrees hk i := by
    rw [standing_snoc]
    exact h.agrees (by simpa using hk) i
  released hk := by
    rcases List.mem_append.1 hk with hk | hk
    · exact List.mem_append_left _ (h.released hk)
    · cases List.mem_singleton.1 hk
      exact List.mem_append_left _ hb
  cleared hk := List.mem_append_left _ (h.cleared (by simpa using hk))

theorem Settled.clear (h : m.Settled fs log) (hr : .released n e ∈ log) :
    m.Settled (unbind fs (m.path e)) (log ++ [.cleared n e]) := by
  have hown := (h.known (h.released hr)).1.own
  have hkeeps := unbind_keeps hown h.unlinked e
  refine ⟨h.unlinked.keeps hkeeps, fun hk => h.known_keeps hkeeps (by simpa using hk),
    fun {k e'} hk i => ?_, fun hk => List.mem_append_left _ (h.released (by simpa using hk)),
    fun hk => ?_⟩
  · rw [standing_snoc, stand]
    by_cases he : e = e'
    · subst he
      rw [if_pos rfl]
      exact ⟨fun hi => absurd hi (not_stands_unbind hown h.unlinked e), fun hi => by cases hi⟩
    · rw [if_neg he]
      exact h.agrees_of_leaves (unbind_leaves hown h.unlinked he) (by simpa using hk) i
  · rcases List.mem_append.1 hk with hk | hk
    · exact List.mem_append_left _ (h.cleared hk)
    · cases List.mem_singleton.1 hk
      exact List.mem_append_left _ hr

/-- What happened tells whose socket stands at an endpoint. -/
theorem settled_run (h : m.Run start fs log) (hu : m.Unlinked start) : m.Settled fs log := by
  induction h with
  | start => exact ⟨hu, nofun, nofun, nofun, nofun⟩
  | @bind _ _ _ _ _ _ _ r hb ih =>
    cases r with
    | ok => exact ih.bound hb
    | error => exact ih.refused hb
  | release _ hb _ ih => exact ih.release hb
  | clear _ hr _ ih => exact ih.clear hr

/-! ## Who is reached -/

theorem alive_iff : alive log n = true ↔ ∃ e, .bound n e ∈ log ∧ .released n e ∉ log := by
  simp only [alive, List.any_eq_true]
  constructor
  · rintro ⟨x, hx, h⟩
    cases x with
    | bound k e =>
      simp only [Bool.and_eq_true, beq_iff_eq, Bool.not_eq_true', List.contains_eq_mem,
        decide_eq_false_iff_not] at h
      exact ⟨e, h.1 ▸ hx, h.2⟩
    | released => cases h
    | cleared => cases h
  · rintro ⟨e, hb, hr⟩
    exact ⟨.bound n e, hb, by simpa using hr⟩

theorem connect_ok_iff : m.connect fs log e = .ok n ↔ m.Stands fs e n ∧ alive log n = true :=
  locate_ok_iff

theorem alive_noted {r : Except LinkError Unit} (h : alive log k = true) :
    alive (noted log n e r) k = true := by
  obtain ⟨e', hb, hr⟩ := alive_iff.1 h
  refine alive_iff.2 ⟨e', mem_noted hb, fun hr' => hr ?_⟩
  cases r with
  | ok => simpa [noted] using hr'
  | error => exact hr'

theorem foldl_stand_none {l : List Mark} (h : ∀ k, .bound k e ∉ l) : l.foldl (stand e) none = none := by
  induction l with
  | nil => rfl
  | cons x l ih =>
    have hnone : stand e none x = none := by
      cases x with
      | bound k e' =>
        refine if_neg fun he => ?_
        subst he
        exact h k List.mem_cons_self
      | released => rfl
      | cleared k e' => exact ite_self _
    rw [List.foldl_cons, hnone]
    exact ih fun k hk => h k (List.mem_cons_of_mem _ hk)

/-- As long as nobody is bound, a socket stands until somebody clears it. -/
theorem foldl_stand_some {l : List Mark} (h : ∀ k, .bound k e ∉ l) :
    l.foldl (stand e) (some n) = some k ↔ (∀ i, .cleared i e ∉ l) ∧ k = n := by
  induction l with
  | nil => simp [eq_comm]
  | cons x l ih =>
    have htail (k : Nat) : .bound k e ∉ l := fun hk => h k (List.mem_cons_of_mem _ hk)
    rw [List.foldl_cons]
    cases x with
    | bound i e' =>
      have hne : e' ≠ e := by
        rintro rfl
        exact h i List.mem_cons_self
      rw [stand, if_neg hne, ih htail]
      simp
    | released =>
      rw [stand, ih htail]
      simp
    | cleared i e' =>
      by_cases he : e' = e
      · subst he
        rw [stand, if_pos rfl, foldl_stand_none htail]
        refine ⟨nofun, fun hk => absurd List.mem_cons_self (hk.1 i)⟩
      · rw [stand, if_neg he, ih htail]
        simp [Ne.symm he]

theorem standing_after {before after : List Mark} (hlast : ∀ k, .bound k e ∉ after) :
    standing (before ++ .bound n e :: after) e = some k ↔ (∀ i, .cleared i e ∉ after) ∧ k = n := by
  rw [standing, List.foldl_append, List.foldl_cons, stand, if_pos rfl, foldl_stand_some hlast]

/-- The socket of a listener at its path, as anybody can look at it. -/
theorem Settled.stat_iff (h : m.Settled fs log) (hb : .bound k e ∈ log) :
    (∃ mode, fs.stat false (m.path e) = .ok ⟨.socket (some n), m.user.uid, mode⟩)
      ↔ m.Stands fs e n := by
  obtain ⟨hready, hshort, p, hplace⟩ := h.known hb
  constructor
  · rintro ⟨mode, hstat⟩
    cases hat : fs.at? p with
    | none =>
      rw [stat_of_none hplace hat] at hstat
      cases hstat
    | some node =>
      rw [stat_of_some hplace hat] at hstat
      cases hstat
      exact ⟨hshort, hready.own, p, hplace, by rw [face?, hat]; rfl⟩
  · rintro ⟨-, -, q, hplace', hface⟩
    rw [hplace] at hplace'
    cases hplace'
    obtain ⟨⟨kind, u, mode⟩, hnode, hsocket⟩ := Option.map_eq_some_iff.1 hface
    obtain ⟨rfl, rfl⟩ := Prod.mk.inj hsocket
    exact ⟨mode, stat_of_some hplace hnode⟩

/-! ## A handover -/

/-- A site where nothing is yet. -/
def square : Site := ⟨User.superuser, ⟨⟨"/run"⟩⟩, by decide⟩

def vacant : FileSystem := ⟨[], []⟩

theorem unlinked_vacant (m : Site) : m.Unlinked vacant := by
  intro b e t u hf
  rw [face?, at?, if_neg (by simp)] at hf
  cases hf

/-- A listener is bound. -/
theorem run_elder : ∃ fs, square.Run vacant fs [.bound 0 .agent] := by
  have hok : (Rendezvous.bind vacant square.user square.props .agent 0).1.toBool = true := by
    decide +kernel
  cases hb : Rendezvous.bind vacant square.user square.props .agent 0 with
  | mk r fs =>
    rw [hb] at hok
    cases r with
    | ok => exact ⟨fs, Run.start.bind (by simp) hb⟩
    | error => cases hok

theorem stands_elder (h : square.Run vacant fs [.bound 0 .agent]) : square.Stands fs .agent 0 :=
  ((settled_run h (unlinked_vacant square)).agrees List.mem_cons_self 0).2 rfl

/-- Another one is bound in its place. -/
theorem run_younger : ∃ fs, square.Run vacant fs [.bound 0 .agent, .bound 1 .agent] := by
  obtain ⟨fs, hrun⟩ := run_elder
  have hsettled := settled_run hrun (unlinked_vacant square)
  have hok := bind_of_stands (hsettled.known List.mem_cons_self).1 hsettled.unlinked
    (stands_elder hrun) 1
  cases hb : Rendezvous.bind fs square.user square.props .agent 1 with
  | mk r fs' =>
    rw [hb] at hok
    obtain rfl : r = .ok () := hok
    exact ⟨fs', hrun.bind (by simp) hb⟩

/-- The listener whose bind to an endpoint was the last to succeed there, and which was not closed
since, is reached there and has its socket at its path exactly as long as no listener that was bound
before it clears that path. Nobody else is reached there in any case. -/
theorem reached_iff_uncleared (hu : m.Unlinked start) (h : m.Run start fs log)
    {before after : List Mark} (hlog : log = before ++ .bound n e :: after)
    (hlast : ∀ k, .bound k e ∉ after) (hopen : .released n e ∉ log) :
    (m.connect fs log e = .ok n ↔ ∀ k, .cleared k e ∉ after)
    ∧ ((∃ mode, fs.stat false (m.path e) = .ok ⟨.socket (some n), m.user.uid, mode⟩)
      ↔ ∀ k, .cleared k e ∉ after)
    ∧ (∀ k, m.connect fs log e = .ok k → k = n)
    ∧ ∀ k, .cleared k e ∈ after → k ≠ n ∧ .bound k e ∈ before := by
  have hsettled := settled_run h hu
  have hb : .bound n e ∈ log := by simp [hlog]
  have hstands (k : Nat) : m.Stands fs e k ↔ (∀ i, .cleared i e ∉ after) ∧ k = n := by
    rw [hsettled.agrees hb, hlog, standing_after hlast]
  have halive : alive log n = true := alive_iff.2 ⟨e, hb, hopen⟩
  refine ⟨?_, ?_, fun k hk => ((hstands k).1 (connect_ok_iff.1 hk).1).2, fun k hk => ?_⟩
  · rw [connect_ok_iff, hstands]
    exact ⟨fun hn => hn.1.1, fun hn => ⟨⟨hn, rfl⟩, halive⟩⟩
  · rw [hsettled.stat_iff hb, hstands]
    exact ⟨fun hn => hn.1, fun hn => ⟨hn, rfl⟩⟩
  · have hreleased := hsettled.cleared (n := k) (e := e) (by simp [hlog, hk])
    have hne : k ≠ n := by
      rintro rfl
      exact hopen hreleased
    have hbound := hsettled.released hreleased
    rw [hlog] at hbound
    rcases List.mem_append.1 hbound with hbefore | hafter
    · exact ⟨hne, hbefore⟩
    · rcases List.mem_cons.1 hafter with heq | hafter
      · exact absurd (Mark.bound.inj heq).1 hne
      · exact absurd hafter (hlast k)

/-- Until the elder clears its path, the younger is reached. -/
theorem reached_before_cleared : ∃ fs,
    square.Run vacant fs [.bound 0 .agent, .bound 1 .agent, .released 0 .agent]
      ∧ square.connect fs [.bound 0 .agent, .bound 1 .agent, .released 0 .agent] .agent = .ok 1 := by
  obtain ⟨fs, hyounger⟩ := run_younger
  have hrun : square.Run vacant fs [.bound 0 .agent, .bound 1 .agent, .released 0 .agent] :=
    hyounger.release List.mem_cons_self (by decide)
  have hlog : [Mark.bound 0 .agent, .bound 1 .agent, .released 0 .agent]
      = [.bound 0 .agent] ++ .bound 1 .agent :: [.released 0 .agent] := rfl
  exact ⟨fs, hrun, (reached_iff_uncleared (unlinked_vacant square) hrun hlog (by simp)
    (by decide)).1.2 (by simp)⟩

/-- Once it has, nobody is, though the younger was not closed. -/
theorem lost_to_elder :
    ¬∀ (m : Site) (start fs : FileSystem) (log before after : List Mark) (e : EndpointName) (n : Nat),
      m.Unlinked start → m.Run start fs log → log = before ++ .bound n e :: after →
      (∀ k, .bound k e ∉ after) → .released n e ∉ log → m.connect fs log e = .ok n := by
  intro h
  obtain ⟨fs, hyounger⟩ := run_younger
  have hreleased : square.Run vacant fs [.bound 0 .agent, .bound 1 .agent, .released 0 .agent] :=
    hyounger.release List.mem_cons_self (by decide)
  have hcleared : square.Run vacant (unbind fs (square.path .agent))
      [.bound 0 .agent, .bound 1 .agent, .released 0 .agent, .cleared 0 .agent] :=
    hreleased.clear (by decide) (by decide)
  have hreached := h square vacant _ _ [.bound 0 .agent] [.released 0 .agent, .cleared 0 .agent] .agent 1
    (unlinked_vacant square) hcleared rfl (by simp) (by decide)
  have hstands := (connect_ok_iff.1 hreached).1
  have hsettled := settled_run hcleared (unlinked_vacant square)
  have hstanding := (hsettled.agrees List.mem_cons_self 1).1 hstands
  exact absurd hstanding (by decide)

/-- A bind leaves every listener that is reached at another endpoint. At its own endpoint it succeeds
also where a listener is reached, and that one, though it was not closed, is reached no more: the new
one is. -/
theorem bind_displaces (hu : m.Unlinked start) (h : m.Run start fs log)
    (new : ∀ e, .bound n e ∉ log) {r : Except LinkError Unit}
    (hb : Rendezvous.bind fs m.user m.props e n = (r, fs')) :
    (∀ e' k, e' ≠ e → m.connect fs log e' = .ok k → m.connect fs' (noted log n e r) e' = .ok k)
    ∧ ∀ k, .bound k e ∈ log → m.connect fs log e = .ok k →
      r = .ok () ∧ m.connect fs' (noted log n e r) e = .ok n
        ∧ alive (noted log n e r) k = true ∧ m.connect fs' (noted log n e r) e ≠ .ok k := by
  have hsettled := settled_run h hu
  refine ⟨fun e' k hne hk => ?_, fun k hbound hk => ?_⟩
  · obtain ⟨hstands, halive⟩ := connect_ok_iff.1 hk
    exact connect_ok_iff.2
      ⟨(bind_leaves hb hsettled.unlinked (.inl hne.symm)).stands hstands, alive_noted halive⟩
  · obtain ⟨hstands, halive⟩ := connect_ok_iff.1 hk
    have hok := bind_of_stands (hsettled.known hbound).1 hsettled.unlinked hstands n
    rw [hb] at hok
    obtain rfl : r = .ok () := hok
    have hnew := (stands_bind hb hsettled.unlinked).2
    have hreached : m.connect fs' (noted log n e (.ok ())) e = .ok n :=
      connect_ok_iff.2 ⟨hnew, alive_iff.2 ⟨e, by simp [noted], fun hr => ?_⟩⟩
    · refine ⟨rfl, hreached, alive_noted halive, ?_⟩
      rw [hreached]
      rintro heq
      cases heq
      exact new e hbound
    · have hr' : .released n e ∈ log := by simpa [noted] using hr
      exact new e (hsettled.released hr')

/-- The younger takes the place of the elder. -/
theorem displaced_elder : ∃ fs fs',
    square.connect fs [.bound 0 .agent] .agent = .ok 0
      ∧ Rendezvous.bind fs square.user square.props .agent 1 = (.ok (), fs')
      ∧ square.connect fs' [.bound 0 .agent, .bound 1 .agent] .agent = .ok 1 := by
  obtain ⟨fs, hrun⟩ := run_elder
  have hreached : square.connect fs [.bound 0 .agent] .agent = .ok 0 :=
    connect_ok_iff.2 ⟨stands_elder hrun, rfl⟩
  cases hb : Rendezvous.bind fs square.user square.props .agent 1 with
  | mk r fs' =>
    obtain ⟨rfl, hnew, -⟩ := (bind_displaces (unlinked_vacant square) hrun (by simp) hb).2 0
      List.mem_cons_self hreached
    exact ⟨fs, fs', hreached, hb, hnew⟩

/-- A bind at an endpoint where a listener is reached neither fails nor leaves that one in reach. -/
theorem lost_to_younger :
    ¬∀ (m : Site) (start fs fs' : FileSystem) (log : List Mark) (e : EndpointName) (k n : Nat)
      (r : Except LinkError Unit), m.Unlinked start → m.Run start fs log → .bound k e ∈ log →
      m.connect fs log e = .ok k → (∀ e', .bound n e' ∉ log) →
      Rendezvous.bind fs m.user m.props e n = (r, fs') →
      r ≠ .ok () ∧ m.connect fs' (noted log n e r) e = .ok k := by
  intro h
  obtain ⟨fs, hrun⟩ := run_elder
  have hsettled := settled_run hrun (unlinked_vacant square)
  have hstands := stands_elder hrun
  have hok := bind_of_stands (hsettled.known List.mem_cons_self).1 hsettled.unlinked hstands 1
  have hclaim := h square vacant fs _ _ .agent 0 1 _ (unlinked_vacant square) hrun List.mem_cons_self
    (connect_ok_iff.2 ⟨hstands, rfl⟩) (by simp) rfl
  exact hclaim.1 hok

end Site
end CommandLink.Rendezvous
