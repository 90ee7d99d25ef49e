import CommandLink.AcceptLoop
/-!
# How a channel parts with its key and its stream

An accept loop watches a channel under a key, which is to leave its set of keys before the stream is
given back. A channel can come to its end in three ways: it is closed, closing it is broken off while
the peer is told, or it is let go of.

Results:
* `releases_spent`, `releases_watched`: the first end gives everything back, and the others nothing.
* `parts_once`: the key and the stream go once each, and the key first unless the channel is let go of
  without having been closed.
* `let_go_while_watched`: a channel that is let go of, whose key is in the set when its stream goes.
-/
namespace CommandLink

namespace Channel

/-- What is done with a channel. -/
inductive Treatment where
  /-- It is read or written, or looked at. -/
  | used
  | closed
  /-- Closing it is broken off where it has to wait: while the peer is told. -/
  | brokenOff
  | letGo
  deriving DecidableEq

/-- Whether a channel gives back what it has left. -/
def Treatment.ends : Treatment → Bool
  | used => false
  | closed | brokenOff | letGo => true

variable {σ : Type} {c : Channel σ}

/-- What becomes of a channel, and what it gives back, in order. -/
def treated (c : Channel σ) : Treatment → Option (Channel σ) × List Release
  | .used => (some c, [])
  | .closed => (some c.close.1, c.close.2)
  | .brokenOff => (some c.close.1, c.closeBrokenOff)
  | .letGo => (none, c.letGo)

/-- All that a channel gives back. Once it was let go of, nothing more can be done with it. -/
def releases : Option (Channel σ) → List Treatment → List Release
  | some c, t :: ts => (c.treated t).2 ++ releases (c.treated t).1 ts
  | _, [] | none, _ => []

theorem releases_none (ts : List Treatment) : releases (none : Option (Channel σ)) ts = [] := by
  cases ts <;> rfl

/-- A channel that has nothing left stays as it is, unless it is let go of. -/
theorem treated_spent (hstream : c.stream = none) (hkey : c.key = none) (t : Treatment) :
    (c.treated t).2 = [] ∧ ((c.treated t).1 = some c ∨ (c.treated t).1 = none) := by
  obtain ⟨name, stream, key⟩ := c
  cases hstream
  cases hkey
  cases t with
  | used | closed | brokenOff => exact ⟨rfl, .inl rfl⟩
  | letGo => exact ⟨rfl, .inr rfl⟩

theorem releases_spent (hstream : c.stream = none) (hkey : c.key = none) (ts : List Treatment) :
    releases (some c) ts = [] := by
  induction ts with
  | nil => rfl
  | cons t ts ih =>
    obtain ⟨hnothing, hsame | hgone⟩ := treated_spent hstream hkey t
    · rw [releases, hnothing, hsame, ih, List.append_nil]
    · rw [releases, hnothing, hgone, releases_none, List.append_nil]

/-- What a channel gives back, it gives back at its first end. -/
theorem releases_eq (c : Channel σ) (ts : List Treatment) :
    releases (some c) ts = (ts.find? Treatment.ends).elim [] fun t => (c.treated t).2 := by
  induction ts with
  | nil => rfl
  | cons t ts ih =>
    cases t with
    | used => exact ih
    | closed | brokenOff =>
      exact (congrArg _ (releases_spent rfl rfl ts)).trans (List.append_nil _)
    | letGo => exact (congrArg _ (releases_none ts)).trans (List.append_nil _)

/-! ## Channels that are watched -/

/-- A channel that an accept loop has taken in and watches under a key. -/
def watched (name : String) (stream : σ) (key : Nat) : Channel σ :=
  (opened name stream).withKey key

/-- When the stream is given back, the key has left the set of keys. -/
def KeyFirst (keys : KeySet String) (key : Nat) (rs : List Release) : Prop :=
  ∀ front back, rs = front ++ .stream :: back →
    ∀ left, front.foldl AcceptLoop.cancelled (some keys) = some left → ∀ p ∈ left.peers, p.1 ≠ key

theorem releases_watched (name : String) (stream : σ) (key : Nat) (ts : List Treatment) :
    releases (some (watched name stream key)) ts = match ts.find? Treatment.ends with
      | some .closed => [.key key, .shutDown, .stream]
      | some .brokenOff => [.key key, .stream]
      | some .letGo => [.stream, .key key]
      | some .used | none => [] := by
  rw [releases_eq]
  cases ts.find? Treatment.ends with
  | none => rfl
  | some t => cases t <;> rfl

/-- A key that has left the set does not come back by what is given back later. -/
theorem stays_cancelled {keys left : KeySet String} {key : Nat} (hkeys : ∀ p ∈ keys.peers, p.1 ≠ key)
    {rs : List Release} (h : rs.foldl AcceptLoop.cancelled (some keys) = some left) :
    ∀ p ∈ left.peers, p.1 ≠ key := by
  induction rs generalizing keys with
  | nil =>
    cases h
    exact hkeys
  | cons r rs ih =>
    cases r with
    | key k =>
      have hcancelled : ∀ p ∈ (keys.cancel k).peers, p.1 ≠ key :=
        fun p hp => hkeys p (KeySet.mem_cancel.1 hp).1
      exact ih hcancelled h
    | shutDown | stream => exact ih hkeys h

theorem keyFirst_cons (keys : KeySet String) (key : Nat) (rs : List Release) :
    KeyFirst keys key (.key key :: rs) := by
  intro front back hrs left hleft
  cases front with
  | nil => cases hrs
  | cons r front =>
    cases hrs
    exact stays_cancelled (fun p hp => (KeySet.mem_cancel.1 hp).2) hleft

/-- Whatever is done with a channel that an accept loop watches, in the end its key has been cancelled
once, and no other, and its stream was given back once. The key went first, unless the channel was let
go of before it was closed. -/
theorem parts_once (before : KeySet String) (peer name : String) (stream : σ) (ts : List Treatment)
    (ends : ∃ t ∈ ts, t.ends = true) :
    let keys := (before.register peer).1
    let key := (before.register peer).2
    let rs := releases (some (watched name stream key)) ts
    rs.count (.key key) = 1 ∧ rs.count .stream = 1
    ∧ rs.foldl AcceptLoop.cancelled (some keys) = some (keys.cancel key)
    ∧ (KeyFirst keys key rs ↔ ts.find? Treatment.ends ≠ some .letGo) := by
  intro keys key rs
  obtain ⟨t, ht⟩ : ∃ t, ts.find? Treatment.ends = some t := by
    rw [← Option.isSome_iff_exists, List.find?_isSome]
    exact ends
  have hends : t.ends = true := List.find?_some ht
  have hrs : rs = _ := releases_watched name stream key ts
  rw [ht] at hrs ⊢
  cases t with
  | used => cases hends
  | closed =>
    rw [hrs]
    exact ⟨by simp, rfl, rfl, iff_of_true (keyFirst_cons keys key _) nofun⟩
  | brokenOff =>
    rw [hrs]
    exact ⟨by simp, rfl, rfl, iff_of_true (keyFirst_cons keys key _) nofun⟩
  | letGo =>
    rw [hrs]
    refine ⟨by simp, rfl, rfl, iff_of_false (fun hfirst => ?_) fun hne => hne rfl⟩
    have hthere : (before.next, peer) ∈ keys.peers := List.mem_append_right _ (List.mem_singleton_self _)
    exact hfirst [] [.key key] rfl keys rfl _ hthere rfl

/-- A channel is read, closing it is broken off, and it is let go of: the key was first. -/
theorem parts_once_broken_off : ∃ (keys : KeySet String) (rs : List Release),
    KeySet.empty.register "127.0.0.1:4000" = (keys, 0)
    ∧ rs = releases (some (watched "agent@127.0.0.1:4000" () 0)) [.used, .brokenOff, .letGo]
    ∧ rs.count (.key 0) = 1 ∧ rs.count .stream = 1 ∧ KeyFirst keys 0 rs := by
  obtain ⟨hkey, hstream, -, hfirst⟩ := parts_once KeySet.empty "127.0.0.1:4000"
    "agent@127.0.0.1:4000" () [.used, .brokenOff, .letGo] ⟨.brokenOff, by decide, rfl⟩
  exact ⟨_, _, rfl, rfl, hkey, hstream, hfirst.2 (by decide)⟩

/-- A channel is read and let go of. Its stream goes while the loop still watches it under its key. -/
theorem let_go_while_watched : ∃ (keys : KeySet String) (key : Nat) (rs : List Release),
    KeySet.empty.register "127.0.0.1:4000" = (keys, key)
    ∧ rs = releases (some (watched "agent@127.0.0.1:4000" () key)) [.used, .letGo]
    ∧ rs = [.stream, .key key] ∧ (key, "127.0.0.1:4000") ∈ keys.peers ∧ ¬ KeyFirst keys key rs := by
  refine ⟨_, _, _, rfl, rfl, rfl, List.mem_singleton_self _, fun hfirst => ?_⟩
  exact hfirst [] _ rfl _ rfl _ (List.mem_singleton_self _) rfl

end Channel
end CommandLink
