import CommandLink.Proofs.Queue.Route
/-!
# Parcels

The frame of a request, each byte with the number of the request: a parcel. What a queue writes over a
stream are parcels one after another, with rising numbers, of which the last may be cut short. Whoever
reads complete frames off the stream reads these parcels.

Results:
* `parcels_begin`, `next_parcel`: complete frames at the beginning of parcels are the first of them.
* `shipment`: what a queue writes over a stream, and what it reads.
-/
namespace CommandLink

/-- The frame of a request, each byte with the request's number. -/
def Request.parcel (k : Nat) (r : Request) : List (Nat × UInt8) :=
  (Frame.ofPayload r.encode).map (k, ·)

theorem Request.parcel_eq_cons (k : Nat) (r : Request) : ∃ b bs, r.parcel k = (k, b) :: bs := by
  obtain ⟨b, bs, h⟩ := List.exists_cons_of_ne_nil (Frame.ofPayload_ne_nil r.encode)
  exact ⟨b, bs.map (k, ·), by rw [parcel, h, List.map_cons]⟩

theorem Request.map_snd_parcel (k : Nat) (r : Request) :
    (r.parcel k).map Prod.snd = Frame.ofPayload r.encode := by
  simp [parcel, Function.comp_def]

/-- The parcels of the requests with some numbers. -/
def parcels (puts : List Request) (ks : List Nat) : List (Nat × UInt8) :=
  ks.flatMap fun k => puts[k]?.elim [] (Request.parcel k)

section
variable {puts : List Request} {rest : List (Nat × UInt8)}

theorem parcels_cons {k : Nat} {r : Request} (h : puts[k]? = some r) (ks : List Nat) :
    parcels puts (k :: ks) = r.parcel k ++ parcels puts ks := by
  rw [parcels, List.flatMap_cons, h]
  rfl

theorem parcels_append (js ks : List Nat) :
    parcels puts (js ++ ks) = parcels puts js ++ parcels puts ks := List.flatMap_append

/-- Parcels at the beginning of parcels: they are the first of them. -/
theorem parcels_begin {js ks : List Nat} (hj : ∀ k ∈ js, ∃ r, puts[k]? = some r)
    (hk : ∀ k ∈ ks, ∃ r, puts[k]? = some r) (h : parcels puts js ++ rest <+: parcels puts ks) :
    ∃ ls, ks = js ++ ls ∧ rest <+: parcels puts ls := by
  induction js generalizing ks with
  | nil => exact ⟨ks, rfl, h⟩
  | cons j js ih =>
    obtain ⟨r, hr⟩ := hj j List.mem_cons_self
    obtain ⟨b, bs, hb⟩ := r.parcel_eq_cons j
    cases ks with
    | nil =>
      rw [parcels_cons hr, hb] at h
      obtain ⟨t, ht⟩ := h
      cases ht
    | cons k ks =>
      obtain ⟨r', hr'⟩ := hk k List.mem_cons_self
      obtain ⟨b', bs', hb'⟩ := r'.parcel_eq_cons k
      -- the numbers tell which parcel comes first
      have hjk : j = k := by
        rw [parcels_cons hr, parcels_cons hr', hb, hb'] at h
        obtain ⟨t, ht⟩ := h
        exact congrArg Prod.fst (List.cons.inj ht).1
      subst hjk
      rw [parcels_cons hr, parcels_cons hr, List.append_assoc] at h
      obtain ⟨ls, rfl, hrest⟩ := ih (fun k hk' => hj k (List.mem_cons_of_mem _ hk'))
        (fun k hk' => hk k (List.mem_cons_of_mem _ hk')) ((List.prefix_append_right_inj _).1 h)
      exact ⟨ls, rfl, hrest⟩

/-- A complete frame at the beginning of parcels is the first of them. -/
theorem next_parcel {ks : List Nat} {f : List (Nat × UInt8)} {p : Bytes}
    (hk : ∀ k ∈ ks, ∃ r, puts[k]? = some r ∧ r.encode.length ≤ Frame.maxSize)
    (h : f ++ rest <+: parcels puts ks) (hf : f.map Prod.snd = Frame.ofPayload p)
    (hp : p.length ≤ Frame.maxSize) :
    ∃ k r ls, ks = k :: ls ∧ puts[k]? = some r ∧ f = r.parcel k ∧ p = r.encode := by
  obtain ⟨t, ht⟩ := h
  cases ks with
  | nil =>
    have hnil : f = [] := (List.append_eq_nil_iff.1 (List.append_eq_nil_iff.1 ht).1).1
    rw [hnil] at hf
    exact absurd hf.symm (Frame.ofPayload_ne_nil p)
  | cons k ls =>
    obtain ⟨r, hr, hl⟩ := hk k List.mem_cons_self
    rw [parcels_cons hr, List.append_assoc] at ht
    have hbytes := congrArg (List.map Prod.snd) ht
    rw [List.map_append, List.map_append, List.map_append, hf, r.map_snd_parcel k] at hbytes
    obtain ⟨rfl, -⟩ := Frame.ofPayload_append_inj hp hl hbytes
    have hlen : f.length = (r.parcel k).length := by
      have := congrArg List.length (hf.trans (r.map_snd_parcel k).symm)
      rwa [List.length_map, List.length_map] at this
    exact ⟨k, r, ls, rfl, hr, (List.append_inj ht hlen).1, rfl⟩

end

namespace Log
variable {χ : Type} [DecidableEq χ] {x : χ} {log : List (Mark χ)}

theorem mem_writtenTo {b : Nat × UInt8} (h : b ∈ writtenTo x log) :
    ∃ bs a, .wrote b.1 x bs a ∈ log := by
  obtain ⟨m, hm, hb⟩ := List.mem_flatMap.1 h
  cases m with
  | wrote k y bs a =>
    simp only [Mark.writtenTo] at hb
    split at hb
    · next hy =>
      obtain ⟨c, -, rfl⟩ := List.mem_map.1 hb
      subst hy
      exact ⟨bs, a, hm⟩
    · cases hb
  | _ => cases hb

/-- What went over a stream: the parcels of some requests, of which the last may be cut short, and
frames that are the responses to those that were completed. -/
structure Shipment (log : List (Mark χ)) (x : χ) (ks : List Nat) : Prop where
  rising : ks.Pairwise (· < ·)
  meant : ∀ k ∈ ks, Meant log k x
  written : writtenTo x log <+: parcels (puts log) ks
  completed : (exchanges x log).map Prod.fst <+: ks
  consumed : ∃ ps, Frame.Fit ps
    ∧ ps.map Response.decode = (answers (exchanges x log)).map Except.ok
    ∧ Frame.stream ps <+: consumedFrom x log

end Log

namespace Sight
variable {χ : Type} [DecidableEq χ] {s : Sight χ} {x : χ}

open Log

omit [DecidableEq χ] in
/-- The frames of completed requests are their parcels. -/
theorem frames_eq_parcels (ho : s.InOrder) (hn : Numbered s.log) {es : List (Nat × Ending)}
    (hes : ∀ e ∈ es, .ended e.1 (some x) e.2 ∈ s.log) :
    frames es = parcels (puts s.log) (es.map Prod.fst) := by
  induction es with
  | nil => rfl
  | cons e es ih =>
    obtain ⟨r, hr, hbare⟩ := ho.ended hn (hes e List.mem_cons_self)
    rw [List.map_cons, parcels_cons hr, ← ih fun e' he' => hes e' (List.mem_cons_of_mem _ he'),
      Request.parcel, Request.encode_bare hbare]
    rfl

/-- Whatever became of a stream, it has an account. -/
theorem Books.account (hb : s.Books) {e : EndpointName} (hx : Leads s.log x e) :
    ∃ last got, Account s.log x last got := by
  obtain ⟨k, hm⟩ := hx
  rcases hb.known k e x hm with hheld | hgone
  · obtain ⟨last, got, hkept⟩ := hb.held hheld
    exact ⟨last, got, hkept.account⟩
  · obtain ⟨last, got, haccount, -⟩ := hgone.account
    exact ⟨last, got, haccount⟩

/-- What was written over a stream was written for requests that are meant for it. -/
theorem written_meant {w : Watched χ} (h : w.Reachable) {b : Nat × UInt8}
    (hb : b ∈ writtenTo x w.log) : Meant w.log b.1 x := by
  obtain ⟨bs, a, hm⟩ := mem_writtenTo hb
  exact (routed_reachable h).wrote b.1 x bs a hm

/-- What was written over a stream, as parcels. -/
theorem writtenTo_eq_parcels {w : Watched χ} (h : w.Reachable) {last : Option Nat} {got : Bytes}
    (ha : Account w.log x last got) : writtenTo x w.log
      = parcels (puts w.log) ((exchanges x w.log).map Prod.fst) ++ lastBytes last w.log := by
  have hframes := frames_eq_parcels (x := x) (inOrder_reachable h) (numbered_reachable h)
    fun e he => (exchange_lt (numbered_reachable h) he).2.1
  exact ha.written.trans (congrArg (· ++ _) hframes)

/-- A request that was completed over a stream is meant for it. -/
theorem exchange_meant {w : Watched χ} (h : w.Reachable) {last : Option Nat} {got : Bytes}
    (ha : Account w.log x last got) {k : Nat} (hk : k ∈ (exchanges x w.log).map Prod.fst) :
    Meant w.log k x := by
  have hmem := hk
  obtain ⟨e, he, rfl⟩ := List.mem_map.1 hk
  have hended := (exchange_lt (numbered_reachable h) he).2.1
  obtain ⟨r, hr, -⟩ := (inOrder_reachable h).ended (numbered_reachable h) hended
  have hput : (puts w.log)[e.1]? = some r := hr
  obtain ⟨b, bs, hb⟩ := r.parcel_eq_cons e.1
  refine written_meant h (b := (e.1, b)) ?_
  rw [writtenTo_eq_parcels h ha]
  refine List.mem_append_left _ (List.mem_flatMap.2 ⟨e.1, hmem, ?_⟩)
  rw [hput, Option.elim, hb]
  exact List.mem_cons_self

/-- So is one that was written in part. -/
theorem last_meant {w : Watched χ} (h : w.Reachable) {k : Nat} {got : Bytes}
    (ha : Account w.log x (some k) got) (hlast : lastBytes (some k) w.log ≠ []) :
    Meant w.log k x := by
  obtain ⟨b, bs, hb⟩ := List.exists_cons_of_ne_nil hlast
  have hmem : b ∈ lastBytes (some k) w.log := by
    rw [hb]
    exact List.mem_cons_self
  obtain ⟨c, -, rfl⟩ := List.mem_map.1 hmem
  refine written_meant h (b := (k, c)) ?_
  rw [ha.written]
  exact List.mem_append_right _ hmem

theorem shipment {w : Watched χ} (h : w.Reachable) {e : EndpointName} (hx : Leads w.log x e) :
    ∃ ks, Shipment w.log x ks := by
  obtain ⟨last, got, haccount⟩ : ∃ last got, Account w.log x last got := (books_reachable h).account hx
  obtain ⟨ps, hfit, hdecode, hstream⟩ := haccount.consumed
  have hwritten := writtenTo_eq_parcels h haccount
  have hconsumed : ∃ ps, Frame.Fit ps
      ∧ ps.map Response.decode = (answers (exchanges x w.log)).map Except.ok
      ∧ Frame.stream ps <+: consumedFrom x w.log :=
    ⟨ps, hfit, hdecode, got, hstream.symm⟩
  by_cases hlast : lastBytes last w.log = []
  · refine ⟨_, ?_, fun k hk => exchange_meant h haccount hk, ?_, List.prefix_refl _, hconsumed⟩
    · exact (List.pairwise_append.1 haccount.rising).1
    · rw [hlast, List.append_nil] at hwritten
      exact hwritten ▸ List.prefix_refl _
  · cases last with
    | none => exact absurd rfl hlast
    | some k =>
      have hthis := last_meant h haccount hlast
      refine ⟨(exchanges x w.log).map Prod.fst ++ [k], haccount.rising, fun j hj => ?_, ?_,
        List.prefix_append _ _, hconsumed⟩
      · rcases List.mem_append.1 hj with hj | hj
        · exact exchange_meant h haccount hj
        · rw [List.mem_singleton.1 hj]
          exact hthis
      · obtain ⟨r, hr, -⟩ := hthis
        rw [hwritten, parcels_append, parcels_cons hr]
        refine (List.prefix_append_right_inj _).2 ?_
        have hpre := writtenBy_begins (numbered_reachable h) (inOrder_reachable h)
          (inFlight_reachable h) (outcomes_reachable h) hr
        exact (hpre.map (k, ·)).trans (List.prefix_append _ _)

end Sight
end CommandLink
