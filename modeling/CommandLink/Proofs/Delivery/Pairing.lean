import CommandLink.Proofs.Delivery.Wired
/-!
# Requests and their responses

In a net, a request reaches the receivers at most once, and where one that waits for a response is
completed, it has reached them and its listeners get the response that was given to it and to no
other. Responses bear no mark of their requests: that they belong together follows from their places
in the streams.

Results:
* `paired_of_order`: responses that are read in the order in which requests were written belong to
  these.
* `paired_once`: what this comes to in a net.
-/
namespace CommandLink

open Log

section
variable {χ σ : Type} {cs : List (Call χ σ)} {es : List (Nat × Ending)}

/-- A completed request has a response just if it waits for one. -/
def Ending.Proper (e : Ending) : Prop :=
  match e.request.mode with
  | .response => e.response.isSome
  | .noResponse => e.response = none

theorem Outcome.proper {written read : Bytes} {e : Ending} (h : Outcome written read e)
    (he : e.request.progress = .completed) : e.Proper := by
  cases h with
  | delivered hm => simp only [Ending.Proper, Ending.completed, hm]
  | answered hm =>
    simp only [Ending.Proper, Ending.completed, hm]
    rfl
  | malformed => cases he
  | broken => cases he

/-- The answers to completed requests, the first of which waits for none. -/
theorem answers_cons_none {e : Nat × Ending} (h : e.2.response = none) (es : List (Nat × Ending)) :
    answers (e :: es) = answers es := List.filterMap_cons_none h

theorem answers_cons_some {e : Nat × Ending} {r : Response} (h : e.2.response = some r)
    (es : List (Nat × Ending)) : answers (e :: es) = r :: answers es := List.filterMap_cons_some h

/-- Where there is no answer, no request has waited for one. -/
theorem Ending.Proper.answers_ne_nil {e : Nat × Ending} (h : e.2.Proper) (he : e ∈ es)
    (hm : e.2.request.mode = .response) : answers es ≠ [] := fun hnil => by
  simp only [Ending.Proper, hm] at h
  have hnone := List.filterMap_eq_nil_iff.1 hnil e he
  rw [hnone] at h
  cases h

/-- Requests were completed and calls were made in the order of the same numbers, and the answers to
the completed ones are the first of the replies to the calls. Then each answer is the reply to the
call of its request. -/
theorem paired_of_order {ks : List Nat} (he : es.map Prod.fst <+: ks)
    (hc : cs.map Call.number <+: ks)
    (hmode : ∀ e ∈ es, ∀ c ∈ cs, c.number = e.1 → c.request.mode = e.2.request.mode)
    (hproper : ∀ e ∈ es, e.2.Proper) (h : answers es <+: replies cs) :
    ∀ e ∈ es, e.2.request.mode = .response →
      ∃ c ∈ cs, c.number = e.1 ∧ c.response = e.2.response := by
  induction es generalizing cs ks with
  | nil => exact fun e he => absurd he (by simp)
  | cons e es ih =>
    intro e' he' hm'
    have hne := (hproper e' he').answers_ne_nil he' hm'
    -- there is a reply, so there is a call, and it is that of the first request
    have hreplies : replies cs ≠ [] := fun hnil => by
      rw [hnil, List.prefix_nil] at h
      exact hne h
    cases cs with
    | nil => exact absurd rfl hreplies
    | cons c cs =>
      cases ks with
      | nil => exact absurd (List.prefix_nil.1 he) (by simp)
      | cons k ks =>
        rw [List.map_cons] at he hc
        obtain ⟨hek, he⟩ := List.cons_prefix_cons.1 he
        obtain ⟨hck, hc⟩ := List.cons_prefix_cons.1 hc
        have hmode' := hmode e List.mem_cons_self c List.mem_cons_self (hck.trans hek.symm)
        have hrest : answers es <+: replies cs → e' ∈ es →
            ∃ c' ∈ c :: cs, c'.number = e'.1 ∧ c'.response = e'.2.response := fun h he' => by
          obtain ⟨c', hc', hthis⟩ := ih he hc
            (fun e he c hc => hmode e (List.mem_cons_of_mem _ he) c (List.mem_cons_of_mem _ hc))
            (fun e he => hproper e (List.mem_cons_of_mem _ he)) h e' he' hm'
          exact ⟨c', List.mem_cons_of_mem _ hc', hthis⟩
        have hfirst := hproper e List.mem_cons_self
        cases hr : c.response with
        | none => exact absurd (replies_cons_none hr cs) hreplies
        | some r =>
          cases hm : e.2.request.mode with
          | noResponse =>
            rw [hm] at hmode'
            simp only [Ending.Proper, hm] at hfirst
            rw [answers_cons_none hfirst, replies_cons_noResponse hr hmode'] at h
            rcases List.mem_cons.1 he' with rfl | he'
            · rw [hm] at hm'
              cases hm'
            · exact hrest h he'
          | response =>
            rw [hm] at hmode'
            simp only [Ending.Proper, hm] at hfirst
            obtain ⟨r', hr'⟩ := Option.isSome_iff_exists.1 hfirst
            rw [answers_cons_some hr', replies_cons_response hr hmode'] at h
            obtain ⟨hreply, hbehind⟩ := List.cons_prefix_cons.1 h
            rcases List.mem_cons.1 he' with rfl | he'
            · exact ⟨c, List.mem_cons_self, hck.trans hek.symm, by rw [hr, hr', hreply]⟩
            · exact hrest hbehind he'

end

namespace Net
variable {χ σ : Type} [DecidableEq χ] {n : Net χ σ} {x : χ} {l : Line σ}

/-- The answers that were read over a stream are the first of the replies to its calls. -/
theorem Wired.answers_begin (h : n.Wired) (hl : n.line x = some l) :
    answers (exchanges x n.client.log) <+: replies (n.callsVia x) := by
  obtain ⟨ls, hship, -⟩ := h.behind hl
  obtain ⟨ps, hps, hdecode, hread⟩ := hship.consumed
  obtain ⟨rs, hrs, hfit, hout⟩ := (h.linked x l hl).upto.partly
  obtain ⟨rest, hrest⟩ := (hread.trans (List.prefix_append _ l.toClient)).trans hout
  -- the frames that were read are the first of those that were written back
  obtain ⟨read, hfirst, rfl⟩ := List.prefix_map_iff.1 (Frame.stream_begins hps hfit hrest)
  have hok : (answers (exchanges x n.client.log)).map Except.ok
      = read.map (Except.ok (ε := LinkError)) := by
    rw [← hdecode, List.map_map]
    exact List.map_congr_left fun r _ => Response.decode_encode r
  rw [(List.map_inj_right fun _ _ he => Except.ok.inj he).1 hok]
  exact hfirst.trans hrs

theorem mem_exchanges {log : List (Mark χ)} {k : Nat} {e : Ending}
    (hm : .ended k (some x) e ∈ log) (he : e.request.progress = .completed) :
    (k, e) ∈ exchanges x log :=
  List.mem_filterMap.2 ⟨_, hm, by simp [Mark.exchange?, he]⟩

/-- A call and a completed request with the same number are of the same request. -/
theorem Wired.same_request (h : n.Wired) {e : Nat × Ending} (he : e ∈ exchanges x n.client.log)
    {c : Call χ σ} (hc : c ∈ n.calls) (hnumber : c.number = e.1) :
    c.request = e.2.request.arrived e.2.request.destination := by
  have hn := Sight.numbered_reachable h.client
  obtain ⟨-, r, hr⟩ := h.called c hc
  obtain ⟨r', hr', hbare⟩ :=
    (Sight.inOrder_reachable h.client).ended hn (Sight.exchange_lt hn he).2.1
  have hput := hr.put
  rw [hnumber, show (puts n.client.log)[e.1]? = some r' from hr'] at hput
  cases hput
  rw [hr.request]
  exact congrArg (fun r => r.arrived r.destination) hbare

/-- A completed request that waits for a response has reached the receivers, and its response is the
one that was given to it. -/
theorem Wired.paired (h : n.Wired) {k : Nat} {e : Ending}
    (hm : .ended k (some x) e ∈ n.client.log) (hcompleted : e.request.progress = .completed)
    (hmode : e.request.mode = .response) :
    ∃ c ∈ n.callsVia x, c.number = k ∧ c.request = e.request.arrived e.request.destination
      ∧ c.response.isSome ∧ e.response = c.response := by
  obtain ⟨j, endpoint, hconnected⟩ := (Sight.books_reachable h.client).introduced _ hm x rfl
  obtain ⟨l, hl, -⟩ := (h.lined x endpoint).1 ⟨j, hconnected⟩
  obtain ⟨ls, hship, -⟩ := h.behind hl
  have hproper : ∀ e' ∈ exchanges x n.client.log, e'.2.Proper := fun e' he' => by
    obtain ⟨-, hended, hprogress⟩ := Sight.exchange_lt (Sight.numbered_reachable h.client) he'
    exact (Sight.outcomes_reachable h.client _ _ _ hended).proper hprogress
  have hmodes : ∀ e' ∈ exchanges x n.client.log, ∀ c ∈ n.callsVia x, c.number = e'.1 →
      c.request.mode = e'.2.request.mode := fun e' he' c hc hnumber => by
    rw [h.same_request he' (List.mem_filter.1 hc).1 hnumber]
    rfl
  have hthis := mem_exchanges hm hcompleted
  obtain ⟨c, hc, hnumber, hresponse⟩ := paired_of_order hship.completed (List.prefix_append _ ls)
    hmodes hproper (h.answers_begin hl) (k, e) hthis hmode
  have hisSome := hproper _ hthis
  simp only [Ending.Proper, hmode] at hisSome
  exact ⟨c, hc, hnumber, h.same_request hthis (List.mem_filter.1 hc).1 hnumber,
    by rw [hresponse]; exact hisSome, hresponse.symm⟩

/-- Each call is made of the whole frame of one request that was put, and it is this request as it
arrives at its endpoint; no two calls are made of one request. Where a request that waits for a
response is completed, there is a call of it, over its stream, and it ends with the response that
dispatching this call has given; its listeners are told so. The calls are what the receivers saw: what
happens next leaves their world alone, or it is the next call, dispatched in that world, or their world
moves by itself. -/
theorem paired_once (h : n.Reachable) :
    (∀ c ∈ n.calls, ∃ r, (puts n.client.log)[c.number]? = some r ∧ c.frame = r.parcel c.number
      ∧ c.request = r.arrived r.destination)
    ∧ (n.calls.map Call.number).Nodup
    ∧ (∀ k via e, .ended k via e ∈ n.client.log → e.request.progress = .completed →
        e.request.mode = .response →
        ∃ c ∈ n.calls, c.number = k ∧ via = some c.via
          ∧ c.request = e.request.arrived e.request.destination
          ∧ c.response.isSome ∧ e.response = c.response
          ∧ ∀ m ∈ e.notices, m.response = c.response)
    ∧ ∀ n', Move n n' → (∃ s, n' = { n with world := s })
        ∨ (n'.calls = n.calls ∧ n'.world = n.world)
        ∨ ∃ c, n'.calls = n.calls ++ [c] ∧ c.world = n.world ∧ n'.world = c.after := by
  have hw := wired_reachable h
  refine ⟨fun c hc => ?_, hw.once, fun k via e hm hcompleted hmode => ?_, fun _ => calls_move⟩
  · obtain ⟨-, r, hr⟩ := hw.called c hc
    exact ⟨r, hr.put, hr.frame, hr.request⟩
  · cases via with
    | none =>
      have hfailed := Sight.unserved_reachable hw.client k e hm
      rw [hcompleted] at hfailed
      cases hfailed
    | some x =>
      obtain ⟨c, hc, hnumber, hrequest, hisSome, hresponse⟩ := hw.paired hm hcompleted hmode
      obtain ⟨hmem, hvia⟩ := List.mem_filter.1 hc
      have hvia : c.via = x := by simpa using hvia
      refine ⟨c, hmem, hnumber, congrArg some hvia.symm, hrequest, hisSome, hresponse,
        fun m hm => ?_⟩
      obtain ⟨-, -, hm⟩ := Ending.mem_notices.1 hm
      rw [hm, hresponse]

/-- A request to a receiver that nobody has registered. -/
def stray : Request := (Request.start .agent "Echo" "ping").addListener ⟨"a", false⟩

/-- The answer to it. -/
def unheardOf : Response := .error "unknown receiver 'Echo'"

set_option maxRecDepth 2000 in
/-- A request goes to a service without receivers, and the answer comes back. -/
theorem reachable_unheardOf : ∃ n : Net Nat Unit, n.Reachable
    ∧ endings n.client.log
      = [.completed { stray with progress := .inFlight } (some unheardOf)] := by
  have hconnecting := (((Reachable.start (χ := Nat) ()).step (.put stray)).step .turn).step .turn
  have hsending := hconnecting.step
    (.connect (c := .opened "c" 0) (x := 0) rfl rfl rfl ⟨.agent, .empty⟩ rfl "d")
  have hasked := (hsending.step (.write (x := 0) rfl rfl rfl rfl (.took 4)
      (fun k hk => by cases hk; decide))).step
    (.write (x := 0) rfl rfl rfl rfl (.took 74) (fun k hk => by cases hk; decide))
  have hheader := hasked.step (.serve (x := 0) rfl (.read (.ok (.data (Bytes.big32 74))))
    (by exact Line.fits_data rfl ⟨stray.encode, rfl⟩ (Nat.le_refl 4)))
  have hcalled := hheader.step (.serve (x := 0) rfl (.read (.ok (.data stray.encode)))
    (by exact Line.fits_data rfl ⟨[], rfl⟩ (Nat.le_refl 74)))
  have hreplied := (hcalled.step (.serve (x := 0) rfl (.wrote (.took 4))
      (by exact Line.fits_took (by decide +kernel)))).step
    (.serve (x := 0) rfl (.wrote (.took 52)) (by exact Line.fits_took (by decide +kernel)))
  have hdone := (hreplied.step (.read (x := 0) rfl rfl rfl (.ok (.data (Bytes.big32 52)))
      (by decide +kernel) (by decide +kernel))).step
    (.read (x := 0) rfl rfl rfl (.ok (.data unheardOf.encode)) (by decide +kernel)
      (by decide +kernel))
  exact ⟨_, hdone, by decide +kernel⟩

theorem paired_once_unheardOf : ∃ n : Net Nat Unit, n.Reachable
    ∧ ∃ c ∈ n.calls, c.request = stray.arrived .agent ∧ c.response = some unheardOf := by
  obtain ⟨n, hreach, hendings⟩ := reachable_unheardOf
  have hended : .completed { stray with progress := .inFlight } (some unheardOf)
      ∈ endings n.client.log := by rw [hendings]; exact List.mem_singleton_self _
  obtain ⟨k, via, hm⟩ := mem_endings hended
  obtain ⟨-, -, hpaired, -⟩ := paired_once hreach
  obtain ⟨c, hc, -, -, hrequest, -, hresponse, -⟩ := hpaired k via _ hm rfl rfl
  exact ⟨n, hreach, c, hc, hrequest, hresponse.symm⟩

end Net
end CommandLink
