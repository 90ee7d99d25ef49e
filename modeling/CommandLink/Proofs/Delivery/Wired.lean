import CommandLink.Proofs.Delivery.FarEnd
import CommandLink.Proofs.Delivery.Parcels
import CommandLink.Proofs.Codec
/-!
# Between a queue and the far ends

Whatever can happen in a net, what is on its way and what was done at the far ends of the streams
accords with what the queue has noted: the calls of a stream are the first of the requests that were
written over it, in that order, and no request is handed over twice.

Results:
* `Wired.next`: what the far end reads is a request that was put for its endpoint, and a new one.
* `wired_move`: all that can happen keeps the net in this order.
-/
namespace CommandLink

section
variable {χ σ : Type} {cs : List (Call χ σ)}

open Log

/-- A call is that of a request that was put. -/
structure Call.Known (log : List (Mark χ)) (c : Call χ σ) (r : Request) : Prop where
  put : (puts log)[c.number]? = some r
  frame : c.frame = r.parcel c.number
  request : c.request = r.arrived r.destination

theorem Call.number_of_frame {c : Call χ σ} {k : Nat} {r : Request} (h : c.frame = r.parcel k) :
    c.number = k := by
  obtain ⟨b, bs, hb⟩ := r.parcel_eq_cons k
  rw [number, h, hb]
  rfl

theorem Call.Known.grew {log shown log' : List (Mark χ)} {c : Call χ σ} {r : Request}
    (h : c.Known log r) (hlog : Grew log shown log') : c.Known log' r :=
  ⟨hlog.puts h.put, h.frame, h.request⟩

/-- The frames of calls are the parcels of their requests. -/
theorem flatMap_frame {log : List (Mark χ)} (h : ∀ c ∈ cs, ∃ r, c.Known log r) :
    cs.flatMap Call.frame = parcels (puts log) (cs.map Call.number) := by
  induction cs with
  | nil => rfl
  | cons c cs ih =>
    obtain ⟨r, hr⟩ := h c List.mem_cons_self
    rw [List.flatMap_cons, List.map_cons, parcels_cons hr.put, hr.frame,
      ih fun d hd => h d (List.mem_cons_of_mem _ hd)]

/-- Bytes are sent over a stream. -/
theorem Linked.sent {l : Line σ} {sent : List (Nat × UInt8)} {got : Bytes} (h : Linked l cs sent got)
    (k : Nat) (bs : Bytes) : Linked (l.sent k bs) cs (sent ++ bs.map (k, ·)) got := by
  refine ⟨?_, h.upto⟩
  rw [h.inbound]
  simp only [Line.sent, List.append_assoc]

/-- Bytes are taken from a stream. -/
theorem Linked.heard {l : Line σ} {sent : List (Nat × UInt8)} {got bs : Bytes}
    (h : Linked l cs sent got) (hb : bs <+: l.toClient) : Linked (l.heard bs) cs sent (got ++ bs) := by
  refine ⟨h.inbound, ?_⟩
  obtain ⟨rest, hrest⟩ := hb
  have hdrop : l.toClient.drop bs.length = rest := by rw [← hrest, List.drop_left]
  have hall : got ++ bs ++ (l.heard bs).toClient = got ++ l.toClient := by
    rw [Line.heard, hdrop, ← hrest, List.append_assoc]
  rw [hall]
  exact h.upto

end

namespace Net
variable {χ σ : Type} [DecidableEq χ] {n n' : Net χ σ} {x : χ} {l : Line σ}

open Log

/-- What holds between a queue and the far ends of its streams. -/
structure Wired (n : Net χ σ) : Prop where
  client : n.client.Reachable
  lined : ∀ x e, Leads n.client.log x e ↔ ∃ l, n.line x = some l ∧ l.service.endpoint = e
  linked : ∀ x l, n.line x = some l →
    Linked l (n.callsVia x) (writtenTo x n.client.log) (consumedFrom x n.client.log)
  called : ∀ c ∈ n.calls, (n.line c.via).isSome ∧ ∃ r, c.Known n.client.log r
  once : (n.calls.map Call.number).Nodup

/-- The queue does something that has no part in its streams. -/
theorem Wired.quiet (h : n.Wired) (shown : List (Mark χ)) (hreach : n'.client.Reachable)
    (hlog : Grew n.client.log shown n'.client.log) (hline : n'.line = n.line)
    (hcalls : n'.calls = n.calls) (habout : ∀ m ∈ shown, m.about? = none) : n'.Wired := by
  have hstill : ∀ x, Still x shown := fun x => still_of_about fun m hm he => by
    rw [habout m hm] at he
    cases he
  have hleads : ∀ x e, ¬ Leads shown x e := fun x e ⟨k, hm⟩ => by cases habout _ hm
  refine ⟨hreach, fun x e => ?_, fun x l hl => ?_, fun c hc => ?_, by rw [hcalls]; exact h.once⟩
  · rw [hlog.leads, hline, ← h.lined x e]
    exact ⟨fun hx => hx.resolve_right (hleads x e), .inl⟩
  · rw [hline] at hl
    rw [hlog.writtenTo, hlog.consumedFrom, (hstill x).writtenTo, (hstill x).consumedFrom,
      List.append_nil, List.append_nil, callsVia, hcalls]
    exact h.linked x l hl
  · rw [hcalls] at hc
    obtain ⟨hvia, r, hr⟩ := h.called c hc
    rw [hline]
    exact ⟨hvia, r, hr.grew hlog⟩

/-- The queue does something over a stream, be it a new one. -/
theorem Wired.used (h : n.Wired) {m : Mark χ} {l' : Line σ} (hreach : n'.client.Reachable)
    (hlog : Grew n.client.log [m] n'.client.log) (hline : n'.line = (n.setLine x l').line)
    (hcalls : n'.calls = n.calls) (hm : m.about? = some x)
    (hleads : ∀ e, Leads n'.client.log x e ↔ l'.service.endpoint = e)
    (hlinked : Linked l' (n.callsVia x) (writtenTo x n.client.log ++ writtenTo x [m])
      (consumedFrom x n.client.log ++ consumedFrom x [m])) : n'.Wired := by
  have habout : ∀ y, y ≠ x → ∀ m' ∈ [m], m'.about? ≠ some y := fun y hy m' hm' he => by
    rw [List.mem_singleton.1 hm', hm] at he
    exact hy (Option.some.inj he).symm
  have hself : n'.line x = some l' := by rw [hline, setLine_self]
  have hother : ∀ y, y ≠ x → n'.line y = n.line y := fun y hy => by rw [hline, setLine_of_ne n hy]
  refine ⟨hreach, fun y e => ?_, fun y l hl => ?_, fun c hc => ?_, by rw [hcalls]; exact h.once⟩
  · by_cases hy : y = x
    · subst hy
      rw [hleads e, hself]
      exact ⟨fun he => ⟨l', rfl, he⟩, fun ⟨l, hl, he⟩ => by cases hl; exact he⟩
    · rw [hlog.leads, hother y hy, ← h.lined y e]
      refine ⟨fun hx => hx.resolve_right ?_, .inl⟩
      rintro ⟨k, hm'⟩
      exact habout y hy _ hm' rfl
  · rw [hlog.writtenTo, hlog.consumedFrom, callsVia, hcalls]
    by_cases hy : y = x
    · subst hy
      rw [hself] at hl
      cases hl
      exact hlinked
    · have hstill := still_of_about (habout y hy)
      rw [hstill.writtenTo, hstill.consumedFrom, List.append_nil, List.append_nil]
      rw [hother y hy] at hl
      exact h.linked y l hl
  · rw [hcalls] at hc
    obtain ⟨hvia, r, hr⟩ := h.called c hc
    refine ⟨?_, r, hr.grew hlog⟩
    by_cases hy : c.via = x
    · rw [hy, hself]
      rfl
    · rwa [hother _ hy]

/-- What is no connection leaves where a stream leads. -/
theorem Wired.leads (h : n.Wired) {m : Mark χ} {log' : List (Mark χ)} {l' : Line σ}
    (hl : n.line x = some l) (hl' : l'.service = l.service) (hlog : Grew n.client.log [m] log')
    (hm : ∀ k e, m ≠ .connected k e x) (e : EndpointName) :
    Leads log' x e ↔ l'.service.endpoint = e := by
  rw [hlog.leads, h.lined x e, hl, hl']
  constructor
  · rintro (⟨l', hl', he⟩ | ⟨k, hm'⟩)
    · cases hl'
      exact he
    · exact absurd (List.mem_singleton.1 hm').symm (hm k e)
  · exact fun he => .inl ⟨l, rfl, he⟩

theorem Wired.unconnected (h : n.Wired) (hx : n.line x = none) :
    ∀ k e, .connected k e x ∉ n.client.log := fun k e hm => by
  obtain ⟨l, hl, -⟩ := (h.lined x e).1 ⟨k, hm⟩
  rw [hx] at hl
  cases hl

omit [DecidableEq χ] in
theorem grew_event (n : Net χ σ) {e : QueueEvent χ} {m : Mark χ}
    (h : Watched.shown n.number n.client.queue e = [m]) :
    Grew n.client.log [m] (n.client.event e).log := by
  rw [← h]
  exact Log.grew_event n.client e

/-- A stream is connected. -/
theorem wired_connect (h : n.Wired) {r : Request} {since : Nat}
    (hp : n.client.queue.phase = .connecting r since) {c : Channel χ} (hx : c.stream = some x)
    (fresh : n.line x = none) (v : Service σ) (hv : v.endpoint = r.destination) (name : String) :
    (n.event (.connected (.ok c)) x (.start v name)).Wired := by
  have hfresh := h.unconnected fresh
  have hshown : Watched.shown n.number n.client.queue (.connected (.ok c))
      = [.connected n.number r.destination x] := by
    simp only [Watched.shown, hp, hx]
    rfl
  have hlog := n.grew_event hshown
  have hnone : n.callsVia x = [] := by
    refine List.filter_eq_nil_iff.2 fun d hd he => ?_
    have hvia := (h.called d hd).1
    rw [show d.via = x by simpa using he, fresh] at hvia
    cases hvia
  have hstill : Still x n.client.log :=
    still_of_about ((Sight.books_reachable h.client).fresh hfresh).1
  refine h.used (m := .connected n.number r.destination x) ?_ hlog rfl rfl rfl (fun e => ?_) ?_
  · refine h.client.event _ ?_
    simp only [Watched.Fits, hp]
    exact ⟨x, hx, hfresh⟩
  · refine Iff.trans hlog.leads ⟨?_, ?_⟩
    · rintro (⟨k, hm⟩ | ⟨k, hm⟩)
      · exact absurd hm (hfresh k e)
      · cases List.mem_singleton.1 hm
        exact hv
    · rintro rfl
      rw [show (Line.start v name).service.endpoint = r.destination from hv]
      exact .inr ⟨_, List.mem_singleton_self _⟩
  · rw [hnone, hstill.writtenTo, hstill.consumedFrom]
    exact ⟨rfl, Frame.Intake.sound_start, rfl, fun d hd => absurd hd (by simp),
      fun p hp => absurd hp (by simp [replies]), rfl⟩

theorem wired_probe (h : n.Wired) {r : Request} {since : Nat} {c : Channel χ}
    (hp : n.client.queue.phase = .probing r since c) (hx : c.stream = some x)
    (hl : n.line x = some l) {s : Except IoError Frame.ReadStatus}
    (hs : Frame.bytesRead s <+: l.toClient) :
    (n.event (.probed s) x (l.heard (Frame.bytesRead s))).Wired := by
  have hshown : Watched.shown n.number n.client.queue (.probed s) = [.probed n.number x s] := by
    simp only [Watched.shown, hp, hx]
    rfl
  have hlog := n.grew_event hshown
  refine h.used (m := .probed n.number x s) (h.client.event _ ?_) hlog rfl rfl rfl
    (h.leads hl rfl hlog fun k e he => by cases he) ?_
  · simp only [Watched.Fits, hp]
  · have hw : writtenTo x [Mark.probed n.number x s] = [] := rfl
    have hc : consumedFrom x [Mark.probed n.number x s] = Frame.bytesRead s := by
      simp [consumedFrom, Mark.consumedFrom]
    rw [hw, hc, List.append_nil]
    exact (h.linked x l hl).heard hs

theorem wired_write (h : n.Wired) {r : Request} {since : Nat} {c : Channel χ} {o : Frame.Outgoing}
    {bs : Bytes} (hp : n.client.queue.phase = .sending r since c o) (hx : c.stream = some x)
    (hl : n.line x = some l) (ho : o.offered? = some bs) {a : Frame.Acceptance}
    (ha : ∀ k, a = .took k → k ≤ bs.length) :
    (n.event (.wrote a) x (l.sent n.number (a.bytesTaken bs))).Wired := by
  have hshown : Watched.shown n.number n.client.queue (.wrote a)
      = [.wrote n.number x bs a] := by
    simp only [Watched.shown, hp, hx, ho]
    rfl
  have hlog := n.grew_event hshown
  refine h.used (m := .wrote n.number x bs a) (h.client.event _ ?_) hlog rfl rfl rfl
    (h.leads hl rfl hlog fun k e he => by cases he) ?_
  · cases a with
    | took k =>
      simp only [Watched.Fits, hp]
      intro bs' hbs
      rw [ho] at hbs
      cases hbs
      exact ha k rfl
    | failed e => simp only [Watched.Fits, hp]
  · have hw : writtenTo x [Mark.wrote n.number x bs a] = (a.bytesTaken bs).map (n.number, ·) := by
      simp [writtenTo, Mark.writtenTo]
    have hc : consumedFrom x [Mark.wrote n.number x bs a] = [] := rfl
    rw [hw, hc, List.append_nil]
    exact (h.linked x l hl).sent _ _

theorem wired_read (h : n.Wired) {r : Request} {since : Nat} {c : Channel χ} {i : Frame.Intake}
    (hp : n.client.queue.phase = .awaiting r since c i) (hx : c.stream = some x)
    (hl : n.line x = some l) {s : Except IoError Frame.ReadStatus}
    (hs : Frame.bytesRead s <+: l.toClient) (hw : (Frame.bytesRead s).length ≤ i.wanted) :
    (n.event (.read s) x (l.heard (Frame.bytesRead s))).Wired := by
  have hshown : Watched.shown n.number n.client.queue (.read s) = [.read n.number x s] := by
    simp only [Watched.shown, hp, hx]
    rfl
  have hlog := n.grew_event hshown
  refine h.used (m := .read n.number x s) (h.client.event _ ?_) hlog rfl rfl rfl
    (h.leads hl rfl hlog fun k e he => by cases he) ?_
  · cases s with
    | error e => simp only [Watched.Fits, hp]
    | ok s =>
      cases s with
      | data bs =>
        simp only [Watched.Fits, hp]
        exact hw
      | _ => simp only [Watched.Fits, hp]
  · have hw : writtenTo x [Mark.read n.number x s] = [] := rfl
    have hc : consumedFrom x [Mark.read n.number x s] = Frame.bytesRead s := by
      simp [consumedFrom, Mark.consumedFrom]
    rw [hw, hc, List.append_nil]
    exact (h.linked x l hl).heard hs

/-- A byte that a call was read from, or that is on its way, was written over the stream. -/
theorem Wired.wrote (h : n.Wired) (hl : n.line x = some l) {b : Nat × UInt8}
    (hb : b ∈ (n.callsVia x).flatMap Call.frame ++ (l.frame ++ l.toServer)) :
    ∃ bs a, .wrote b.1 x bs a ∈ n.client.log := by
  refine mem_writtenTo ?_
  rw [(h.linked x l hl).inbound]
  exact hb

/-- The calls of a stream are the first of the requests that were written over it, and what is behind
them are the parcels of the others. -/
theorem Wired.behind (h : n.Wired) (hl : n.line x = some l) :
    ∃ ls, Shipment n.client.log x ((n.callsVia x).map Call.number ++ ls)
      ∧ l.frame ++ l.toServer <+: parcels (puts n.client.log) ls := by
  obtain ⟨ks, hship⟩ := Sight.shipment h.client ((h.lined x _).2 ⟨l, hl, rfl⟩)
  have hknown : ∀ c ∈ n.callsVia x, ∃ r, c.Known n.client.log r := fun c hc =>
    (h.called c (List.mem_filter.1 hc).1).2
  have hwritten := hship.written
  rw [(h.linked x l hl).inbound, flatMap_frame hknown] at hwritten
  have hcalls : ∀ k ∈ (n.callsVia x).map Call.number, ∃ r, (puts n.client.log)[k]? = some r :=
    fun k hk => by
      obtain ⟨c, hc, rfl⟩ := List.mem_map.1 hk
      obtain ⟨r, hr⟩ := hknown c hc
      exact ⟨r, hr.put⟩
  have hput : ∀ k ∈ ks, ∃ r, (puts n.client.log)[k]? = some r := fun k hk => by
    obtain ⟨r, hr, -⟩ := hship.meant k hk
    exact ⟨r, hr⟩
  obtain ⟨ls, rfl, hrest⟩ := parcels_begin hcalls hput hwritten
  exact ⟨ls, hship, hrest⟩

/-- What is on its way over a stream was not handed over before. -/
theorem Wired.unhanded (h : n.Wired) (hl : n.line x = some l) {k : Nat} {b : UInt8}
    (hb : (k, b) ∈ l.frame ++ l.toServer) (hk : k ∉ (n.callsVia x).map Call.number) :
    k ∉ n.calls.map Call.number := fun hbefore => by
  obtain ⟨c, hc, rfl⟩ := List.mem_map.1 hbefore
  obtain ⟨hline, r, hr⟩ := h.called c hc
  obtain ⟨l', hl'⟩ := Option.isSome_iff_exists.1 hline
  obtain ⟨b', bs, hb'⟩ := r.parcel_eq_cons c.number
  have hframe : (c.number, b') ∈ (n.callsVia c.via).flatMap Call.frame := by
    refine List.mem_flatMap.2 ⟨c, List.mem_filter.2 ⟨hc, by simp⟩, ?_⟩
    rw [hr.frame, hb']
    exact List.mem_cons_self
  obtain ⟨o, a, hthere⟩ := h.wrote hl' (List.mem_append_left _ hframe)
  obtain ⟨o', a', hhere⟩ := h.wrote hl (List.mem_append_right _ hb)
  -- a request is written over one stream
  have hvia : c.via = x :=
    (Sight.turn_reachable h.client).one c.number _ _ o o' a a' hthere hhere
  exact hk (List.mem_map.2 ⟨c, List.mem_filter.2 ⟨hc, by simpa using hvia⟩, rfl⟩)

/-- A frame that the far end reads is that of a request that was put for its endpoint, and none that
was handed over before. -/
theorem Wired.next (h : n.Wired) (hl : n.line x = some l) {e : Serving.Event} (fits : l.Fits e)
    {p : Bytes} (hp : l.serving.payload? l.name e = some p) :
    ∃ k r, (puts n.client.log)[k]? = some r ∧ l.taking e = r.parcel k ∧ p = r.encode
      ∧ r.destination = l.service.endpoint ∧ k ∉ n.calls.map Call.number := by
  obtain ⟨htaking, hfit⟩ := Line.taking_payload (h.linked x l hl).upto fits hp
  obtain ⟨ls, hship, hrest⟩ := h.behind hl
  have hbehind : l.frame ++ l.toServer
      = l.taking e ++ l.toServer.drop (Serving.bytesIn e).length := by
    rw [Line.taking, List.append_assoc, List.take_append_drop]
  rw [hbehind] at hrest
  have hfits : ∀ k ∈ ls, ∃ r, (puts n.client.log)[k]? = some r ∧ r.encode.length ≤ Frame.maxSize :=
    fun k hk => by
      obtain ⟨r, hr, hlen, -⟩ := hship.meant k (List.mem_append_right _ hk)
      exact ⟨r, hr, hlen⟩
  obtain ⟨k, r, ls, rfl, hr, hframe, rfl⟩ := next_parcel hfits hrest htaking hfit
  obtain ⟨r', hr', -, hleads⟩ := hship.meant k (List.mem_append_right _ List.mem_cons_self)
  obtain ⟨l', hl', hendpoint⟩ := (h.lined x _).1 hleads
  rw [hr] at hr'
  rw [hl] at hl'
  cases hr'
  cases hl'
  obtain ⟨b, bs, hb⟩ := r.parcel_eq_cons k
  refine ⟨k, r, hr, hframe, rfl, hendpoint.symm, h.unhanded hl (b := b) ?_ fun hk => ?_⟩
  · rw [hbehind, hframe, hb]
    exact List.mem_append_left _ List.mem_cons_self
  · -- the numbers over one stream are rising
    exact Nat.lt_irrefl k ((List.pairwise_append.1 hship.rising).2.2 k hk k List.mem_cons_self)

theorem callsVia_serve (n : Net χ σ) (x y : χ) (l : Line σ) (e : Serving.Event) :
    (n.serve x l e).callsVia y = n.callsVia y ++ if y = x then l.calls x e n.world else [] := by
  have hcalls : ∀ c ∈ l.calls x e n.world, c.via = x := fun c hc => by
    obtain ⟨r, -, rfl⟩ := List.mem_map.1 hc
    rfl
  rw [callsVia, callsVia, serve, List.filter_append]
  congr 1
  by_cases hy : y = x
  · rw [if_pos hy, List.filter_eq_self]
    intro c hc
    simpa [hy] using hcalls c hc
  · rw [if_neg hy, List.filter_eq_nil_iff]
    intro c hc he
    have hvia : c.via = y := by simpa using he
    exact hy (hvia.symm.trans (hcalls c hc))

/-- What happens at the far end makes no call, or that of a request that was put and not handed over
before. -/
theorem Wired.handed (h : n.Wired) (hl : n.line x = some l) {e : Serving.Event} (fits : l.Fits e) :
    l.calls x e n.world = [] ∨ ∃ (c : Call χ σ) (r : Request), l.calls x e n.world = [c] ∧ c.via = x
      ∧ c.Known n.client.log r ∧ c.number ∉ n.calls.map Call.number := by
  cases hp : l.serving.payload? l.name e with
  | none => exact .inl (l.serve_none hp x n.world).1
  | some p =>
    obtain ⟨k, r, hr, hframe, rfl, hdestination, hk⟩ := h.next hl fits hp
    have hd : Request.decode r.encode l.service.endpoint = .ok (r.arrived r.destination) := by
      rw [hdestination]
      exact r.decode_encode _
    obtain ⟨hcalls, -⟩ := l.serve_some hp hd x n.world
    have hnumber := Call.number_of_frame
      (c := ⟨x, l.service, l.taking e, r.arrived r.destination, n.world⟩) hframe
    refine .inr ⟨_, r, hcalls, rfl, ⟨?_, ?_, rfl⟩, ?_⟩
    · rwa [hnumber]
    · rw [hnumber]
      exact hframe
    · rwa [hnumber]

/-- Something happens at the far end of a stream. -/
theorem wired_serve (h : n.Wired) (hl : n.line x = some l) {e : Serving.Event} (fits : l.Fits e) :
    (n.serve x l e).Wired := by
  have hself : (n.serve x l e).line x = some (l.serve e n.world) := setLine_self n x _
  have hother : ∀ y, y ≠ x → (n.serve x l e).line y = n.line y := fun y hy => setLine_of_ne n hy _
  have hisSome : ∀ y, (n.line y).isSome → ((n.serve x l e).line y).isSome := fun y hy => by
    by_cases hyx : y = x
    · rw [hyx, hself]
      rfl
    · rwa [hother y hyx]
  refine ⟨h.client, fun y e' => ?_, fun y l' hl' => ?_, fun c hc => ?_, ?_⟩
  · refine Iff.trans (h.lined y e') ?_
    by_cases hy : y = x
    · subst hy
      rw [hself, hl]
      exact ⟨fun ⟨_, he, hs⟩ => ⟨_, rfl, by cases he; exact hs⟩,
        fun ⟨_, he, hs⟩ => ⟨_, rfl, by cases he; exact hs⟩⟩
    · rw [hother y hy]
  · rw [callsVia_serve]
    by_cases hy : y = x
    · subst hy
      rw [hself] at hl'
      cases hl'
      rw [if_pos rfl]
      refine linked_serve y n.world (h.linked y l hl) fits fun p hp => ?_
      obtain ⟨k, r, -, -, rfl, -⟩ := h.next hl fits hp
      exact ⟨_, r.decode_encode _⟩
    · rw [if_neg hy, List.append_nil]
      rw [hother y hy] at hl'
      exact h.linked y l' hl'
  · rcases List.mem_append.1 hc with hc | hc
    · exact ⟨hisSome _ (h.called c hc).1, (h.called c hc).2⟩
    rcases h.handed hl fits with hnone | ⟨d, r, hd, hvia, hknown, -⟩
    · rw [hnone] at hc
      cases hc
    · rw [hd] at hc
      cases List.mem_singleton.1 hc
      exact ⟨by rw [hvia, hself]; rfl, r, hknown⟩
  · show ((n.calls ++ l.calls x e n.world).map Call.number).Nodup
    rcases h.handed hl fits with hnone | ⟨d, r, hd, -, -, hnew⟩
    · rw [hnone, List.append_nil]
      exact h.once
    · rw [hd, List.map_append, List.map_singleton]
      refine List.nodup_append.2 ⟨h.once, by simp, fun a ha b hb hab => ?_⟩
      rw [hab, List.mem_singleton.1 hb] at ha
      exact hnew ha

theorem wired_move (h : n.Wired) (move : Move n n') : n'.Wired := by
  cases move with
  | put r =>
    exact h.quiet _ (h.client.put r) (grew_put n.client r) rfl rfl fun m hm => by
      rw [List.mem_singleton.1 hm]
      rfl
  | takeNumber =>
    exact h.quiet [] h.client.takeNumber ⟨[], 0, none, (List.append_nil _).symm⟩ rfl rfl
      fun m hm => absurd hm (by simp)
  | deliver c taken =>
    exact h.quiet [] (h.client.deliver c taken) ⟨[], 0, none, (List.append_nil _).symm⟩
      rfl rfl fun m hm => absurd hm (by simp)
  | shutdown =>
    exact h.quiet [] h.client.shutdown ⟨[], 0, none, (List.append_nil _).symm⟩ rfl rfl
      fun m hm => absurd hm (by simp)
  | turn =>
    have hlog := Log.grew_event n.client .turn
    rw [Watched.shown_turn] at hlog
    refine h.quiet _ (h.client.event .turn ?_) hlog rfl rfl fun m hm => absurd hm (by simp)
    unfold Watched.Fits
    split <;> trivial
  | @refuse r since hp e =>
    have hlog := Log.grew_event n.client (.connected (.error e))
    have hshown : Watched.shown (Log.number n.client.log) n.client.queue (.connected (.error e))
        = [] := by simp only [Watched.shown, hp]
    rw [hshown] at hlog
    refine h.quiet _ (h.client.event _ ?_) hlog rfl rfl fun m hm => absurd hm (by simp)
    simp only [Watched.Fits, hp]
  | connect hp hx fresh v hv name => exact wired_connect h hp hx fresh v hv name
  | probe hp hx hl s hs => exact wired_probe h hp hx hl hs
  | write hp hx hl ho a ha => exact wired_write h hp hx hl ho ha
  | read hp hx hl s hs hw => exact wired_read h hp hx hl hs hw
  | serve hl e fits => exact wired_serve h hl fits
  | elapse s => exact ⟨h.client, h.lined, h.linked, h.called, h.once⟩

theorem wired_reachable (h : n.Reachable) : n.Wired := by
  induction h with
  | start s =>
    refine ⟨.start, fun x e => ⟨?_, ?_⟩, fun x l hl => (by cases hl), fun c hc => absurd hc (by simp
      [start]), .nil⟩
    · rintro ⟨k, hm⟩
      exact absurd hm (by simp [start])
    · rintro ⟨l, hl, -⟩
      cases hl
  | step _ move ih => exact wired_move ih move

end Net
end CommandLink
