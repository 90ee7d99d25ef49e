import CommandLink.Proofs.Codec
import CommandLink.Proofs.RequestText
import CommandLink.Proofs.Text.ByteOrder
/-!
# One form for each request

However a request came to be, by setting its parameters one after another or out of a frame, its bytes
depend on what it says alone. What has been set is kept as a list here, of which the request shows only
what was set last under each name.

Results:
* `decode_settings`: the parameters of a decoded request are those that its frame sets, in their order.
* `settings_said`: for a frame that is an object, these are the members of the object of parameters.
* `same_bytes_iff`: which requests have the same bytes, and the form in which their parameters are.
-/
namespace CommandLink
namespace Request
open Json (Value Spells Takes Holds valuesUnder)

variable {r : Request} {whole : Bytes} {destination : EndpointName} {name : String}
  {ms : List (String × Value)} {sets sets' : List (String × String)}

/-! ## Frames read in full -/

/-- A draft that keeps the parameters as they stand in the frame. -/
structure Sheet where
  receiver : Option String := none
  action : Option String := none
  settings : Option (List (String × String)) := none
  mode : Option DeliveryMode := none

/-- What a request makes of them. -/
def Sheet.draft (d : Sheet) : Draft :=
  ⟨d.receiver, d.action, d.settings.map Table.ofList, d.mode⟩

/-- What a frame says of a request, with all that it sets. -/
def sheet : Json.Schema Sheet (String × String × List (String × String) × DeliveryMode) where
  name := "RequestFrame"
  start := {}
  fields := [
    { name := "receiver"
      optional := false
      isSet := fun d => d.receiver.isSome
      read := fun d bs => do
        let (s, rest) ← Json.text "a string" bs
        .ok ({ d with receiver := some s }, rest) },
    { name := "action"
      optional := false
      isSet := fun d => d.action.isSome
      read := fun d bs => do
        let (s, rest) ← Json.text "a string" bs
        .ok ({ d with action := some s }, rest) },
    { name := "params"
      optional := true
      isSet := fun d => d.settings.isSome
      read := fun d bs => do
        let (es, rest) ← Json.texts bs
        .ok ({ d with settings := some es }, rest) },
    { name := "mode"
      optional := true
      isSet := fun d => d.mode.isSome
      read := fun d bs => do
        let (m, rest) ← Json.variant DeliveryMode.named bs
        .ok ({ d with mode := some m }, rest) }]
  finish := fun d => do
    some (← d.receiver, ← d.action, d.settings.getD [], d.mode.getD .response)

/-- What a frame sets of the parameters, one after another; nothing if it is not the frame of a
request. -/
def settings (whole : Bytes) : List (String × String) :=
  match Json.parse sheet.read whole with
  | .ok (_, _, es, _) => es
  | .error _ => []

theorem schema_sees : schema.Sees Sheet.draft
    (fun said => (said.1, said.2.1, Table.ofList said.2.2.1, said.2.2.2)) sheet where
  name := rfl
  start := rfl
  fields := by
    refine .cons ⟨rfl, rfl, fun _ => rfl, fun d bs => ?_⟩ (.cons ⟨rfl, rfl, fun _ => rfl, fun d bs => ?_⟩
      (.cons ⟨rfl, rfl, fun d => ?_, fun d bs => ?_⟩ (.cons ⟨rfl, rfl, fun _ => rfl, fun d bs => ?_⟩
        .nil)))
    · dsimp only
      cases Json.text "a string" bs <;> rfl
    · dsimp only
      cases Json.text "a string" bs <;> rfl
    · exact Option.isSome_map
    · dsimp only
      rw [Json.table_texts]
      cases Json.texts bs <;> rfl
    · dsimp only
      cases Json.variant DeliveryMode.named bs <;> rfl
  finish := by
    rintro ⟨receiver, action, settings, mode⟩
    cases receiver <;> cases action <;> cases settings <;> rfl

/-- A decoded request has the parameters that its frame sets, set one after another. -/
theorem decode_settings (h : decode whole destination = .ok r) :
    r.parameters = Table.ofList (settings whole) := by
  have hparse := Json.parse_seen (Json.Schema.read_seen schema_sees whole)
  rw [decode, hparse] at h
  unfold settings
  generalize Json.parse sheet.read whole = read at h ⊢
  rcases read with e | ⟨receiver, action, es, mode⟩
  · cases h
  · cases h
    rfl

/-! ## What a frame sets, if it is an object -/

/-- What a value makes of a draft, by the name of the field. -/
def noted (name : String) (d : Sheet) (v : Value) : Option Sheet :=
  if name = "receiver" then v.text?.map fun s => { d with receiver := some s }
  else if name = "action" then v.text?.map fun s => { d with action := some s }
  else if name = "params" then v.texts?.map fun es => { d with settings := some es }
  else if name = "mode" then (v.variant? DeliveryMode.named).map fun m => { d with mode := some m }
  else none

theorem fields_noted : ∀ f ∈ sheet.fields, ∀ d, Takes (f.read d) (noted f.name d) := by
  intro f hf d
  simp only [sheet, List.mem_cons, List.not_mem_nil, or_false] at hf
  rcases hf with rfl | rfl | rfl | rfl <;> intro v bs h blank rest hblank hrest
  · exact (Json.text_takes "a string" v bs h blank rest hblank hrest).map _
  · exact (Json.text_takes "a string" v bs h blank rest hblank hrest).map _
  · exact (Json.texts_takes v bs h blank rest hblank hrest).map _
  · exact (Json.variant_takes DeliveryMode.named v bs h blank rest hblank hrest).map _

theorem sheet_complete_yields (d : Sheet) (rest : Bytes) :
    Json.Yields (sheet.complete d rest) (sheet.finish d) rest := by
  obtain ⟨receiver, action, settings, mode⟩ := d
  cases receiver with
  | none => exact ⟨_, rfl⟩
  | some receiver =>
    cases action with
    | none => exact ⟨_, rfl⟩
    | some action => rfl

/-- Only a member under the name of the parameters changes what is set. -/
theorem settings_take {d next : Sheet} {v : Value} (h : sheet.take noted d (name, v) = some next) :
    if name = "params" then (if d.settings.isSome then none else v.texts?) = next.settings
        ∧ next.settings ≠ none
      else next.settings = d.settings := by
  unfold Json.Schema.take at h
  split at h
  · next hfield =>
    cases h
    have hname : name ≠ "params" := by
      rintro rfl
      cases hfield
    rw [if_neg hname]
  · next f hfield =>
    obtain rfl := Json.Schema.field?_name hfield
    have hmem : f ∈ sheet.fields := List.mem_of_find?_eq_some hfield
    simp only [sheet, List.mem_cons, List.not_mem_nil, or_false] at hmem
    split at h
    · cases h
    · next hunset =>
      rcases hmem with rfl | rfl | rfl | rfl <;>
        obtain ⟨a, ha, rfl⟩ := Option.map_eq_some_iff.1 h
      · rfl
      · rfl
      · exact ⟨(if_neg hunset).trans ha, nofun⟩
      · rfl

theorem foldlM_noted {d d' : Sheet} (h : ms.foldlM (sheet.take noted) d = some d') :
    Given Value.texts? d.settings (valuesUnder "params" ms) d'.settings := by
  induction ms generalizing d with
  | nil =>
    cases h
    exact given_nil.2 rfl
  | cons m ms ih =>
    obtain ⟨name, v⟩ := m
    rw [List.foldlM_cons] at h
    obtain ⟨next, hstep, hrest⟩ := Option.bind_eq_some_iff.1 h
    have hsettings := settings_take hstep
    rw [valuesUnder_cons]
    split at hsettings
    · next hname =>
      obtain ⟨es, hes⟩ := Option.ne_none_iff_exists'.1 hsettings.2
      rw [if_pos hname]
      exact given_cons.2 ⟨es, hsettings.1.trans hes, hes ▸ ih hrest⟩
    · next hname =>
      rw [if_neg hname, ← hsettings]
      exact ih hrest

/-- What the frame of a request sets are the members of its object of parameters, in their order. -/
theorem settings_said (hheld : Holds whole (.object ms)) (h : decode whole destination = .ok r) :
    valuesUnder "params" ms = [objectOfTexts (settings whole)]
      ∨ valuesUnder "params" ms = [] ∧ settings whole = [] := by
  obtain ⟨before, bs, after, hbefore, hv, hafter, rfl⟩ := hheld
  have hparse := Json.parse_yields
    (Json.Schema.read_takes fields_noted sheet_complete_yields hv hbefore after) hafter
  rw [decode, Json.parse_seen (Json.Schema.read_seen schema_sees _)] at h
  unfold settings
  generalize Json.parse sheet.read (before ++ (bs ++ after)) = read at h hparse ⊢
  rcases read with e | ⟨receiver, action, es, mode⟩
  · cases h
  · obtain ⟨d, hfold, hfinish⟩ := Option.bind_eq_some_iff.1 ((hparse _).1 rfl)
    have hes : d.settings.getD [] = es := by
      obtain ⟨receiver', action', settings', mode'⟩ := d
      cases receiver' <;> cases action' <;> cases hfinish
      rfl
    rcases foldlM_noted hfold with ⟨hnone, hd⟩ | ⟨-, v, hone, hmeans, hd⟩
    · rw [hd] at hes
      exact .inr ⟨hnone, hes.symm⟩
    · obtain ⟨es', hes'⟩ := Option.ne_none_iff_exists'.1 hmeans
      rw [hd, hes', Option.getD_some] at hes
      subst hes
      cases v with
      | object ms' =>
        rw [hone, textsOf_eq_some.1 hes']
        exact .inl rfl
      | null | boolean _ | number _ | list _ | text _ => cases hes'

/-! ## How requests come to be -/

/-- A request that was made step by step, with all that was set of its parameters, in that order. -/
inductive Made : Request → List (String × String) → Prop
  | started (destination : EndpointName) (receiver action : String) :
      Made (start destination receiver action) []
  | decoded {whole : Bytes} {destination : EndpointName} {r : Request}
      (h : decode whole destination = .ok r) : Made r (settings whole)
  | set {r : Request} {sets : List (String × String)} (h : Made r sets) (name value : String) :
      Made (r.setParameter name value) (sets ++ [(name, value)])
  | asked {r : Request} {sets : List (String × String)} (h : Made r sets) (mode : DeliveryMode) :
      Made { r with mode := mode } sets
  | heard {r : Request} {sets : List (String × String)} (h : Made r sets) (l : Listener) :
      Made (r.addListener l) sets
  | advanced {r : Request} {sets : List (String × String)} (h : Made r sets) (progress : Progress) :
      Made { r with progress := progress } sets

theorem Made.parameters (h : Made r sets) : r.parameters = Table.ofList sets := by
  induction h with
  | started => rfl
  | decoded h => exact decode_settings h
  | @set r sets _ name value ih => rw [Json.ofList_concat, ← ih]; rfl
  | asked _ _ ih | heard _ _ ih | advanced _ _ ih => exact ih

/-- What was set last under a name is what the request has there. -/
theorem Made.parameter? (h : Made r sets) (name : String) :
    r.parameter? name = sets.reverse.lookup name := by
  rw [Request.parameter?, h.parameters, get?_ofList]

/-! ## Their bytes -/

/-- The members of a written request. -/
def said (r : Request) : List (String × Value) :=
  [("receiver", .text r.receiver), ("action", .text r.action),
   ("params", objectOfTexts r.parameters.entries), ("mode", .text r.mode.name)]

theorem holds_encode (r : Request) : Holds r.encode (.object r.said) := by
  have htext (s : String) : Spells (.value (.text s)) (Json.writeText s) :=
    .text (Json.spellsText_writeText s)
  have hspelled : Spells (.value (.object r.said)) r.encode :=
    Json.spells_writeObject (.cons (htext r.receiver) (.cons (htext r.action)
      (.cons (Json.spells_writeTable r.parameters) (.cons (htext r.mode.name) .nil))))
  exact ⟨[], _, [], .nil, hspelled, .nil, (List.append_nil _).symm⟩

/-- The same bytes are read as the same request. -/
theorem encode_eq_iff {a b : Request} : a.encode = b.encode
    ↔ a.receiver = b.receiver ∧ a.action = b.action ∧ a.mode = b.mode
      ∧ a.parameters = b.parameters := by
  constructor
  · intro h
    have hread := decode_encode a .agent
    rw [h, decode_encode b .agent] at hread
    simp only [arrived, Except.ok.injEq, Request.mk.injEq] at hread
    obtain ⟨hreceiver, haction, hparameters, -, hmode, -⟩ := hread
    exact ⟨hreceiver.symm, haction.symm, hmode.symm, hparameters.symm⟩
  · rintro ⟨hreceiver, haction, hmode, hparameters⟩
    exact encode_congr hreceiver haction hparameters hmode

/-- The parameters of a request after some were set, in the request and in its bytes. -/
structure Canonical (r : Request) (sets : List (String × String)) : Prop where
  /-- The names are strictly ascending by their bytes. -/
  ascending : r.parameters.entries.Pairwise fun p q =>
    Text.Utf8.ofText p.1 < Text.Utf8.ofText q.1
  /-- The bytes are an object that has the parameters in the same order. -/
  written : Holds r.encode (.object r.said)
  /-- A parameter has the value that was set last. -/
  last : ∀ name, r.parameter? name = sets.reverse.lookup name
  /-- The entries are the names that were set, with these values, and no others. -/
  entry_iff : ∀ name value, (name, value) ∈ r.parameters.entries
    ↔ sets.reverse.lookup name = some value

theorem Made.canonical (h : Made r sets) : Canonical r sets where
  ascending := r.parameters.ascending.imp Text.Utf8.ofText_lt_iff.2
  written := holds_encode r
  last := h.parameter?
  entry_iff := fun name value => by
    rw [← h.parameter?, Request.parameter?, Table.get?_eq_some_iff]

/-- Two requests have the same bytes exactly if receiver, action, mode and parameters are the same, and
the parameters are if under each name the same was set last, whenever that was. Destination, progress
and listeners do not matter. -/
theorem same_bytes_iff {a b : Request} (ha : Made a sets) (hb : Made b sets') :
    (a.encode = b.encode ↔ a.receiver = b.receiver ∧ a.action = b.action ∧ a.mode = b.mode
      ∧ a.parameters = b.parameters)
    ∧ (a.parameters = b.parameters
      ↔ ∀ name, sets.reverse.lookup name = sets'.reverse.lookup name)
    ∧ Canonical a sets ∧ Canonical b sets' := by
  refine ⟨encode_eq_iff, ⟨fun h name => ?_, fun h => ?_⟩, ha.canonical, hb.canonical⟩
  · rw [← ha.parameter?, ← hb.parameter?, Request.parameter?, h, Request.parameter?]
  · refine Table.ext_get? fun name => ?_
    exact (ha.parameter? name).trans ((h name).trans (hb.parameter? name).symm)

/-- A request that was read from the unusual text and then got two more parameters, and one that was
started for another endpoint, with the parameters in another order and a listener, have the same
bytes. -/
theorem same_bytes_iff_unusual : ∃ a b sets sets', Made a sets ∧ Made b sets'
    ∧ a.destination ≠ b.destination ∧ a.listeners ≠ b.listeners ∧ a.encode = b.encode
    ∧ a.parameters.keys = ["", "a", "k"] ∧ a.parameter? "k" = some "2" := by
  let read : Request := ⟨String.ofList ['R', Char.ofNat 0x1F600], "A/",
    Table.ofList [("k", "1"), ("k", "2")], .agent, .noResponse, .inFlight, []⟩
  have hread : decode unusual .agent = .ok read :=
    (decode_iff_said holds_unusual).2
      ⟨rfl, rfl, ⟨_, .inl rfl, get?_ofList _⟩, .inr (.inl rfl), rfl, rfl, rfl⟩
  have ha := ((Made.decoded hread).set "a" "=").set "" "\x00"
  have hb := (((((Made.started ⟨"other", by decide⟩ read.receiver "A/").set "" "\x00").set "k" "3").set
    "a" "=").set "k" "2").asked .noResponse |>.heard ⟨"l", true⟩
  refine ⟨_, _, _, _, ha, hb, by decide, nofun, ?_, by decide +kernel, by decide +kernel⟩
  exact (same_bytes_iff ha hb).1.2 ⟨rfl, rfl, rfl, by decide +kernel⟩

end Request
end CommandLink
