import CommandLink.Proofs.Json.Meaning
import CommandLink.Request
import Mathlib.Data.List.Perm.Basic
/-!
# What the text of a request says

Whether an object is a request, and which, is settled by the values under four names, each of which may
come once. Nothing else about the text matters: not its white space, the spelling of its texts, the
order of its members or what stands under other names.

Results:
* `foldlM_take_iff`: what the members of an object come to, field by field.
* `decode_iff_said`: a text is decoded exactly as it says.
* `decode_by_fields`: which texts are decoded, as what, and what does not matter for it.
-/
namespace CommandLink
open Json (Value Spells Takes Yields Holds)

/-- The values under a name, in the order of their members. -/
def Json.valuesUnder (name : String) (ms : List (String × Value)) : List Value :=
  (ms.filter fun m => m.1 == name).map Prod.snd

namespace Request
variable {β : Type} {name : String} {v : Value} {ms : List (String × Value)} {vs : List Value}
  {before after : Option β} {meaning : Value → Option β}
open Json (valuesUnder)

/-! ## A field that may come once -/

/-- What becomes of a field by the values under its name: they leave it as it was if there are none, and
otherwise there is one, which must mean something, for a field that was not set. -/
def Given (meaning : Value → Option β) (before : Option β) (vs : List Value) (after : Option β) : Prop :=
  vs = [] ∧ after = before ∨ before = none ∧ ∃ v, vs = [v] ∧ meaning v ≠ none ∧ after = meaning v

theorem given_nil : Given meaning before [] after ↔ after = before := by
  simp [Given]

theorem given_cons : Given meaning before (v :: vs) after
    ↔ ∃ b, (if before.isSome then none else meaning v) = some b
      ∧ Given meaning (some b) vs after := by
  cases before with
  | some a => simp [Given]
  | none =>
    cases hv : meaning v with
    | none => simp [Given, hv]
    | some b => simp [Given, hv]

theorem valuesUnder_cons (m : String × Value) : valuesUnder name (m :: ms)
    = if m.1 = name then m.2 :: valuesUnder name ms else valuesUnder name ms := by
  unfold valuesUnder
  by_cases h : m.1 = name <;> simp [h]

/-! ## The fields of a request -/

/-- What a value makes of a draft, by the name of the field. -/
def taken (name : String) (d : Draft) (v : Value) : Option Draft :=
  if name = "receiver" then v.text?.map fun s => { d with receiver := some s }
  else if name = "action" then v.text?.map fun s => { d with action := some s }
  else if name = "params" then v.table?.map fun t => { d with parameters := some t }
  else if name = "mode" then (v.variant? DeliveryMode.named).map fun m => { d with mode := some m }
  else none

theorem fields_taken : ∀ f ∈ schema.fields, ∀ d, Takes (f.read d) (taken f.name d) := by
  intro f hf d
  simp only [schema, List.mem_cons, List.not_mem_nil, or_false] at hf
  rcases hf with rfl | rfl | rfl | rfl <;> intro v bs h blank rest hblank hrest
  · exact (Json.text_takes "a string" v bs h blank rest hblank hrest).map _
  · exact (Json.text_takes "a string" v bs h blank rest hblank hrest).map _
  · exact (Json.table_takes v bs h blank rest hblank hrest).map _
  · exact (Json.variant_takes DeliveryMode.named v bs h blank rest hblank hrest).map _

/-- A draft lacks a field exactly if it does not become a request. -/
theorem complete_yields (d : Draft) (rest : Bytes) :
    Yields (schema.complete d rest) (schema.finish d) rest := by
  obtain ⟨receiver, action, parameters, mode⟩ := d
  cases receiver with
  | none => exact ⟨_, rfl⟩
  | some receiver =>
    cases action with
    | none => exact ⟨_, rfl⟩
    | some action => rfl

theorem take_receiver (d : Draft) (v : Value) : schema.take taken d ("receiver", v)
    = (if d.receiver.isSome then none else v.text?).map fun s => { d with receiver := some s } := by
  rw [apply_ite (Option.map _)]
  rfl

theorem take_action (d : Draft) (v : Value) : schema.take taken d ("action", v)
    = (if d.action.isSome then none else v.text?).map fun s => { d with action := some s } := by
  rw [apply_ite (Option.map _)]
  rfl

theorem take_params (d : Draft) (v : Value) : schema.take taken d ("params", v)
    = (if d.parameters.isSome then none else v.table?).map fun t =>
      { d with parameters := some t } := by
  rw [apply_ite (Option.map _)]
  rfl

theorem take_mode (d : Draft) (v : Value) : schema.take taken d ("mode", v)
    = (if d.mode.isSome then none else v.variant? DeliveryMode.named).map fun m =>
      { d with mode := some m } := by
  rw [apply_ite (Option.map _)]
  rfl

/-- The names of the fields. -/
def fieldNames : List String := ["receiver", "action", "params", "mode"]

theorem take_other (h : name ∉ fieldNames) (d : Draft) (v : Value) :
    schema.take taken d (name, v) = some d := by
  have hnone : schema.field? name = none := by
    refine List.find?_eq_none.2 fun f hf hname => h ?_
    rw [← beq_iff_eq.1 hname]
    exact List.mem_map_of_mem (f := Json.Field.name) hf
  rw [Json.Schema.take, hnone]

/-- All that the members of an object come to, field by field. -/
theorem foldlM_take_iff (ms : List (String × Value)) (d d' : Draft) :
    ms.foldlM (schema.take taken) d = some d'
      ↔ Given Value.text? d.receiver (valuesUnder "receiver" ms) d'.receiver
        ∧ Given Value.text? d.action (valuesUnder "action" ms) d'.action
        ∧ Given Value.table? d.parameters (valuesUnder "params" ms) d'.parameters
        ∧ Given (Value.variant? DeliveryMode.named) d.mode (valuesUnder "mode" ms) d'.mode := by
  induction ms generalizing d with
  | nil =>
    obtain ⟨receiver, action, parameters, mode⟩ := d
    obtain ⟨receiver', action', parameters', mode'⟩ := d'
    simp only [List.foldlM_nil, pure, Option.some.injEq, Draft.mk.injEq, valuesUnder,
      List.filter_nil, List.map_nil, given_nil, eq_comm]
  | cons m ms ih =>
    obtain ⟨name, v⟩ := m
    have hstep : ((name, v) :: ms).foldlM (schema.take taken) d = some d'
        ↔ ∃ next, schema.take taken d (name, v) = some next
          ∧ ms.foldlM (schema.take taken) next = some d' := by
      rw [List.foldlM_cons]
      exact Option.bind_eq_some_iff
    rw [hstep]
    by_cases hname : name ∈ fieldNames
    · simp only [fieldNames, List.mem_cons, List.not_mem_nil, or_false] at hname
      -- the member goes to its field, and the others stay as they are
      rcases hname with rfl | rfl | rfl | rfl
      all_goals
        simp only [take_receiver, take_action, take_params, take_mode, ih, valuesUnder_cons,
          reduceIte, String.reduceEq, given_cons, Option.map_eq_some_iff, exists_exists_and_eq_and]
        tauto
    · have hne (field : String) (hfield : field ∈ fieldNames) : name ≠ field := by
        rintro rfl
        exact hname hfield
      simp only [take_other hname, Option.some.injEq, exists_eq_left', ih, valuesUnder_cons,
        if_neg (hne "receiver" (by decide)), if_neg (hne "action" (by decide)),
        if_neg (hne "params" (by decide)), if_neg (hne "mode" (by decide))]

/-! ## What values mean -/

theorem text?_eq_some {s : String} : v.text? = some s ↔ v = .text s := by
  cases v <;> simp [Value.text?]

/-- An object whose values are all texts. -/
def objectOfTexts (es : List (String × String)) : Value :=
  .object (es.map fun e => (e.1, .text e.2))

theorem textsOf_eq_some {es : List (String × String)} :
    Json.textsOf ms = some es ↔ ms = es.map fun e => (e.1, .text e.2) := by
  induction ms generalizing es with
  | nil => cases es <;> simp [Json.textsOf]
  | cons m ms ih =>
    obtain ⟨name, v⟩ := m
    rw [Json.textsOf_cons, Option.bind_eq_some_iff]
    simp only [text?_eq_some, Option.map_eq_some_iff, ih]
    constructor
    · rintro ⟨s, rfl, es, rfl, rfl⟩
      rfl
    · intro h
      cases es with
      | nil => cases h
      | cons e es =>
        cases h
        exact ⟨e.2, rfl, es, rfl, rfl⟩

theorem table?_eq_some {t : Table String} :
    v.table? = some t ↔ ∃ es, v = objectOfTexts es ∧ Table.ofList es = t := by
  cases v with
  | object ms => simp [Value.table?, objectOfTexts, textsOf_eq_some]
  | null | boolean _ | number _ | list _ | text _ => simp [Value.table?, objectOfTexts]

theorem lookup_named {m : DeliveryMode} :
    DeliveryMode.named.lookup name = some m ↔ name = m.name := by
  constructor
  · intro h
    simp only [DeliveryMode.named, DeliveryMode.all, List.map_cons, List.map_nil, List.lookup_cons,
      List.lookup_nil] at h
    split at h
    · next hname =>
      cases h
      exact beq_iff_eq.1 hname
    · split at h
      · next hname =>
        cases h
        exact beq_iff_eq.1 hname
      · cases h
  · rintro rfl
    exact DeliveryMode.ofName?_name m

/-- A mode is named by a text, or by an object that maps its name to `null`. -/
theorem variant?_eq_some {m : DeliveryMode} : v.variant? DeliveryMode.named = some m
    ↔ v = .text m.name ∨ v = .object [(m.name, .null)] := by
  cases v with
  | text s => simp [Value.variant?, lookup_named]
  | object ms =>
    cases ms with
    | nil => simp [Value.variant?]
    | cons e ms =>
      obtain ⟨name, v⟩ := e
      rw [Json.variant?_member]
      cases v <;> cases ms <;> simp [Value.unit?, lookup_named]
  | null | boolean _ | number _ | list _ => simp [Value.variant?]

/-! ## Which text is decoded, and as what -/

/-- What an object says of a request. -/
structure Said (ms : List (String × Value)) (destination : EndpointName) (r : Request) : Prop where
  /-- Receiver and action are texts that stand under their names once each. -/
  receiver : valuesUnder "receiver" ms = [.text r.receiver]
  action : valuesUnder "action" ms = [.text r.action]
  /-- The parameters are an object of texts, of which the last under a name counts, or none. -/
  parameters : ∃ es, (valuesUnder "params" ms = [objectOfTexts es]
      ∨ valuesUnder "params" ms = [] ∧ es = [])
    ∧ ∀ name, r.parameter? name = es.reverse.lookup name
  /-- The mode is given by its name, alone or in an object, or a response is expected. -/
  mode : valuesUnder "mode" ms = [.text r.mode.name]
    ∨ valuesUnder "mode" ms = [.object [(r.mode.name, .null)]]
    ∨ valuesUnder "mode" ms = [] ∧ r.mode = .response
  /-- The rest is not the sender's to say. -/
  arrived : r.destination = destination ∧ r.progress = .inFlight ∧ r.listeners = []

/-- The object of an acceptable request: how often each field stands there, and with what. -/
structure Sayable (ms : List (String × Value)) : Prop where
  receiver : ∃ s, valuesUnder "receiver" ms = [.text s]
  action : ∃ s, valuesUnder "action" ms = [.text s]
  parameters : valuesUnder "params" ms = [] ∨ ∃ es, valuesUnder "params" ms = [objectOfTexts es]
  mode : valuesUnder "mode" ms = []
    ∨ ∃ m : DeliveryMode, valuesUnder "mode" ms = [.text m.name]
      ∨ valuesUnder "mode" ms = [.object [(m.name, .null)]]

variable {destination : EndpointName} {r : Request} {whole : Bytes}

/-- Of entries with one name the last one counts. -/
theorem get?_ofList (es : List (String × String)) (name : String) :
    (Table.ofList es).get? name = es.reverse.lookup name := by
  have hfold (t : Table String) : (es.foldl (fun t e => t.insert e.1 e.2) t).get? name
      = (es.reverse.lookup name).or (t.get? name) := by
    induction es generalizing t with
    | nil => rfl
    | cons e es ih =>
      obtain ⟨k, s⟩ := e
      rw [List.foldl_cons, ih, List.reverse_cons, List.lookup_append, Table.get?_insert,
        Option.or_assoc]
      congr 1
      by_cases hname : name = k
      · simp [hname]
      · simp [hname, beq_false_of_ne hname]
  rw [Table.ofList, hfold]
  exact Option.or_none

/-! ### One field after another -/

theorem given_required {s : String} :
    Given Value.text? none vs (some s) ↔ vs = [.text s] := by
  constructor
  · rintro (⟨-, hsome⟩ | ⟨-, v, rfl, -, hv⟩)
    · cases hsome
    · rw [text?_eq_some.1 hv.symm]
  · rintro rfl
    exact .inr ⟨rfl, _, rfl, nofun, rfl⟩

theorem given_optional (meaning : Value → Option β) (vs : List Value) (otherwise b : β) :
    (∃ after, Given meaning none vs after ∧ after.getD otherwise = b)
      ↔ (∃ v, vs = [v] ∧ meaning v = some b) ∨ vs = [] ∧ otherwise = b := by
  constructor
  · rintro ⟨after, ⟨rfl, rfl⟩ | ⟨-, v, rfl, hmeans, rfl⟩, rfl⟩
    · exact .inr ⟨rfl, rfl⟩
    · obtain ⟨b, hb⟩ := Option.ne_none_iff_exists'.1 hmeans
      exact .inl ⟨v, rfl, by rw [hb, Option.getD_some]⟩
  · rintro (⟨v, rfl, hv⟩ | ⟨rfl, rfl⟩)
    · exact ⟨some b, .inr ⟨rfl, v, rfl, by rw [hv]; nofun, hv.symm⟩, rfl⟩
    · exact ⟨none, .inl ⟨rfl, rfl⟩, rfl⟩

theorem finish_eq_some {d : Draft} {receiver action : String} {parameters : Table String}
    {mode : DeliveryMode} : schema.finish d = some (receiver, action, parameters, mode)
      ↔ d.receiver = some receiver ∧ d.action = some action
        ∧ d.parameters.getD .empty = parameters ∧ d.mode.getD .response = mode := by
  obtain ⟨receiver', action', parameters', mode'⟩ := d
  cases receiver' <;> cases action' <;> simp [schema]

/-- What is read of an object, by the values under the names of the fields. -/
theorem read_iff {receiver action : String} {parameters : Table String} {mode : DeliveryMode} :
    (ms.foldlM (schema.take taken) schema.start).bind schema.finish
        = some (receiver, action, parameters, mode)
      ↔ valuesUnder "receiver" ms = [.text receiver] ∧ valuesUnder "action" ms = [.text action]
        ∧ (∃ es, (valuesUnder "params" ms = [objectOfTexts es]
            ∨ valuesUnder "params" ms = [] ∧ es = []) ∧ Table.ofList es = parameters)
        ∧ (valuesUnder "mode" ms = [.text mode.name]
          ∨ valuesUnder "mode" ms = [.object [(mode.name, .null)]]
          ∨ valuesUnder "mode" ms = [] ∧ mode = .response) := by
  have hparameters := given_optional Value.table? (valuesUnder "params" ms) .empty parameters
  have hmode := given_optional (Value.variant? DeliveryMode.named) (valuesUnder "mode" ms)
    .response mode
  rw [Option.bind_eq_some_iff]
  simp only [foldlM_take_iff, finish_eq_some]
  constructor
  · rintro ⟨d, ⟨hr, ha, hp, hm⟩, hreceiver, haction, hps, hms⟩
    rw [hreceiver] at hr
    rw [haction] at ha
    refine ⟨given_required.1 hr, given_required.1 ha, ?_, ?_⟩
    · rcases hparameters.1 ⟨_, hp, hps⟩ with ⟨v, hv, hmeans⟩ | ⟨hnone, rfl⟩
      · obtain ⟨es, rfl, htable⟩ := table?_eq_some.1 hmeans
        exact ⟨es, .inl hv, htable⟩
      · exact ⟨[], .inr ⟨hnone, rfl⟩, rfl⟩
    · rcases hmode.1 ⟨_, hm, hms⟩ with ⟨v, hv, hmeans⟩ | ⟨hnone, rfl⟩
      · rcases variant?_eq_some.1 hmeans with rfl | rfl
        · exact .inl hv
        · exact .inr (.inl hv)
      · exact .inr (.inr ⟨hnone, rfl⟩)
  · rintro ⟨hr, ha, ⟨es, hes, htable⟩, hm⟩
    obtain ⟨p, hp, hps⟩ := hparameters.2 (by
      rcases hes with hes | ⟨hnone, rfl⟩
      · exact .inl ⟨_, hes, table?_eq_some.2 ⟨es, rfl, htable⟩⟩
      · exact .inr ⟨hnone, htable⟩)
    obtain ⟨m, hm, hms⟩ := hmode.2 (by
      rcases hm with hm | hm | ⟨hnone, rfl⟩
      · exact .inl ⟨_, hm, variant?_eq_some.2 (.inl rfl)⟩
      · exact .inl ⟨_, hm, variant?_eq_some.2 (.inr rfl)⟩
      · exact .inr ⟨hnone, rfl⟩)
    exact ⟨⟨some receiver, some action, p, m⟩,
      ⟨given_required.2 hr, given_required.2 ha, hp, hm⟩, rfl, rfl, hps, hms⟩

/-! ### Whole texts -/

/-- A text is decoded as what it says. -/
theorem decode_iff_said (h : Holds whole (.object ms)) :
    decode whole destination = .ok r ↔ Said ms destination r := by
  obtain ⟨before, bs, after, hbefore, hv, hafter, rfl⟩ := h
  have hread := Json.Schema.read_takes fields_taken complete_yields hv hbefore after
  have hparse := Json.parse_yields hread hafter
  have hdecode : decode (before ++ (bs ++ after)) destination = .ok r
      ↔ ∃ receiver action parameters mode,
        Json.parse schema.read (before ++ (bs ++ after)) = .ok (receiver, action, parameters, mode)
        ∧ (⟨receiver, action, parameters, destination, mode, .inFlight, []⟩ : Request) = r := by
    rw [decode]
    rcases Json.parse schema.read (before ++ (bs ++ after)) with e | ⟨receiver, action, ps, mode⟩
    · simp
    · simp
  simp only [hdecode, hparse, read_iff]
  constructor
  · rintro ⟨receiver, action, parameters, mode, ⟨hr, ha, ⟨es, hes, rfl⟩, hm⟩, rfl⟩
    exact ⟨hr, ha, ⟨es, hes, get?_ofList es⟩, hm, rfl, rfl, rfl⟩
  · rintro ⟨hr, ha, ⟨es, hes, hget⟩, hm, hdestination, hprogress, hlisteners⟩
    have htable : Table.ofList es = r.parameters :=
      Table.ext_get? fun name => (get?_ofList es name).trans (hget name).symm
    refine ⟨_, _, _, _, ⟨hr, ha, ⟨es, hes, htable⟩, hm⟩, ?_⟩
    obtain ⟨receiver, action, parameters, destination, mode, progress, listeners⟩ := r
    cases hdestination
    cases hprogress
    cases hlisteners
    rfl

/-! ### What does not matter -/

/-- Whether a member is a field, and not something that nobody asked for. -/
def IsField (m : String × Value) : Bool := fieldNames.contains m.1

theorem valuesUnder_filter (h : name ∈ fieldNames) (ms : List (String × Value)) :
    valuesUnder name (ms.filter IsField) = valuesUnder name ms := by
  unfold valuesUnder
  rw [List.filter_filter]
  congr 1
  refine List.filter_congr fun m _ => ?_
  by_cases hname : m.1 = name
  · simp [IsField, hname, h]
  · simp [hname]

/-- Two objects with the same fields, in whatever order, say the same of a request. -/
theorem said_of_perm {ms' : List (String × Value)}
    (h : (ms.filter IsField).Perm (ms'.filter IsField)) (hsaid : Said ms destination r) :
    Said ms' destination r := by
  have hperm {name : String} (hname : name ∈ fieldNames) :
      (valuesUnder name ms).Perm (valuesUnder name ms') := by
    rw [← valuesUnder_filter hname ms, ← valuesUnder_filter hname ms']
    exact (h.filter _).map _
  have hone {name : String} (hname : name ∈ fieldNames) {v : Value}
      (hv : valuesUnder name ms = [v]) : valuesUnder name ms' = [v] :=
    List.perm_singleton.1 (hv ▸ (hperm hname).symm)
  have hnone {name : String} (hname : name ∈ fieldNames) (hv : valuesUnder name ms = []) :
      valuesUnder name ms' = [] :=
    List.perm_nil.1 (hv ▸ (hperm hname).symm)
  obtain ⟨es, hes, hget⟩ := hsaid.parameters
  refine ⟨hone (by decide) hsaid.receiver, hone (by decide) hsaid.action, ⟨es, ?_, hget⟩, ?_,
    hsaid.arrived⟩
  · rcases hes with hes | ⟨hempty, rfl⟩
    · exact .inl (hone (by decide) hes)
    · exact .inr ⟨hnone (by decide) hempty, rfl⟩
  · rcases hsaid.mode with hm | hm | ⟨hempty, hm⟩
    · exact .inl (hone (by decide) hm)
    · exact .inr (.inl (hone (by decide) hm))
    · exact .inr (.inr ⟨hnone (by decide) hempty, hm⟩)

theorem exists_said_iff : (∃ r, Said ms destination r) ↔ Sayable ms := by
  constructor
  · rintro ⟨r, hr⟩
    obtain ⟨es, hes, -⟩ := hr.parameters
    refine ⟨⟨_, hr.receiver⟩, ⟨_, hr.action⟩, ?_, ?_⟩
    · exact hes.elim (fun hes => .inr ⟨es, hes⟩) (fun hes => .inl hes.1)
    · rcases hr.mode with hm | hm | ⟨hempty, -⟩
      · exact .inr ⟨_, .inl hm⟩
      · exact .inr ⟨_, .inr hm⟩
      · exact .inl hempty
  · rintro ⟨⟨receiver, hr⟩, ⟨action, ha⟩, hes, hm⟩
    obtain ⟨es, hes⟩ : ∃ es, valuesUnder "params" ms = [objectOfTexts es]
        ∨ valuesUnder "params" ms = [] ∧ es = [] :=
      hes.elim (fun hempty => ⟨[], .inr ⟨hempty, rfl⟩⟩) fun ⟨es, hes⟩ => ⟨es, .inl hes⟩
    obtain ⟨mode, hm⟩ : ∃ mode : DeliveryMode, valuesUnder "mode" ms = [.text mode.name]
        ∨ valuesUnder "mode" ms = [.object [(mode.name, .null)]]
        ∨ valuesUnder "mode" ms = [] ∧ mode = .response := by
      rcases hm with hempty | ⟨mode, hm | hm⟩
      · exact ⟨.response, .inr (.inr ⟨hempty, rfl⟩)⟩
      · exact ⟨mode, .inl hm⟩
      · exact ⟨mode, .inr (.inl hm)⟩
    exact ⟨⟨receiver, action, Table.ofList es, destination, mode, .inFlight, []⟩, hr, ha,
      ⟨es, hes, get?_ofList es⟩, hm, rfl, rfl, rfl⟩

/-- Which objects are requests, and which requests they are. However a text spells its object, it is
decoded exactly if receiver and action stand there once each as texts, and parameters and mode at most
once, as an object of texts and as the name of a mode; it is decoded as what they say. Other members and
the order of all of them do not matter. -/
theorem decode_by_fields (h : Holds whole (.object ms)) (destination : EndpointName) :
    ((∃ r, decode whole destination = .ok r) ↔ Sayable ms)
    ∧ (∀ r, decode whole destination = .ok r ↔ Said ms destination r)
    ∧ ∀ whole' ms', Holds whole' (.object ms') →
      (ms.filter IsField).Perm (ms'.filter IsField) →
      ∀ r, decode whole destination = .ok r ↔ decode whole' destination = .ok r := by
  refine ⟨?_, fun r => decode_iff_said h, fun whole' ms' h' hperm r => ?_⟩
  · simp only [decode_iff_said h]
    exact exists_said_iff
  · rw [decode_iff_said h, decode_iff_said h']
    exact ⟨said_of_perm hperm, said_of_perm hperm.symm⟩

/-- A text in which everything is unusual that does not matter. -/
def unusual : Bytes := Json.ascii (
  " \x7b \"x\" :[-0.5e+1, [\x7b\"\":true\x7d]],\n\"\\u0072eceiver\":\"R\\uD83D\\ude00\""
    ++ ",\n\"params\":\x7b\"k\":\"1\",\"k\":\"2\"\x7d"
    ++ ",\"mode\":\x7b\"NO_RESPONSE_EXPECTED\" :null\x7d,\"action\":\"A\\/\"\x7d\t")

def unusualMembers : List (String × Value) := [
  ("x", .list [.number (Json.ascii "-0.5e+1"), .list [.object [("", .boolean true)]]]),
  ("receiver", .text (String.ofList ['R', Char.ofNat 0x1F600])),
  ("params", .object [("k", .text "1"), ("k", .text "2")]),
  ("mode", .object [("NO_RESPONSE_EXPECTED", .null)]),
  ("action", .text "A/")]

theorem holds_unusual : Holds unusual (.object unusualMembers) := by
  have blank {bs : Bytes} (h : bs.all Json.isBlank = true) : Json.Blank bs := List.all_eq_true.1 h
  have none : Json.Blank [] := .nil
  have space : Json.Blank [0x20] := blank rfl
  have digit {b : UInt8} (h : Json.isDigit b = true) : Json.Digits [b] :=
    ⟨nofun, fun c hc => List.mem_singleton.1 hc ▸ h⟩
  have number : Json.SpellsNumber ([0x2D] ++ ([0x30] ++ ([0x2E, 0x35] ++ [0x65, 0x2B, 0x31]))) :=
    .signed (.inr rfl) (.inl rfl) (.inr ⟨[0x35], digit rfl, rfl⟩)
      (.inr ⟨0x65, [0x2B], [0x31], rfl, .inr (.inl rfl), digit rfl, rfl⟩)
  have nested := Spells.object (.member (.first none) (Json.spellsText_writeText "") none none
    .wordTrue (.objectEnd none))
  have list := Spells.list (.element (.first none) (.number number) (.element (.next none space)
    (.list (.element (.first none) nested (.listEnd none))) (.listEnd none)))
  have receiver : Json.SpellsText "receiver" _ := .quoted (.cons (c := 'r')
    (.unit (.digits (.decimal (n := 0) (by decide)) (.decimal (n := 0) (by decide))
      (.decimal (n := 7) (by decide)) (.decimal (n := 2) (by decide))))
    (Json.spellsChars_flatMap "eceiver".toList))
  have face : Json.SpellsText (String.ofList ['R', Char.ofNat 0x1F600]) _ :=
    .quoted (.cons (.plain (by decide) (by decide) (by decide)) (.cons (.pair (by decide)
      (.digits (.upper (n := 3) (by decide)) (.decimal (n := 8) (by decide))
        (.decimal (n := 3) (by decide)) (.upper (n := 3) (by decide)))
      (.digits (.lower (n := 3) (by decide)) (.lower (n := 4) (by decide))
        (.decimal (n := 0) (by decide)) (.decimal (n := 0) (by decide)))) .nil))
  have action : Json.SpellsText "A/" _ :=
    .quoted (.cons (.plain (by decide) (by decide) (by decide))
      (.cons (.letter (l := '/') (by decide)) .nil))
  have plain (s : String) : Json.SpellsText s (Json.writeText s) := Json.spellsText_writeText s
  have parameters := Spells.object (.member (.first none) (plain "k") none none (.text (plain "1"))
    (.member (.next none none) (plain "k") none none (.text (plain "2")) (.objectEnd none)))
  have mode := Spells.object (.member (.first none) (plain "NO_RESPONSE_EXPECTED") space none
    .wordNull (.objectEnd none))
  have line : Json.Blank [0x0A] := blank rfl
  refine ⟨[0x20], _, [0x09], space, .object (.member (.first space) (plain "x") space none list
    (.member (.next none line) receiver none none (.text face)
    (.member (.next none line) (plain "params") none none parameters
    (.member (.next none none) (plain "mode") none none mode
    (.member (.next none none) (plain "action") none none (.text action) (.objectEnd none)))))),
    blank rfl, ?_⟩
  decide +kernel

/-- The unusual text is decoded, as a request that expects no response and has its parameter from the
last of the two members. -/
theorem decode_by_fields_unusual : Holds unusual (.object unusualMembers)
    ∧ ∃ r, decode unusual .agent = .ok r ∧ r.action = "A/" ∧ r.mode = .noResponse
      ∧ r.parameter? "k" = some "2" := by
  refine ⟨holds_unusual, ⟨String.ofList ['R', Char.ofNat 0x1F600], "A/",
    Table.ofList [("k", "1"), ("k", "2")], .agent, .noResponse, .inFlight, []⟩, ?_, rfl, rfl, ?_⟩
  · refine ((decode_by_fields holds_unusual .agent).2.1 _).2 ⟨?_, ?_, ?_, ?_, rfl, rfl, rfl⟩
    · rfl
    · rfl
    · exact ⟨_, .inl rfl, get?_ofList _⟩
    · exact .inr (.inl rfl)
  · decide +kernel

end Request
end CommandLink
