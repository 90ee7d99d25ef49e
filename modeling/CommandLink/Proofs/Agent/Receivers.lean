import CommandLink.Agent.Builtin
import CommandLink.Proofs.Places
import CommandLink.Proofs.Text.ByteOrder
/-!
# Receivers under their names

Of several receivers with one name the first one stays, whatever is tried after it. So nobody takes the
place of a built-in receiver, and whom a request reaches was settled when its receiver was registered.

Results:
* `register_cases`, `get?_filled`: what one call does, and who is found after all of them.
* `registerAll_ok_iff`, `registerAll_error_iff`: several receivers at once, up to the first refusal.
* `first_registered_answers`: what registries hold, which agents there are, and whom requests reach.
-/
namespace CommandLink

/-- A receiver that notes, beside what it does, under which mark and with what it was called. -/
def Receiver.noting {σ : Type} (mark : Nat) (r : Receiver σ) :
    Receiver (σ × List (Nat × Request)) where
  name := r.name
  receive := fun request s =>
    ((r.receive request s.1).1, (r.receive request s.1).2, s.2 ++ [(mark, request)])

namespace Registry
variable {σ : Type} {t t' : Registry σ} {r : Receiver σ} {rs front back : List (Receiver σ)}
  {name : String} {e : LinkError} {request : Request}

/-! ## Calls of `register` -/

/-- A look-up by name finds the first receiver that bears it. -/
theorem find?_name_iff : (rs.find? fun r => r.name == name) = some r
    ↔ ∃ front back, rs = front ++ r :: back ∧ r.name = name ∧ ∀ a ∈ front, a.name ≠ name := by
  rw [List.find?_eq_some_iff_append]
  constructor
  · intro h
    obtain ⟨hname, front, back, hsplit, hfront⟩ := h
    exact ⟨front, back, hsplit, by simpa using hname, fun a ha => by simpa using hfront a ha⟩
  · intro h
    obtain ⟨front, back, hsplit, hname, hfront⟩ := h
    exact ⟨by simpa using hname, front, back, hsplit, fun a ha => by simpa using hfront a ha⟩

theorem find?_name_none_iff : (rs.find? fun r => r.name == name) = none
    ↔ ∀ r ∈ rs, r.name ≠ name := by
  simp

/-- The registry after a call of `register`, whatever the call came to. -/
def tried (t : Registry σ) (r : Receiver σ) : Registry σ :=
  match t.register r with
  | .ok t' => t'
  | .error _ => t

/-- The registry after calls of `register` for some receivers, one after another. -/
def filled (rs : List (Receiver σ)) : Registry σ :=
  rs.foldl tried .empty

/-- All that a call comes to: the receiver is taken, or it is refused for its name. -/
theorem register_cases (t : Registry σ) (r : Receiver σ) :
    (t.get? r.name = none ∧ t.register r = .ok (t.tried r) ∧ t.tried r = t.insert r.name r)
    ∨ (r.name ∈ t.keys ∧ t.register r = .error (.duplicateReceiver r.name) ∧ t.tried r = t) := by
  unfold tried
  cases hfound : t.get? r.name with
  | none =>
    have htaken := register_ok_iff.2 ⟨hfound, rfl⟩
    rw [htaken]
    exact .inl ⟨rfl, rfl, rfl⟩
  | some old =>
    have hrefused : t.register r = .error (.duplicateReceiver r.name) :=
      register_error (by rw [hfound]; rfl)
    rw [hrefused]
    exact .inr ⟨Table.mem_keys_iff.2 ⟨old, hfound⟩, rfl, rfl⟩

theorem not_mem_keys_iff : name ∉ t.keys ↔ t.get? name = none := by
  rw [Table.mem_keys_iff]
  cases t.get? name <;> simp

/-- A call is refused for nothing else than the name. -/
theorem register_error_iff :
    t.register r = .error e ↔ r.name ∈ t.keys ∧ e = .duplicateReceiver r.name := by
  rcases register_cases t r with ⟨hfresh, htaken, -⟩ | ⟨hthere, hrefused, -⟩
  · rw [htaken]
    simp [not_mem_keys_iff.2 hfresh]
  · rw [hrefused]
    simp [hthere, eq_comm]

theorem get?_tried : (t.tried r).get? name
    = (t.get? name).or (if r.name = name then some r else none) := by
  rcases register_cases t r with ⟨hfresh, -, htried⟩ | ⟨hthere, -, htried⟩
  · rw [htried, Table.get?_insert]
    by_cases hname : r.name = name
    · subst hname
      simp [hfresh]
    · simp [hname, Ne.symm hname]
  · rw [htried]
    by_cases hname : r.name = name
    · subst hname
      obtain ⟨old, hold⟩ := Table.mem_keys_iff.1 hthere
      simp [hold]
    · simp [hname]

theorem get?_foldl_tried : (rs.foldl tried t).get? name
    = (t.get? name).or (rs.find? fun r => r.name == name) := by
  induction rs generalizing t with
  | nil => simp
  | cons r rs ih =>
    rw [List.foldl_cons, ih, get?_tried, Option.or_assoc, List.find?_cons]
    by_cases hname : r.name = name
    · simp [hname]
    · simp [hname, beq_false_of_ne hname]

/-- Under each name stands the first receiver that was registered under it. -/
theorem get?_filled : (filled rs).get? name = rs.find? fun r => r.name == name := by
  unfold filled
  rw [get?_foldl_tried]
  rfl

theorem mem_keys_filled : name ∈ (filled rs).keys ↔ ∃ r ∈ rs, r.name = name := by
  rw [Table.mem_keys_iff, get?_filled, ← Option.isSome_iff_exists, List.find?_isSome]
  simp

theorem filled_append (rs more : List (Receiver σ)) :
    filled (rs ++ more) = more.foldl tried (filled rs) :=
  List.foldl_append

/-! ## Several receivers at once -/

theorem registerAll_ok_iff : t.registerAll rs = .ok t'
    ↔ t' = rs.foldl tried t ∧ (rs.map Receiver.name).Nodup ∧ ∀ r ∈ rs, r.name ∉ t.keys := by
  unfold registerAll
  induction rs generalizing t with
  | nil => simp [pure, Except.pure, eq_comm]
  | cons r rs ih =>
    rw [List.foldlM_cons, List.foldl_cons, List.map_cons, List.nodup_cons, List.forall_mem_cons]
    rcases register_cases t r with ⟨hfresh, htaken, htried⟩ | ⟨hthere, hrefused, -⟩
    · have hkeys (name : String) : name ∉ (t.tried r).keys ↔ name ≠ r.name ∧ name ∉ t.keys := by
        rw [not_mem_keys_iff, not_mem_keys_iff, htried, Table.get?_insert]
        by_cases hname : name = r.name <;> simp [hname]
      rw [htaken]
      show List.foldlM register (t.tried r) rs = .ok t' ↔ _
      rw [ih]
      simp only [hkeys, List.mem_map, not_exists, not_and]
      constructor
      · intro h
        obtain ⟨hresult, hnodup, hothers⟩ := h
        exact ⟨hresult, ⟨fun a ha => (hothers a ha).1, hnodup⟩, not_mem_keys_iff.2 hfresh,
          fun a ha => (hothers a ha).2⟩
      · intro h
        obtain ⟨hresult, ⟨hnew, hnodup⟩, -, hothers⟩ := h
        exact ⟨hresult, hnodup, fun a ha => ⟨hnew a ha, hothers a ha⟩⟩
    · rw [hrefused]
      simp [hthere, bind, Except.bind]

theorem registerAll_empty (h : (rs.map Receiver.name).Nodup) :
    registerAll .empty rs = .ok (filled rs) :=
  registerAll_ok_iff.2 ⟨rfl, h, fun _ _ => nofun⟩

theorem mem_keys_foldl_tried :
    name ∈ (rs.foldl tried t).keys ↔ name ∈ t.keys ∨ name ∈ rs.map Receiver.name := by
  rw [Table.mem_keys_iff, get?_foldl_tried, ← Option.isSome_iff_exists, Option.isSome_or,
    Bool.or_eq_true, List.find?_isSome, Option.isSome_iff_exists, ← Table.mem_keys_iff]
  simp

/-- The first name that is there already, in the registry or in front, is the one that is told. -/
theorem registerAll_error_iff : t.registerAll rs = .error e ↔
    ∃ front r back, rs = front ++ r :: back ∧ (front.map Receiver.name).Nodup
      ∧ (∀ a ∈ front, a.name ∉ t.keys) ∧ (r.name ∈ t.keys ∨ r.name ∈ front.map Receiver.name)
      ∧ e = .duplicateReceiver r.name := by
  constructor
  · intro h
    rcases foldlM_stops register t rs with
      ⟨t', hend⟩ | ⟨front, r, back, t', e', hsplit, hfront, hstop, herror⟩
    · rw [registerAll, hend] at h
      cases h
    · rw [registerAll, herror] at h
      cases h
      obtain ⟨hresult, hnodup, hfresh⟩ := registerAll_ok_iff.1 hfront
      obtain ⟨hthere, htold⟩ := register_error_iff.1 hstop
      rw [hresult, mem_keys_foldl_tried] at hthere
      exact ⟨front, r, back, hsplit, hnodup, hfresh, hthere, htold⟩
  · intro h
    obtain ⟨front, r, back, rfl, hnodup, hfresh, hthere, rfl⟩ := h
    have hfront : front.foldlM register t = .ok (front.foldl tried t) :=
      registerAll_ok_iff.2 ⟨rfl, hnodup, hfresh⟩
    have hstop : (front.foldl tried t).register r = .error (.duplicateReceiver r.name) :=
      register_error_iff.2 ⟨mem_keys_foldl_tried.2 hthere, rfl⟩
    rw [registerAll, List.foldlM_append, hfront]
    show List.foldlM register (front.foldl tried t) (r :: back) = _
    rw [List.foldlM_cons, hstop]
    rfl

/-! ## Dispatching -/

/-- Receivers that note which of them is called, by its place among them. -/
def noted (rs : List (Receiver σ)) : List (Receiver (σ × List (Nat × Request))) :=
  rs.mapIdx fun i r => r.noting i

/-- What is answered for a reply. -/
inductive Answered : Reply → Option Response → Prop
  | response (r : Response) : Answered (.response r) (some r)
  /-- The whole chain of reasons is told, the outermost first. -/
  | failure (reasons : List String) :
      Answered (.failure reasons) (some ⟨.exception, some (String.intercalate ": " reasons)⟩)
  | lastWord (word : String) :
      Answered (.breakdown (some word)) (some ⟨.exception, some ("receiver panicked: " ++ word)⟩)
  | noWord : Answered (.breakdown none) (some ⟨.exception, some "receiver panicked: unknown panic"⟩)
  /-- Who never answers is waited for. -/
  | never : Answered .never none

theorem answered (reply : Reply) : Answered reply reply.response? := by
  cases reply with
  | response r => exact .response r
  | failure reasons => exact .failure reasons
  | breakdown lastWord =>
    cases lastWord with
    | none => exact .noWord
    | some word => exact .lastWord word
  | never => exact .never

theorem name_of_mem_noted {m : Receiver (σ × List (Nat × Request))} (h : m ∈ noted rs) :
    ∃ r ∈ rs, m.name = r.name := by
  obtain ⟨i, hi, hm⟩ := List.mem_mapIdx.1 h
  subst hm
  exact ⟨rs[i], List.getElem_mem hi, rfl⟩

theorem noted_split (front : List (Receiver σ)) (r : Receiver σ) (back : List (Receiver σ)) :
    ∃ behind, noted (front ++ r :: back) = noted front ++ r.noting front.length :: behind := by
  unfold noted
  rw [List.mapIdx_append, List.mapIdx_cons, Nat.zero_add]
  exact ⟨_, rfl⟩

/-! ## The results -/

/-- What calls of `register` make of a registry, whatever they come to. -/
structure FirstWins (rs : List (Receiver σ)) : Prop where
  /-- One more call is refused exactly if the name is there, with the name and for nothing else. -/
  refused : ∀ r e, (filled rs).register r = .error e
    ↔ r.name ∈ (filled rs).keys ∧ e = .duplicateReceiver r.name
  /-- A call that is refused changes nothing. -/
  unchanged : ∀ r, r.name ∈ (filled rs).keys → filled (rs ++ [r]) = filled rs
  taken : ∀ r, r.name ∉ (filled rs).keys → (filled rs).register r = .ok (filled (rs ++ [r]))
  /-- The names are told in the order of their bytes, each of them once. -/
  ascending : (filled rs).keys.Pairwise fun a b => Text.Utf8.ofText a < Text.Utf8.ofText b
  names : ∀ name, name ∈ (filled rs).keys ↔ ∃ r ∈ rs, r.name = name
  /-- Who is found under a name was the first to be registered under it. -/
  first : ∀ name r, (filled rs).get? name = some r
    ↔ ∃ front back, rs = front ++ r :: back ∧ r.name = name ∧ ∀ a ∈ front, a.name ≠ name

/-- Whom a request reaches in a registry, and what is answered. The calls are noted by the receivers
themselves. -/
structure Routes (rs : List (Receiver σ)) (request : Request) : Prop where
  /-- The first receiver under the name is called, once, and nobody else. Its reply decides. -/
  known : ∀ front r back, rs = front ++ r :: back → r.name = request.receiver →
    (∀ a ∈ front, a.name ≠ request.receiver) →
    ∀ s calls, ∃ answer, Answered (r.receive request s).1 answer
      ∧ (filled (noted rs)).dispatch request (s, calls)
        = (answer, (r.receive request s).2, calls ++ [(front.length, request)])
  /-- If nobody bears the name, nobody is called. -/
  unknown : (∀ r ∈ rs, r.name ≠ request.receiver) →
    ∀ s calls, (filled (noted rs)).dispatch request (s, calls)
      = (some ⟨.error, some ("unknown receiver '" ++ request.receiver ++ "'")⟩, s, calls)
  /-- Receivers that note nothing give the same. -/
  unnoted : ∀ s calls, (filled rs).dispatch request s
    = (((filled (noted rs)).dispatch request (s, calls)).1,
      ((filled (noted rs)).dispatch request (s, calls)).2.1)

theorem first_wins (rs : List (Receiver σ)) : FirstWins rs where
  refused r e := register_error_iff
  unchanged r h := by
    rw [filled_append, List.foldl_cons, List.foldl_nil]
    rcases register_cases (filled rs) r with ⟨hfresh, -, -⟩ | ⟨-, -, htried⟩
    · exact absurd h (not_mem_keys_iff.2 hfresh)
    · exact htried
  taken r h := by
    rw [filled_append, List.foldl_cons, List.foldl_nil]
    rcases register_cases (filled rs) r with ⟨-, htaken, -⟩ | ⟨hthere, -, -⟩
    · exact htaken
    · exact absurd hthere h
  ascending := by
    unfold Table.keys
    rw [List.pairwise_map]
    exact (filled rs).ascending.imp fun h => Text.Utf8.ofText_lt_iff.2 h
  names name := mem_keys_filled
  first name r := by
    rw [get?_filled]
    exact find?_name_iff

theorem dispatch_first (hsplit : rs = front ++ r :: back) (hname : r.name = request.receiver)
    (hfront : ∀ a ∈ front, a.name ≠ request.receiver) (s : σ) :
    (filled rs).dispatch request s
      = ((r.receive request s).1.response?, (r.receive request s).2) := by
  apply dispatch_known
  rw [get?_filled]
  exact find?_name_iff.2 ⟨front, back, hsplit, hname, hfront⟩

theorem dispatch_nobody (hnobody : ∀ r ∈ rs, r.name ≠ request.receiver) (s : σ) :
    (filled rs).dispatch request s
      = (some (.error ("unknown receiver '" ++ request.receiver ++ "'")), s) := by
  apply dispatch_unknown
  rw [get?_filled]
  exact find?_name_none_iff.2 hnobody

theorem noted_names (h : ∀ r ∈ rs, r.name ≠ name) : ∀ r ∈ noted rs, r.name ≠ name := by
  intro m hm
  obtain ⟨r, hr, hname⟩ := name_of_mem_noted hm
  rw [hname]
  exact h r hr

theorem routes (rs : List (Receiver σ)) (request : Request) : Routes rs request := by
  have hknown {front : List (Receiver σ)} {r : Receiver σ} {back : List (Receiver σ)}
      (hsplit : rs = front ++ r :: back) (hname : r.name = request.receiver)
      (hfront : ∀ a ∈ front, a.name ≠ request.receiver) (s : σ) (calls : List (Nat × Request)) :
      (filled (noted rs)).dispatch request (s, calls)
        = ((r.receive request s).1.response?, (r.receive request s).2,
          calls ++ [(front.length, request)]) := by
    obtain ⟨behind, hnoted⟩ := noted_split front r back
    rw [← hsplit] at hnoted
    exact dispatch_first hnoted hname (noted_names hfront) (s, calls)
  refine ⟨?_, ?_, ?_⟩
  · intro front r back hsplit hname hfront s calls
    exact ⟨_, answered _, hknown hsplit hname hfront s calls⟩
  · intro hnobody s calls
    exact dispatch_nobody (noted_names hnobody) (s, calls)
  · intro s calls
    cases hfound : rs.find? fun r => r.name == request.receiver with
    | none =>
      have hnobody := find?_name_none_iff.1 hfound
      rw [dispatch_nobody hnobody, dispatch_nobody (noted_names hnobody)]
    | some r =>
      obtain ⟨front, back, hsplit, hname, hfront⟩ := find?_name_iff.1 hfound
      rw [dispatch_first hsplit hname hfront, hknown hsplit hname hfront]

end Registry

/-! ## Agents -/

namespace Agent
variable {σ : Type} {part : Part σ AgentState} {config : AgentConfig} {extra : List (Receiver σ)}
  {name : String}

/-- The built-in receivers, at work on a part of a larger state. -/
def builtin (part : Part σ AgentState) (tool : ToolConfig) : List (Receiver σ) :=
  (Builtin.receivers tool).map fun r => ⟨r.name, fun request => part.lift (r.receive request)⟩

/-- The names of the built-in receivers. -/
def builtinNames : List String :=
  ["PingReceiver", "KillVmReceiver", "GcReceiver", "HeapDumpReceiver"]

/-- What becomes of an agent with receivers of its own. -/
structure Assembled (part : Part σ AgentState) (config : AgentConfig) (extra : List (Receiver σ)) :
    Prop where
  /-- There is an agent exactly if the names are distinct and none of them is a built-in one. -/
  succeeds : (∃ agent, ofConfig part config extra = .ok agent)
    ↔ (extra.map Receiver.name).Nodup ∧ ∀ r ∈ extra, r.name ∉ builtinNames
  /-- Otherwise the first name is told that is there already. -/
  refused : ∀ e, ofConfig part config extra = .error e ↔
    ∃ front r back, extra = front ++ r :: back ∧ (front.map Receiver.name).Nodup
      ∧ (∀ a ∈ front, a.name ∉ builtinNames)
      ∧ (r.name ∈ builtinNames ∨ r.name ∈ front.map Receiver.name) ∧ e = .duplicateReceiver r.name
  /-- The agent has the built-in receivers and the others, as if registered one after another. -/
  result : ∀ agent, ofConfig part config extra = .ok agent → agent.endpoint = config.endpoint
    ∧ agent.receivers = Registry.filled (builtin part config.tool ++ extra)
    ∧ ∀ r ∈ builtin part config.tool ++ extra, agent.receivers.get? r.name = some r

theorem map_name_builtin (part : Part σ AgentState) (tool : ToolConfig) :
    (builtin part tool).map Receiver.name = builtinNames := by
  unfold builtin
  rw [List.map_map]
  exact Builtin.builtin_names tool

theorem mem_keys_builtin {tool : ToolConfig} :
    name ∈ (Registry.filled (builtin part tool)).keys ↔ name ∈ builtinNames := by
  rw [Registry.mem_keys_filled, ← map_name_builtin part tool, List.mem_map]

/-- The built-in receivers are taken, and the others come after them. -/
theorem ofConfig_eq (part : Part σ AgentState) (config : AgentConfig) (extra : List (Receiver σ)) :
    ofConfig part config extra
      = ((Registry.filled (builtin part config.tool)).registerAll extra).map
        fun receivers => ⟨config.endpoint, receivers⟩ := by
  have hbuiltin : Registry.registerAll .empty (builtin part config.tool)
      = .ok (Registry.filled (builtin part config.tool)) := by
    apply Registry.registerAll_empty
    rw [map_name_builtin]
    decide
  have hsplit : Registry.registerAll .empty (builtin part config.tool ++ extra)
      = (Registry.filled (builtin part config.tool)).registerAll extra := by
    unfold Registry.registerAll at hbuiltin ⊢
    rw [List.foldlM_append, hbuiltin]
    rfl
  show (Registry.registerAll .empty (builtin part config.tool ++ extra) >>= _) = _
  rw [hsplit]
  cases (Registry.filled (builtin part config.tool)).registerAll extra <;> rfl

/-- If no two receivers share a name, each of them is found under its own. -/
theorem get?_filled_of_nodup {rs : List (Receiver σ)} (h : (rs.map Receiver.name).Nodup)
    {r : Receiver σ} (hr : r ∈ rs) : (Registry.filled rs).get? r.name = some r := by
  obtain ⟨front, back, rfl⟩ := List.append_of_mem hr
  rw [Registry.get?_filled]
  refine Registry.find?_name_iff.2 ⟨front, back, rfl, rfl, ?_⟩
  intro a ha
  rw [List.map_append, List.nodup_append] at h
  exact h.2.2 _ (List.mem_map_of_mem ha) _ List.mem_cons_self

theorem assembled (part : Part σ AgentState) (config : AgentConfig) (extra : List (Receiver σ)) :
    Assembled part config extra := by
  have htaken (receivers : Registry σ) :
      (Registry.filled (builtin part config.tool)).registerAll extra = .ok receivers
        ↔ receivers = Registry.filled (builtin part config.tool ++ extra)
          ∧ (extra.map Receiver.name).Nodup ∧ ∀ r ∈ extra, r.name ∉ builtinNames := by
    rw [Registry.registerAll_ok_iff, Registry.filled_append]
    simp only [mem_keys_builtin]
  have hrefused (e : LinkError) :
      (Registry.filled (builtin part config.tool)).registerAll extra = .error e ↔
        ∃ front r back, extra = front ++ r :: back ∧ (front.map Receiver.name).Nodup
          ∧ (∀ a ∈ front, a.name ∉ builtinNames)
          ∧ (r.name ∈ builtinNames ∨ r.name ∈ front.map Receiver.name)
          ∧ e = .duplicateReceiver r.name := by
    rw [Registry.registerAll_error_iff]
    simp only [mem_keys_builtin]
  refine ⟨?_, ?_, ?_⟩
  · rw [ofConfig_eq]
    constructor
    · intro h
      obtain ⟨agent, hagent⟩ := h
      cases hall : (Registry.filled (builtin part config.tool)).registerAll extra with
      | error e =>
        rw [hall] at hagent
        cases hagent
      | ok receivers => exact ((htaken receivers).1 hall).2
    · intro h
      rw [(htaken _).2 ⟨rfl, h⟩]
      exact ⟨_, rfl⟩
  · intro e
    rw [ofConfig_eq, ← hrefused e]
    cases (Registry.filled (builtin part config.tool)).registerAll extra <;> simp [Except.map]
  · intro agent hagent
    rw [ofConfig_eq] at hagent
    cases hall : (Registry.filled (builtin part config.tool)).registerAll extra with
    | error e =>
      rw [hall] at hagent
      cases hagent
    | ok receivers =>
      rw [hall] at hagent
      obtain rfl : agent = ⟨config.endpoint, receivers⟩ := (Except.ok.inj hagent).symm
      obtain ⟨hfilled, hnodup, hother⟩ := (htaken receivers).1 hall
      have hdistinct : ((builtin part config.tool ++ extra).map Receiver.name).Nodup := by
        rw [List.map_append, map_name_builtin, List.nodup_append]
        refine ⟨by decide, hnodup, fun name hname other hmem => ?_⟩
        obtain ⟨a, ha, rfl⟩ := List.mem_map.1 hmem
        intro heq
        exact hother a ha (heq ▸ hname)
      refine ⟨rfl, hfilled, fun r hr => ?_⟩
      show receivers.get? r.name = some r
      rw [hfilled]
      exact get?_filled_of_nodup hdistinct hr

/-- Whatever is registered and in whatever order, the first receiver under a name is the one that is
found and called under it; an agent's built-in receivers come first, so their names are sealed. -/
theorem first_registered_answers (rs : List (Receiver σ)) (request : Request)
    (part : Part σ AgentState) (config : AgentConfig) (extra : List (Receiver σ)) :
    Registry.FirstWins rs ∧ Assembled part config extra ∧ Registry.Routes rs request :=
  ⟨Registry.first_wins rs, assembled part config extra, Registry.routes rs request⟩

end Agent
end CommandLink
