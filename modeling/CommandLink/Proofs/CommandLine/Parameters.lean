import CommandLink.CommandLine
import CommandLink.Proofs.Delivery.Wired
import CommandLink.Proofs.RequestText
import Mathlib.Data.List.Forall2
/-!
# Parameters from the command line

Each `--param` gives one text, which must have something before its first equals sign. The request that
is sent has a parameter for each name that was given so, with what stands behind the equals sign of the
last text of that name. That is what a receiver gets to see, at whatever endpoint.

Results:
* `takeOptions_joined`, `takeOptions_apart`: the two ways to give an option its value.
* `takeOptions_params`: any texts can be given as parameters.
* `sendCommand_eq`: a command to send is read if it is without its parameters and they are.
* `lookup_iff_lastGiven`: of texts with one name the last one counts.
* `parameters_arrive`: which texts are taken, and what arrives of them.
-/
namespace CommandLink.CommandLine

variable {given before : List Given} {texts args line : List String} {text name value : String}
  {ps : List (String × String)} {o : SendOptions}

/-! ## Giving an option its value -/

theorem splitEquals_joined (h : '=' ∉ name.toList) (value : String) :
    splitEquals (name ++ "=" ++ value) = (name, some value) := by
  have hsplit : splitChars (name ++ "=" ++ value).toList = (name.toList, some value.toList) :=
    splitChars_some_iff.2 ⟨by simp, h⟩
  rw [splitEquals, hsplit]
  simp

theorem splitEquals_alone (h : '=' ∉ name.toList) : splitEquals name = (name, none) := by
  have hsplit : splitChars name.toList = (name.toList, none) := by
    generalize name.toList = cs at h ⊢
    induction cs with
    | nil => rfl
    | cons c cs ih =>
      rw [List.mem_cons, not_or] at h
      rw [splitChars, if_neg (Ne.symm h.1), ih h.2]
  rw [splitEquals, hsplit]
  simp

theorem toList_option (text : String) : ("--" ++ text).toList = '-' :: '-' :: text.toList := by
  rw [String.toList_append]
  rfl

theorem option_ne (h : text ≠ "") : "--" ++ text ≠ "--" := fun heq => by
  have hlist := congrArg String.toList heq
  rw [toList_option] at hlist
  exact h (String.toList_eq_nil_iff.1 (List.cons.inj (List.cons.inj hlist).2).2)

theorem isValue_option (text : String) : isValue ("--" ++ text) = false := by
  have hne : "--" ++ text ≠ "-" := fun heq => by
    have hlist := congrArg String.toList heq
    rw [toList_option] at hlist
    cases hlist
  simp [isValue, hne]

theorem optionText?_option (text : String) : optionText? ("--" ++ text) = some text := by
  unfold optionText?
  rw [toList_option]
  exact congrArg some String.ofList_toList

section Options
variable {specs : List OptionSpec} {spec : OptionSpec}

/-- An option with its value behind an equals sign. -/
theorem takeOptions_joined (hspec : specs.find? (·.name == name) = some spec)
    (htakes : spec.takes ≠ .nothing) (hplain : '=' ∉ name.toList) (given : List Given)
    (value : String) (rest : List String) :
    takeOptions specs given (("--" ++ (name ++ "=" ++ value)) :: rest)
      = add spec value given >>= fun given => takeOptions specs given rest := by
  have hne : name ++ "=" ++ value ≠ "" := fun h => by simpa using congrArg String.toList h
  rw [takeOptions, isValue_option, optionText?_option]
  · dsimp only
    rw [splitEquals_joined hplain]
    simp only [Bool.false_eq_true, if_false, hspec, htakes]
  · exact fun h => absurd h (option_ne hne)

/-- An option with its value as an argument of its own, which must not look like an option. -/
theorem takeOptions_apart (hspec : specs.find? (·.name == name) = some spec)
    (htakes : spec.takes ≠ .nothing) (hplain : '=' ∉ name.toList) (hname : name ≠ "")
    (hvalue : isValue value = true) (given : List Given) (rest : List String) :
    takeOptions specs given (("--" ++ name) :: value :: rest)
      = add spec value given >>= fun given => takeOptions specs given rest := by
  rw [takeOptions, isValue_option, optionText?_option]
  · dsimp only
    rw [splitEquals_alone hplain]
    simp only [Bool.false_eq_true, if_false, hspec, htakes, hvalue, if_true]
  · exact fun h => absurd h (option_ne hname)

end Options

/-! ## Giving parameters -/

/-- Texts and the arguments by which they are given as parameters. -/
inductive Spelled : List String → List String → Prop
  | nil : Spelled [] []
  | joined {texts args : List String} (text : String) (h : Spelled texts args) :
      Spelled (text :: texts) (("--" ++ ("param" ++ "=" ++ text)) :: args)
  | apart {texts args : List String} {text : String} (hvalue : isValue text = true)
      (h : Spelled texts args) : Spelled (text :: texts) (("--" ++ "param") :: text :: args)

theorem add_param (text : String) (given : List Given) :
    add ⟨"param", .values⟩ text given = .ok (given ++ [("param", text)]) := by
  rw [add, if_neg fun h => h.1 rfl]

/-- Any texts can be given as parameters, and are taken up as they are. -/
theorem takeOptions_params (h : Spelled texts args) (given : List Given) (rest : List String) :
    takeOptions sendSpecs given (args ++ rest)
      = takeOptions sendSpecs (given ++ texts.map fun text => ("param", text)) rest := by
  have hspec : sendSpecs.find? (·.name == "param") = some ⟨"param", .values⟩ := rfl
  induction h generalizing given with
  | nil => rw [List.map_nil, List.append_nil, List.nil_append]
  | joined text _ ih =>
    rw [List.cons_append, takeOptions_joined hspec nofun (by decide), add_param]
    simp only [bind, Except.bind, ih, List.append_assoc, List.map_cons, List.singleton_append]
  | apart hvalue _ ih =>
    rw [List.cons_append, List.cons_append,
      takeOptions_apart hspec nofun (by decide) (by decide) hvalue, add_param]
    simp only [bind, Except.bind, ih, List.append_assoc, List.map_cons, List.singleton_append]

/-! ## What a text names -/

/-- A text names a parameter by what stands before its first equals sign. What stands behind is the
value. -/
def Names (text name value : String) : Prop := text = name ++ "=" ++ value ∧ '=' ∉ name.toList

/-- A text that names some parameter: something stands before its first equals sign. -/
def Acceptable (text : String) : Prop := ∃ name value, Names text name value ∧ name ≠ ""

/-- The last of the texts that name a parameter gives it this value. -/
def LastGiven (texts : List String) (name value : String) : Prop :=
  ∃ front text behind, texts = front ++ text :: behind ∧ Names text name value
    ∧ ∀ other ∈ behind, ∀ v, ¬Names other name v

theorem Names.unique {name' value' : String} (h : Names text name value)
    (h' : Names text name' value') : name = name' ∧ value = value' := by
  have hsplit := splitEquals_joined h.2 value
  rw [← h.1, h'.1, splitEquals_joined h'.2] at hsplit
  cases hsplit
  exact ⟨rfl, rfl⟩

theorem parameter_iff_names {p : String × String} :
    parameter text = .ok p ↔ Names text p.1 p.2 ∧ p.1 ≠ "" := by
  rw [Names, and_assoc]
  exact parameter_ok_iff

/-- Texts and the parameters that they name. -/
def Named (texts : List String) (ps : List (String × String)) : Prop :=
  List.Forall₂ (fun text p => Names text p.1 p.2 ∧ p.1 ≠ "") texts ps

theorem bind_eq_ok {ε α β : Type} {x : Except ε α} {f : α → Except ε β} {b : β}
    (h : x >>= f = .ok b) : ∃ a, x = .ok a ∧ f a = .ok b := by
  cases x with
  | error e => cases h
  | ok a => exact ⟨a, rfl, h⟩

theorem mapM_parameter_iff : texts.mapM parameter = .ok ps ↔ Named texts ps := by
  induction texts generalizing ps with
  | nil =>
    rw [Named, List.forall₂_nil_left_iff]
    exact ⟨fun h => (Except.ok.inj h).symm, fun h => congrArg Except.ok h.symm⟩
  | cons text texts ih =>
    rw [List.mapM_cons, Named, List.forall₂_cons_left_iff]
    constructor
    · intro h
      obtain ⟨p, hp, h⟩ := bind_eq_ok h
      obtain ⟨ps', hps, h⟩ := bind_eq_ok h
      cases h
      exact ⟨p, ps', parameter_iff_names.1 hp, ih.1 hps, rfl⟩
    · rintro ⟨p, ps', hp, hps, rfl⟩
      rw [parameter_iff_names.2 hp, ih.2 hps]
      rfl

theorem exists_named_iff : (∃ ps, Named texts ps) ↔ ∀ text ∈ texts, Acceptable text := by
  induction texts with
  | nil => simp [Named]
  | cons text texts ih =>
    simp only [Named, List.forall₂_cons_left_iff, List.forall_mem_cons] at ih ⊢
    rw [← ih]
    constructor
    · rintro ⟨_, p, ps, hp, hps, rfl⟩
      exact ⟨⟨p.1, p.2, hp⟩, ps, hps⟩
    · rintro ⟨⟨name, value, hp⟩, ps, hps⟩
      exact ⟨_, (name, value), ps, hp, hps, rfl⟩

/-! ## The last text counts -/

theorem lastGiven_cons : LastGiven (text :: texts) name value ↔ LastGiven texts name value
    ∨ Names text name value ∧ ∀ other ∈ texts, ∀ v, ¬Names other name v := by
  constructor
  · rintro ⟨front, last, behind, htexts, hnames, hnone⟩
    rcases List.cons_eq_append_iff.1 htexts with ⟨rfl, hcons⟩ | ⟨front, rfl, rfl⟩
    · cases hcons
      exact .inr ⟨hnames, hnone⟩
    · exact .inl ⟨front, last, behind, rfl, hnames, hnone⟩
  · rintro (⟨front, last, behind, rfl, hnames, hnone⟩ | ⟨hnames, hnone⟩)
    · exact ⟨text :: front, last, behind, rfl, hnames, hnone⟩
    · exact ⟨[], text, texts, rfl, hnames, hnone⟩

theorem not_names_iff (h : Named texts ps) :
    (∀ text ∈ texts, ∀ value, ¬Names text name value) ↔ ∀ p ∈ ps, name ≠ p.1 := by
  induction h with
  | nil => simp
  | @cons text p texts ps hp _ ih =>
    have hone : (∀ value, ¬Names text name value) ↔ name ≠ p.1 := by
      constructor
      · intro h hname
        exact h p.2 (hname ▸ hp.1)
      · intro hne value h
        exact hne (h.unique hp.1).1
    rw [List.forall_mem_cons, List.forall_mem_cons, ih, hone]

/-- Of parameters with one name the last one counts, as it does of the texts. -/
theorem lookup_iff_lastGiven (h : Named texts ps) :
    ps.reverse.lookup name = some value ↔ LastGiven texts name value := by
  induction h with
  | nil => simp [LastGiven]
  | @cons text p texts ps hp hps ih =>
    have hnone : ps.reverse.lookup name = none ↔ ∀ other ∈ texts, ∀ v, ¬Names other name v := by
      rw [not_names_iff hps, List.lookup_eq_none_iff]
      simp
    have hone : [p].lookup name = some value ↔ Names text name value := by
      rw [List.lookup_cons, List.lookup_nil]
      by_cases hname : name = p.1
      · rw [hname, beq_self_eq_true]
        constructor
        · rintro ⟨⟩
          exact hp.1
        · exact fun h => congrArg some (hp.1.unique h).2
      · rw [beq_false_of_ne hname]
        exact ⟨nofun, fun h => absurd (h.unique hp.1).1 hname⟩
    rw [List.reverse_cons, List.lookup_append, Option.or_eq_some_iff, ih, lastGiven_cons, hnone, hone,
      and_comm (a := Names text name value)]

/-! ## Commands to send -/

/-- The texts of the parameters, in the order in which they were given. -/
def parameterTexts (given : List Given) : List String :=
  (given.filter fun g => g.1 == "param").map Prod.snd

/-- All other options. -/
def others (given : List Given) : List Given := given.filter fun g => g.1 != "param"

theorem parameterTexts_others (given : List Given) : parameterTexts (others given) = [] := by
  simp [parameterTexts, others]

section Others
variable {option : String}

theorem lookup_others (h : option ≠ "param") (given : List Given) :
    (others given).lookup option = given.lookup option := by
  induction given with
  | nil => rfl
  | cons g given ih =>
    obtain ⟨name, value⟩ := g
    by_cases hname : name = "param"
    · subst hname
      rw [others, List.filter_cons_of_neg (by simp), List.lookup_cons, beq_false_of_ne h]
      exact ih
    · rw [others, List.filter_cons_of_pos (by simpa using hname), List.lookup_cons, List.lookup_cons,
        ← ih]
      rfl

theorem required_others (h : option ≠ "param") (given : List Given) :
    required (others given) option = required given option := by
  rw [required, required, lookup_others h]

theorem requiredPath_others (h : option ≠ "param") (given : List Given) :
    requiredPath (others given) option = requiredPath given option := by
  rw [requiredPath, requiredPath, required_others h]

end Others

theorem endpointOf_others (given : List Given) : endpointOf (others given) = endpointOf given := by
  rw [endpointOf, endpointOf, required_others (by decide)]

theorem timeoutOf_others (given : List Given) : timeoutOf (others given) = timeoutOf given := by
  rw [timeoutOf, timeoutOf, lookup_others (by decide)]

/-- A command to send is read if it is without its parameters and they are. -/
theorem sendCommand_eq (h : sendCommand (others given) = .ok (.send o)) : sendCommand given
    = (parameterTexts given).mapM parameter >>= fun ps => .ok (.send { o with parameters := ps }) := by
  have hnone := parameterTexts_others given
  unfold parameterTexts at hnone
  unfold sendCommand at h ⊢
  rw [hnone, requiredPath_others (by decide), endpointOf_others, required_others (by decide),
    required_others (by decide), lookup_others (by decide), timeoutOf_others] at h
  obtain ⟨properties, hproperties, h⟩ := bind_eq_ok h
  obtain ⟨endpoint, hendpoint, h⟩ := bind_eq_ok h
  obtain ⟨receiver, hreceiver, h⟩ := bind_eq_ok h
  obtain ⟨action, haction, h⟩ := bind_eq_ok h
  obtain ⟨parameters, hparameters, h⟩ := bind_eq_ok h
  obtain ⟨timeout, htimeout, h⟩ := bind_eq_ok h
  cases h
  rw [hproperties, hendpoint, hreceiver, haction, htimeout]
  rfl

theorem parse_send (hline : takeOptions [logLevel] [] line = .ok (before, "send" :: args))
    (hargs : allOptions sendSpecs args = .ok given) : parse line = sendCommand given := by
  simp only [parse, hline, bind, Except.bind, hargs]

/-! ## What arrives -/

theorem parameters_request (o : SendOptions) : o.request.parameters = Table.ofList o.parameters :=
  (List.foldl_hom Request.parameters fun _ _ => rfl).symm

/-- A request has the parameters that the texts name. -/
theorem Named.parameter?_iff (h : Named texts o.parameters) {r : Request}
    (hr : r.parameters = o.request.parameters) (name value : String) :
    r.parameter? name = some value ↔ LastGiven texts name value := by
  rw [Request.parameter?, hr, parameters_request, Request.get?_ofList, lookup_iff_lastGiven h]

/-- The texts of a command to send that is in order otherwise are taken exactly if each has something
before its first equals sign. Then what is decoded of the request, wherever it arrives, and what is
handed to the receivers in a net, have for each name what stands behind the first equals sign of the
last text of that name, and no other parameters. -/
theorem parameters_arrive (hline : takeOptions [logLevel] [] line = .ok (before, "send" :: args))
    (hargs : allOptions sendSpecs args = .ok given)
    (hothers : sendCommand (others given) = .ok (.send o)) :
    ((∃ sent, parse line = .ok (.send sent)) ↔ ∀ text ∈ parameterTexts given, Acceptable text)
    ∧ ∀ sent, parse line = .ok (.send sent) →
      (∀ e : EndpointName, ∃ r, Request.decode sent.request.encode e = .ok r
        ∧ ∀ name value, r.parameter? name = some value
          ↔ LastGiven (parameterTexts given) name value)
      ∧ ∀ {χ σ : Type} [DecidableEq χ] (n : Net χ σ), n.Reachable → ∀ c ∈ n.calls, ∀ l,
        (Log.puts n.client.log)[c.number]? = some (sent.request.addListener l) →
        ∀ name value, c.request.parameter? name = some value
          ↔ LastGiven (parameterTexts given) name value := by
  rw [parse_send hline hargs, sendCommand_eq hothers]
  constructor
  · rw [← exists_named_iff]
    constructor
    · rintro ⟨sent, h⟩
      obtain ⟨ps, hps, -⟩ := bind_eq_ok h
      exact ⟨ps, mapM_parameter_iff.1 hps⟩
    · rintro ⟨ps, hps⟩
      rw [mapM_parameter_iff.2 hps]
      exact ⟨_, rfl⟩
  · intro sent h
    obtain ⟨ps, hps, hsent⟩ := bind_eq_ok h
    have hnamed : Named (parameterTexts given) sent.parameters := by
      cases hsent
      exact mapM_parameter_iff.1 hps
    refine ⟨fun e => ⟨_, sent.request.decode_encode e, hnamed.parameter?_iff rfl⟩, ?_⟩
    intro χ σ _ n hn c hc l hput
    obtain ⟨-, r, hr⟩ := (Net.wired_reachable hn).called c hc
    obtain rfl := Option.some.inj (hput.symm.trans hr.put)
    exact hnamed.parameter?_iff ((congrArg Request.parameters hr.request).trans rfl)

theorem ok_of_toOption {ε α : Type} {x : Except ε α} {a : α} (h : x.toOption = some a) :
    x = .ok a := by
  cases x with
  | error e => cases h
  | ok b => cases h; rfl

/-- A command line in which a name is given twice, and values have equals signs, white space, quotes and
control characters in them, or nothing. -/
def unusualLine : List String :=
  ["--log-level=debug", "send", "--properties", "p", "--param", "k=1", "--endpoint=agent",
   "--param=k=a=b", "--receiver", "R", "--param", "\" =\x00\t=", "--action", "A", "--param=e=",
   "--no-response"]

def unusualOptions : List Given :=
  [("properties", "p"), ("param", "k=1"), ("endpoint", "agent"), ("param", "k=a=b"),
   ("receiver", "R"), ("param", "\" =\x00\t="), ("action", "A"), ("param", "e="), ("no-response", "")]

theorem named_unusual : Named (parameterTexts unusualOptions)
    [("k", "1"), ("k", "a=b"), ("\" ", "\x00\t="), ("e", "")] := by
  have htexts : parameterTexts unusualOptions = ["k=1", "k=a=b", "\" =\x00\t=", "e="] := by
    decide +kernel
  rw [htexts]
  exact .cons ⟨⟨by decide +kernel, by decide⟩, by decide⟩ (.cons ⟨⟨by decide +kernel, by decide⟩,
    by decide⟩ (.cons ⟨⟨by decide +kernel, by decide⟩, by decide⟩
      (.cons ⟨⟨by decide +kernel, by decide⟩, by decide⟩ .nil)))

theorem sendCommand_unusual : sendCommand (others unusualOptions)
    = .ok (.send ⟨⟨"p"⟩, .agent, "R", "A", [], .noResponse, 30⟩) := by
  have hagent : EndpointName.ofText? "agent" = some .agent := by decide +kernel
  simp [unusualOptions, others, sendCommand, requiredPath, required, endpointOf, timeoutOf, hagent,
    List.lookup_cons, bind, Except.bind, pure, Except.pure, defaultTimeout]

/-- The texts of the unusual command line arrive. -/
theorem parameters_arrive_unusual : ∃ sent, parse unusualLine = .ok (.send sent)
    ∧ ∃ r, Request.decode sent.request.encode .agent = .ok r ∧ r.parameter? "k" = some "a=b"
      ∧ r.parameter? "\" " = some "\x00\t=" ∧ r.parameter? "e" = some ""
      ∧ ∀ value, r.parameter? "a" ≠ some value := by
  have hline : takeOptions [logLevel] [] unusualLine
      = .ok ([("log-level", "debug")], "send" :: unusualLine.drop 2) :=
    ok_of_toOption (by decide +kernel)
  have hargs : allOptions sendSpecs (unusualLine.drop 2) = .ok unusualOptions :=
    ok_of_toOption (by decide +kernel)
  obtain ⟨haccepted, harrives⟩ := parameters_arrive hline hargs sendCommand_unusual
  obtain ⟨sent, hsent⟩ := haccepted.2 (exists_named_iff.1 ⟨_, named_unusual⟩)
  obtain ⟨r, hr, hparameter⟩ := (harrives sent hsent).1 .agent
  have hlast {name value : String} :
      _ ↔ LastGiven (parameterTexts unusualOptions) name value := lookup_iff_lastGiven named_unusual
  refine ⟨sent, hsent, r, hr, ?_, ?_, ?_, fun value h => ?_⟩
  · exact (hparameter _ _).2 (hlast.1 (by decide))
  · exact (hparameter _ _).2 (hlast.1 (by decide))
  · exact (hparameter _ _).2 (hlast.1 (by decide))
  · cases hlast.2 ((hparameter _ _).1 h)

end CommandLink.CommandLine
