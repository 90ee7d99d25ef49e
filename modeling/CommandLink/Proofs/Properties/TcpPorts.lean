import CommandLink.Proofs.Places
import CommandLink.Proofs.Text.ByteOrder
import CommandLink.Proofs.Text.Numerals
import CommandLink.Properties
/-!
# Ports of a TCP link

Every member under `tcp.port.` is to give the port of an endpoint. If all of them do, the link has these
ports and no others; if not, the first one in the order of bytes is told. Nothing else but the host is
looked at.

Results:
* `Sound.enterPort`, `Offends.enterPort`: what one member does.
* `enterPorts_ok`, `enterPorts_error`: all members, one after another.
* `readTcp_cases`: a link with the ports that are given, or the first offence.
* `resolves_tcp`: what becomes of the properties of a TCP link.
-/
namespace CommandLink.Properties
variable {raw : RawProperties} {source : Path} {ports ports' : Table Nat} {key value name : String}
  {reason : String} {e : LinkError} {n : Nat}

/-- A member that gives no port, or the port of an endpoint. -/
def Sound (key value : String) : Prop :=
  ∀ name, key = portKey ++ name → isPlainName name = true
    ∧ ∃ n, Text.Denotes value n ∧ n ≤ 65535

/-- What is told of a member that is not sound: its name, or its value if the name is right. -/
inductive Offends : String → String → String → Prop
  | name {name value : String} (h : isPlainName name = false) :
      Offends (portKey ++ name) value (LinkError.invalidEndpointName name).message
  | value {name value : String} (hname : isPlainName name = true)
      (h : ¬∃ n, Text.Denotes value n ∧ n ≤ 65535) :
      Offends (portKey ++ name) value ("invalid port '" ++ value ++ "' for " ++ (portKey ++ name))

/-! ## One member -/

theorem portKeyRest?_eq_some : portKeyRest? key = some name ↔ key = portKey ++ name := by
  unfold portKeyRest?
  rw [← String.toList_inj, String.toList_append]
  constructor
  · intro h
    split at h
    · next hprefix =>
      obtain ⟨rest, hrest⟩ := List.isPrefixOf_iff_prefix.1 hprefix
      cases h
      rw [← hrest, List.drop_left, String.toList_ofList]
    · cases h
  · intro h
    rw [h, if_pos (List.isPrefixOf_iff_prefix.2 ⟨_, rfl⟩), List.drop_left, String.ofList_toList]

theorem portKeyRest?_append (name : String) : portKeyRest? (portKey ++ name) = some name :=
  portKeyRest?_eq_some.2 rfl

theorem portKey_inj {name name' : String} : portKey ++ name = portKey ++ name' ↔ name = name' :=
  String.append_right_inj portKey

/-- A member is sound, or something is told of it. -/
theorem sound_or_offends (key value : String) :
    Sound key value ∨ ∃ reason, Offends key value reason := by
  by_cases hkey : ∃ name, key = portKey ++ name
  · obtain ⟨name, rfl⟩ := hkey
    cases hname : isPlainName name with
    | false => exact .inr ⟨_, .name hname⟩
    | true =>
      by_cases hvalue : ∃ n, Text.Denotes value n ∧ n ≤ 65535
      · refine .inl fun other hother => ?_
        obtain rfl := portKey_inj.1 hother
        exact ⟨hname, hvalue⟩
      · exact .inr ⟨_, .value hname hvalue⟩
  · exact .inl fun name hname => absurd ⟨name, hname⟩ hkey

/-- A sound member sets the port that it gives, and no other one. -/
theorem Sound.enterPort (h : Sound key value) (source : Path) (ports : Table Nat) :
    ∃ ports', enterPort source ports key value = .ok ports' ∧ ∀ name n, ports'.get? name = some n
      ↔ key = portKey ++ name ∧ Text.Denotes value n
        ∨ key ≠ portKey ++ name ∧ ports.get? name = some n := by
  unfold Properties.enterPort
  cases hrest : portKeyRest? key with
  | none =>
    refine ⟨ports, rfl, fun name n => ?_⟩
    have hkey : key ≠ portKey ++ name := by
      intro hkey
      rw [portKeyRest?_eq_some.2 hkey] at hrest
      cases hrest
    simp [hkey]
  | some name =>
    obtain rfl := portKeyRest?_eq_some.1 hrest
    obtain ⟨hname, n, hn⟩ := h name rfl
    have hread : Text.readNumeral? Text.max16 (Text.trim value) = some n :=
      Text.readNumeral?_trim_iff.2 hn
    dsimp only
    rw [EndpointName.ofText, dif_pos hname, hread]
    refine ⟨ports.insert name n, rfl, fun other m => ?_⟩
    rw [Table.get?_insert, ne_eq, portKey_inj]
    by_cases hother : other = name
    · subst hother
      have hm : n = m ↔ Text.Denotes value m :=
        ⟨fun h => h ▸ hn.1, fun hm => hn.1.unique hm⟩
      simp [hm]
    · simp [hother, Ne.symm hother]

theorem Offends.enterPort (h : Offends key value reason) (source : Path) (ports : Table Nat) :
    enterPort source ports key value = .error (.malformedProperties source reason) := by
  unfold Properties.enterPort
  cases h with
  | @name name value h =>
    rw [portKeyRest?_append]
    dsimp only
    rw [EndpointName.ofText_error h]
  | @value name value hname h =>
    have hread : Text.readNumeral? Text.max16 (Text.trim value) = none := by
      cases hread : Text.readNumeral? Text.max16 (Text.trim value) with
      | none => rfl
      | some n => exact absurd ⟨n, Text.readNumeral?_trim_iff.1 hread⟩ h
    rw [portKeyRest?_append]
    dsimp only
    rw [EndpointName.ofText, dif_pos hname, hread]

/-- Nothing is told of a sound member. -/
theorem Offends.not_sound (h : Offends key value reason) : ¬Sound key value := by
  intro hsound
  obtain ⟨ports', hok, -⟩ := hsound.enterPort ⟨""⟩ .empty
  rw [h.enterPort] at hok
  cases hok

theorem Offends.unique {reason' : String} (h : Offends key value reason)
    (h' : Offends key value reason') : reason = reason' := by
  have hsame := h.enterPort ⟨""⟩ .empty
  rw [h'.enterPort] at hsame
  injection hsame with hsame
  injection hsame with _ hsame
  exact hsame.symm

/-! ## All members -/

/-- The members are sound as far as they are entered, and the ports are those that they give. -/
theorem enterPorts_ok {l : List (String × String)} (hl : Ascending l)
    (h : l.foldlM (fun ports m => enterPort source ports m.1 m.2) ports = .ok ports') :
    (∀ m ∈ l, Sound m.1 m.2) ∧ ∀ name n, ports'.get? name = some n
      ↔ (∃ value, (portKey ++ name, value) ∈ l ∧ Text.Denotes value n)
        ∨ (∀ value, (portKey ++ name, value) ∉ l) ∧ ports.get? name = some n := by
  induction l generalizing ports with
  | nil =>
    cases h
    simp
  | cons m l ih =>
    obtain ⟨key, value⟩ := m
    obtain ⟨hfirst, hl⟩ := List.pairwise_cons.1 hl
    rw [List.foldlM_cons] at h
    rcases sound_or_offends key value with hsound | ⟨reason, hoffends⟩
    · obtain ⟨next, hnext, hentered⟩ := hsound.enterPort source ports
      rw [hnext] at h
      obtain ⟨hall, hports⟩ := ih hl h
      refine ⟨List.forall_mem_cons.2 ⟨hsound, hall⟩, fun name n => ?_⟩
      rw [hports, hentered]
      by_cases hkey : key = portKey ++ name
      · subst hkey
        -- the names are distinct: no other member gives this port
        have hfresh (v : String) : (portKey ++ name, v) ∉ l := by
          intro hmem
          have hlt : portKey ++ name < portKey ++ name := hfirst (portKey ++ name, v) hmem
          exact String.lt_irrefl _ hlt
        simp [hfresh]
      · simp [hkey, Ne.symm hkey]
    · rw [hoffends.enterPort] at h
      cases h

theorem enterPorts_error {l : List (String × String)} (hl : Ascending l)
    (h : l.foldlM (fun ports m => enterPort source ports m.1 m.2) ports = .error e) :
    ∃ m reason, m ∈ l ∧ Offends m.1 m.2 reason ∧ (∀ m' ∈ l, m'.1 < m.1 → Sound m'.1 m'.2)
      ∧ e = .malformedProperties source reason := by
  rcases foldlM_stops (fun ports m => enterPort source ports m.1 m.2) ports l with
    ⟨ports', hend⟩ | ⟨front, m, back, ports', e', rfl, hfront, hstop, herror⟩
  · rw [hend] at h
    cases h
  · rw [herror] at h
    cases h
    obtain ⟨hascending, hrest, hacross⟩ := List.pairwise_append.1 hl
    obtain ⟨hsound, -⟩ := enterPorts_ok hascending hfront
    rcases sound_or_offends m.1 m.2 with hm | ⟨reason, hoffends⟩
    · obtain ⟨next, hnext, -⟩ := hm.enterPort source ports'
      rw [hnext] at hstop
      cases hstop
    · rw [hoffends.enterPort] at hstop
      cases hstop
      refine ⟨m, reason, List.mem_append_right _ List.mem_cons_self, hoffends, ?_, rfl⟩
      intro m' hmem hless
      rcases List.mem_append.1 hmem with hmem | hmem
      · exact hsound m' hmem
      · rcases List.mem_cons.1 hmem with rfl | hmem
        · exact absurd hless (String.lt_irrefl _)
        · have hmore : m.1 < m'.1 := (List.pairwise_cons.1 hrest).1 m' hmem
          exact absurd (String.lt_trans hless hmore) (String.lt_irrefl _)

/-! ## The link -/

/-- What the properties of a link are refused for: the first member, by the bytes of the names, that is
not sound. -/
structure Refused (raw : RawProperties) (key value reason : String) : Prop where
  member : raw.get? key = some value
  offends : Offends key value reason
  first : ∀ key' value', raw.get? key' = some value' →
    Text.Utf8.ofText key' < Text.Utf8.ofText key → Sound key' value'

/-- The ports are given by members, and all members are sound. -/
structure Given (raw : RawProperties) (ports : Table Nat) : Prop where
  sound : ∀ key value, raw.get? key = some value → Sound key value
  ports : ∀ name n, ports.get? name = some n
    ↔ ∃ value, raw.get? (portKey ++ name) = some value ∧ Text.Denotes value n

theorem Refused.unique {key' value' reason' : String} (h : Refused raw key value reason)
    (h' : Refused raw key' value' reason') : reason = reason' := by
  have hnotBefore : ¬key < key' := fun hless =>
    h.offends.not_sound (h'.first key value h.member (Text.Utf8.ofText_lt_iff.2 hless))
  have hnotBehind : ¬key' < key := fun hless =>
    h'.offends.not_sound (h.first key' value' h'.member (Text.Utf8.ofText_lt_iff.2 hless))
  obtain rfl : key = key' := Classical.byContradiction fun hne =>
    hnotBehind (lt_of_not_lt_of_ne hnotBefore hne)
  have hvalue := h'.member
  rw [h.member] at hvalue
  cases hvalue
  exact h.offends.unique h'.offends

theorem Given.unique (h : Given raw ports) (h' : Given raw ports') : ports = ports' := by
  refine Table.ext_get? fun name => Option.ext fun n => ?_
  rw [h.ports, h'.ports]

theorem Given.not_refused (h : Given raw ports) : ¬Refused raw key value reason :=
  fun h' => h'.offends.not_sound (h.sound key value h'.member)

theorem readTcp_cases (raw : RawProperties) (source : Path) :
    (∃ ports, Given raw ports
      ∧ readTcp raw source = .ok (.tcp ⟨(raw.get? "tcp.host").getD defaultHost, ports⟩))
    ∨ ∃ key value reason, Refused raw key value reason
      ∧ readTcp raw source = .error (.malformedProperties source reason) := by
  unfold readTcp
  cases hentered : raw.entries.foldlM (fun ports m => enterPort source ports m.1 m.2) .empty with
  | ok ports =>
    obtain ⟨hsound, hports⟩ := enterPorts_ok raw.ascending hentered
    refine .inl ⟨ports, ⟨fun key value hmember => ?_, fun name n => ?_⟩, rfl⟩
    · exact hsound (key, value) (Table.get?_eq_some_iff.1 hmember)
    · have hempty : (Table.empty : Table Nat).get? name = none := rfl
      rw [hports, hempty]
      simp [Table.get?_eq_some_iff]
  | error e =>
    obtain ⟨m, reason, hmem, hoffends, hfirst, rfl⟩ := enterPorts_error raw.ascending hentered
    refine .inr ⟨m.1, m.2, reason, ⟨Table.get?_eq_some_iff.2 hmem, hoffends, ?_⟩, rfl⟩
    intro key value hmember hless
    exact hfirst (key, value) (Table.get?_eq_some_iff.1 hmember) (Text.Utf8.ofText_lt_iff.1 hless)

theorem Given.readTcp (h : Given raw ports) (source : Path) :
    readTcp raw source = .ok (.tcp ⟨(raw.get? "tcp.host").getD defaultHost, ports⟩) := by
  rcases readTcp_cases raw source with ⟨ports', hgiven, hok⟩ | ⟨key, value, reason, hrefused, -⟩
  · rw [hok, h.unique hgiven]
  · exact absurd hrefused h.not_refused

theorem Refused.readTcp (h : Refused raw key value reason) (source : Path) :
    readTcp raw source = .error (.malformedProperties source reason) := by
  rcases readTcp_cases raw source with ⟨ports, hgiven, -⟩ | ⟨key', value', reason', hrefused, herror⟩
  · exact absurd h hgiven.not_refused
  · rw [herror, h.unique hrefused]

/-! ## Other members -/

section Others
variable {raw' : RawProperties}
  (hports : ∀ name, raw'.get? (portKey ++ name) = raw.get? (portKey ++ name))
include hports

theorem Given.congr (h : Given raw ports) : Given raw' ports where
  sound := by
    intro key value hmember name hkey
    subst hkey
    rw [hports] at hmember
    exact h.sound _ value hmember name rfl
  ports := by
    intro name n
    rw [hports]
    exact h.ports name n

theorem Refused.congr (h : Refused raw key value reason) : Refused raw' key value reason where
  member := by
    have hmember := h.member
    cases h.offends <;> rw [hports] <;> exact hmember
  offends := h.offends
  first := by
    intro key' value' hmember hless name hkey
    subst hkey
    rw [hports] at hmember
    exact h.first _ value' hmember hless name rfl

end Others

/-- How the properties of a TCP link are resolved. -/
structure ResolvesTcp (raw : RawProperties) (source : Path) : Prop where
  /-- There is a link exactly if every member is sound. -/
  succeeds : (∃ p, resolve builtinProviders .socket raw source = .ok p)
    ↔ ∀ key value, raw.get? key = some value → Sound key value
  /-- The link has the ports that members give, and the host that is named. -/
  result : ∀ p, resolve builtinProviders .socket raw source = .ok p → ∃ tcp, p = .tcp tcp
    ∧ tcp.host = (raw.get? "tcp.host").getD "127.0.0.1"
    ∧ ∀ e n, tcp.port? e = some n
      ↔ ∃ value, raw.get? ("tcp.port." ++ e.text) = some value ∧ Text.Denotes value n
  /-- Otherwise the first offence is told, with where the properties come from. -/
  refused : ∀ e, resolve builtinProviders .socket raw source = .error e
    ↔ ∃ key value reason, Refused raw key value reason ∧ e = .malformedProperties source reason
  /-- No other member matters. -/
  others : ∀ raw' : RawProperties, raw'.get? "tcp.host" = raw.get? "tcp.host" →
    (∀ name, raw'.get? ("tcp.port." ++ name) = raw.get? ("tcp.port." ++ name)) →
    resolve builtinProviders .socket raw' source = resolve builtinProviders .socket raw source

/-- The ports of a link are those that the members under `tcp.port.` give. If one of them gives none,
there is no link, and the first such member is told. -/
theorem resolves_tcp (raw : RawProperties) (source : Path) : ResolvesTcp raw source := by
  have hresolve (raw : RawProperties) :
      resolve builtinProviders .socket raw source = readTcp raw source :=
    resolve_builtin .socket raw source
  refine ⟨?_, ?_, ?_, ?_⟩
  · rw [hresolve]
    rcases readTcp_cases raw source with ⟨ports, hgiven, hok⟩ | ⟨key, value, reason, hrefused, herror⟩
    · rw [hok]
      exact ⟨fun _ => hgiven.sound, fun _ => ⟨_, rfl⟩⟩
    · rw [herror]
      exact ⟨nofun, fun h => absurd (h key value hrefused.member) hrefused.offends.not_sound⟩
  · intro p hp
    rw [hresolve] at hp
    rcases readTcp_cases raw source with ⟨ports, hgiven, hok⟩ | ⟨key, value, reason, -, herror⟩
    · rw [hok] at hp
      cases hp
      exact ⟨_, rfl, rfl, fun e n => hgiven.ports e.text n⟩
    · rw [herror] at hp
      cases hp
  · intro e
    rw [hresolve]
    constructor
    · intro he
      rcases readTcp_cases raw source with ⟨ports, -, hok⟩ | ⟨key, value, reason, hrefused, herror⟩
      · rw [hok] at he
        cases he
      · rw [herror] at he
        cases he
        exact ⟨key, value, reason, hrefused, rfl⟩
    · intro he
      obtain ⟨key, value, reason, hrefused, rfl⟩ := he
      exact hrefused.readTcp source
  · intro raw' hhost hports
    rw [hresolve, hresolve]
    rcases readTcp_cases raw source with ⟨ports, hgiven, hok⟩ | ⟨key, value, reason, hrefused, herror⟩
    · rw [hok, (hgiven.congr hports).readTcp source, hhost]
    · rw [herror, (hrefused.congr hports).readTcp source]

example : resolve builtinProviders .socket
    (.ofList [("tcp.port.b", "70000"), ("tcp.port.", "1"), ("host", "x")]) ⟨"ipc.json"⟩
    = .error (.malformedProperties ⟨"ipc.json"⟩ (LinkError.invalidEndpointName "").message) := rfl

end CommandLink.Properties
