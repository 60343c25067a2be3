import OppexSdk.Lib.JavaScriptJson
import OppexSdk.Node.IncidentClient

/-! # What the Node client puts on the wire

`buildIncidentRequest` lets a request through when its fields pass their checks; `deliver` resolves
the service key and `serializeRequest` hands the fields to `JSON.stringify`, which leaves out what
is undefined and writes `null` for a number that is not finite. `priority` and `srcTimestamp` are
guarded against that. `severity` is "unguarded on purpose". -/
namespace OppexSdk.Node
open OppexSdk.Lib OppexSdk.Lib.Binary64 OppexSdk.Lib.Interaction OppexSdk.Lib.JavaScript

/-! ## Requests that are let through -/

def NonBlank (s : JsString) : Prop := (trim s).length ≠ 0

/-- What `buildIncidentRequest` has checked. -/
structure IncidentRequest.Checked (r : IncidentRequest) : Prop where
  title : NonBlank r.title
  source : NonBlank r.source
  source_length : r.source.length ≤ maxSourceLength
  priority : 1 ≤ r.priority.toRat ∧ r.priority.toRat ≤ 5
  srcTimestamp : 0 < r.srcTimestamp.toRat
  component : ∀ s ∈ r.component, NonBlank s
  group : ∀ s ∈ r.group, NonBlank s
  type : ∀ s ∈ r.type, NonBlank s
  details : ∀ s ∈ r.details, NonBlank s

/-- What `input.severity` and `input.serviceKey` have to do with the request: one is left out when
the property is undefined and is what `Number` makes of it otherwise, the other is taken as it is.
A getter may answer each read with another of the values that it may return. -/
structure IncidentRequest.ReadFrom {σ : Type} (host : Host (hostSignature σ)) (engine : Engine)
    (input : Value) (r : IncidentRequest) : Prop where
  severity : ∃ v, MayReturn host v (getProp input "severity") ∧
    (v = .undefined ∧ r.severity = none ∨
      v ≠ .undefined ∧ ∃ w x, MayReturn host w (getProp input "severity") ∧
        MayReturn host x (numberOf engine w) ∧ r.severity = some x)
  serviceKey : ∃ v, MayReturn host v (getProp input "serviceKey") ∧
    (v = .undefined ∧ r.serviceKey = none ∨ v = .null ∧ r.serviceKey = some none ∨
      ∃ s, v = .string s ∧ r.serviceKey = some (some s))

section
variable {σ α β : Type} {host : Host (hostSignature σ)}

/-- A first part that may throw, with what it returns when it does not. -/
theorem always_then {P : α → Prop} {R : β → Prop} {m : Js σ α} {f : α → Js σ β}
    (hm : Always host P (fun _ => True) m)
    (hf : ∀ a, P a → Always host R (fun _ => True) (f a)) :
    Always host R (fun _ => True) (m >>= f) :=
  (always_bind m f).mpr (hm.mono hf fun _ _ => trivial)

/-- A first part of whose result nothing is needed. -/
theorem always_after {R : β → Prop} {m : Js σ α} {f : α → Js σ β}
    (hf : ∀ a, Always host R (fun _ => True) (f a)) :
    Always host R (fun _ => True) (m >>= f) :=
  always_then always_true fun a _ => hf a

/-- Two ways to come to the same rest. -/
theorem always_join {P : α → Prop} {R : β → Prop} {c : Prop} [Decidable c] {m n : Js σ α}
    {f : α → Js σ β} (hm : c → Always host P (fun _ => True) m)
    (hn : ¬ c → Always host P (fun _ => True) n)
    (hf : ∀ a, P a → Always host R (fun _ => True) (f a)) :
    Always host R (fun _ => True) (if c then m >>= f else n >>= f) := by
  split
  · rename_i hc
    exact always_then (hm hc) hf
  · rename_i hc
    exact always_then (hn hc) hf

theorem isUndefined_iff {v : Value} : v.isUndefined = true ↔ v = .undefined := by
  cases v <;> simp [Value.isUndefined]

theorem requireNonBlank_checked (value : Value) (field : String) :
    Always host NonBlank (fun _ => True) (requireNonBlank value field : Js σ JsString) := by
  unfold requireNonBlank
  split
  · split
    · trivial
    · rename_i h
      exact h
  · trivial

theorem optionalNonBlank_checked (value : Value) (field : String) :
    Always host (fun r => ∀ s ∈ r, NonBlank s) (fun _ => True)
      (optionalNonBlank value field : Js σ (Option JsString)) := by
  unfold optionalNonBlank
  split
  · exact nofun
  · exact nofun
  · split
    · trivial
    · rename_i h
      intro s hs
      cases hs
      exact h
  · trivial

theorem requireFinite_checked (value : Value) (inRange : Finite → Bool) (message : String) :
    Always host (fun x => inRange x = true) (fun _ => True)
      (requireFinite value inRange message : Js σ Finite) := by
  unfold requireFinite
  split
  · split
    · rename_i h
      exact h
    · trivial
  · trivial

theorem buildIncidentRequest_checked (engine : Engine) (input : Value) :
    Always host IncidentRequest.Checked (fun _ => True)
      (buildIncidentRequest engine input : Js σ IncidentRequest) := by
  unfold buildIncidentRequest
  split
  · trivial
  refine always_after fun v => always_then (requireNonBlank_checked v _) fun title htitle => ?_
  refine always_after fun v => always_then (requireNonBlank_checked v _) fun source hsource => ?_
  split
  · trivial
  rename_i hlength
  refine always_after fun v => always_join (fun _ => always_true) (fun _ => always_true) ?_
  refine fun severity _ => always_after fun priority => ?_
  refine always_then (requireFinite_checked _ _ _) fun priority hpriority => ?_
  refine always_after fun v => ?_
  refine always_then (requireFinite_checked _ _ _) fun srcTimestamp htime => ?_
  refine always_after fun v => always_after fun serviceKey => ?_
  refine always_after fun v => ?_
  refine always_then (optionalNonBlank_checked v _) fun component hcomponent => ?_
  refine always_after fun v => always_then (optionalNonBlank_checked v _) fun group hgroup => ?_
  refine always_after fun v => always_then (optionalNonBlank_checked v _) fun type htype => ?_
  refine always_after fun v => always_then (optionalNonBlank_checked v _) fun details hdetails => ?_
  simp only [Bool.not_eq_true', Bool.or_eq_false_iff, decide_eq_false_iff_not, not_lt,
    not_le] at hpriority htime
  exact ⟨htitle, hsource, Nat.le_of_not_lt hlength, hpriority, htime, hcomponent, hgroup, htype,
    hdetails⟩

theorem nullableString_read (value : Value) (field : String) :
    Always host (fun key => value = .undefined ∧ key = none ∨ value = .null ∧ key = some none ∨
        ∃ s, value = .string s ∧ key = some (some s)) (fun _ => True)
      (nullableString value field : Js σ (Option (Option JsString))) := by
  cases value with
  | undefined => exact .inl ⟨rfl, rfl⟩
  | null => exact .inr (.inl ⟨rfl, rfl⟩)
  | string s => exact .inr (.inr ⟨s, rfl, rfl⟩)
  | _ => trivial

/-- The second read of `severity`, after one that was not undefined. -/
theorem numberOf_read (engine : Engine) (input : Value) :
    Always host (fun severity => ∃ w x, MayReturn host w (getProp input "severity") ∧
        MayReturn host x (numberOf engine w) ∧ severity = some x) (fun _ => True)
      (some <$> (getProp input "severity" >>= numberOf engine) : Js σ (Option Double)) := by
  rw [always_map]
  refine always_then always_mayReturn fun w hw => ?_
  exact always_mayReturn.mono (fun x hx => ⟨w, x, hw, hx, rfl⟩) fun _ _ => trivial

theorem buildIncidentRequest_read (engine : Engine) (input : Value) :
    Always host (IncidentRequest.ReadFrom host engine input) (fun _ => True)
      (buildIncidentRequest engine input : Js σ IncidentRequest) := by
  unfold buildIncidentRequest
  split
  · trivial
  refine always_after fun _ => always_after fun title => ?_
  refine always_after fun _ => always_after fun source => ?_
  split
  · trivial
  refine always_then always_mayReturn fun v hv => ?_
  refine always_join (P := fun severity => v = .undefined ∧ severity = none ∨ v ≠ .undefined ∧
      ∃ w x, MayReturn host w (getProp input "severity") ∧ MayReturn host x (numberOf engine w) ∧
        severity = some x) ?_ ?_ fun severity hseverity => ?_
  · intro hundefined
    exact .inl ⟨isUndefined_iff.mp hundefined, rfl⟩
  · intro hdefined
    exact (numberOf_read engine input).mono
      (fun _ h => .inr ⟨mt isUndefined_iff.mpr hdefined, h⟩) fun _ _ => trivial
  refine always_after fun _ => always_after fun priority => ?_
  refine always_after fun _ => always_after fun srcTimestamp => ?_
  refine always_then always_mayReturn fun k hk => ?_
  refine always_then (nullableString_read k _) fun serviceKey hkey => ?_
  refine always_after fun _ => always_after fun component => ?_
  refine always_after fun _ => always_after fun group => ?_
  refine always_after fun _ => always_after fun type => ?_
  refine always_after fun _ => always_after fun details => ?_
  exact ⟨⟨v, hv, hseverity⟩, k, hk, hkey⟩

end

/-! ## What a request is written as -/

/-- The wire fields in their order. -/
def wireKeys : List String :=
  ["serviceKey", "title", "source", "severity", "priority", "srcTimestamp", "component", "group",
    "type", "detailsJSON"]

theorem wireKeys_nodup : (wireKeys.map js).Nodup := by decide +kernel

/-- The properties of `ordered`. -/
def wireFields (request : IncidentRequest) : List (String × Value) :=
  let serviceKey := match request.serviceKey with
    | none => Value.undefined
    | some none => .null
    | some (some s) => .string s
  let optional (key : String) (field : Option JsString) : List (String × Value) :=
    (field.map fun s => (key, Value.string s)).toList
  [("serviceKey", serviceKey), ("title", .string request.title), ("source", .string request.source),
    ("severity", (request.severity.map Value.number).getD .undefined),
    ("priority", .number (.finite request.priority)),
    ("srcTimestamp", .number (.finite request.srcTimestamp))] ++
    optional "component" request.component ++ optional "group" request.group ++
    optional "type" request.type ++ optional "detailsJSON" request.details

theorem serializeRequest_eq (engine : Engine) (request : IncidentRequest) :
    serializeRequest engine request = engine.stringify (wireFields request) := rfl

theorem wireFields_plain (request : IncidentRequest) :
    ∀ f ∈ wireFields request, f.2.isPlain = true := by
  have hoptional : ∀ (key : String) (field : Option JsString),
      ∀ f ∈ (field.map fun s => (key, Value.string s)).toList, f.2.isPlain = true := by
    intro key field f hf
    cases field with
    | none => cases hf
    | some s =>
      rw [List.mem_singleton.mp hf]
      rfl
  simp only [wireFields, List.forall_mem_append, List.forall_mem_cons]
  refine ⟨⟨⟨⟨⟨?_, rfl, rfl, ?_, rfl, rfl, List.forall_mem_nil _⟩, hoptional _ _⟩, hoptional _ _⟩,
    hoptional _ _⟩, hoptional _ _⟩
  · split <;> rfl
  · cases request.severity <;> rfl

theorem wireFields_keys (request : IncidentRequest) :
    ((wireFields request).map Prod.fst).Sublist wireKeys := by
  have hoptional : ∀ (key : String) (field : Option JsString),
      ((field.map fun s => (key, Value.string s)).toList.map Prod.fst).Sublist [key] := by
    intro key field
    cases field with
    | none => exact List.nil_sublist _
    | some s => exact List.Sublist.refl _
  simp only [wireFields, List.map_append]
  exact ((((List.Sublist.refl _).append (hoptional _ _)).append (hoptional _ _)).append
    (hoptional _ _)).append (hoptional _ _)

/-! ## What is read back -/

/-- A service key that was specified. -/
def keyJson : Option JsString → Json
  | none => .null
  | some s => .string s

/-- A number as the text of the engine reads. -/
def numberJson (engine : Engine) : Double → Json
  | .finite x => .number (numberValue (unitsBytes (engine.numberText (.finite x))))
  | _ => .null

/-- The members of the object, where they are present. -/
def wireMembers (engine : Engine) (request : IncidentRequest) : List (String × Option Json) :=
  [("serviceKey", request.serviceKey.map keyJson), ("title", some (.string request.title)),
    ("source", some (.string request.source)),
    ("severity", request.severity.map (numberJson engine)),
    ("priority", some (numberJson engine (.finite request.priority))),
    ("srcTimestamp", some (numberJson engine (.finite request.srcTimestamp))),
    ("component", request.component.map .string), ("group", request.group.map .string),
    ("type", request.type.map .string), ("detailsJSON", request.details.map .string)]

def present (members : List (String × Option Json)) : List (JsString × Json) :=
  members.filterMap fun m => m.2.map (Prod.mk (js m.1))

theorem wireFields_read (engine : Engine) (request : IncidentRequest) :
    ((wireFields request).filterMap fun f =>
      (propertyJson engine.numberText f.2).map (Prod.mk (js f.1))) =
        present (wireMembers engine request) := by
  have hoptional : ∀ (key : String) (field : Option JsString),
      ((field.map fun s => (key, Value.string s)).toList.filterMap fun f =>
        (propertyJson engine.numberText f.2).map (Prod.mk (js f.1))) =
          present [(key, field.map .string)] := by
    intro key field
    cases field <;> rfl
  have hsplit : present (wireMembers engine request) =
      present ((wireMembers engine request).take 6) ++
        present [("component", request.component.map .string)] ++
        present [("group", request.group.map .string)] ++
        present [("type", request.type.map .string)] ++
        present [("detailsJSON", request.details.map .string)] := by
    simp only [present, ← List.filterMap_append]
    rfl
  rw [hsplit, wireFields]
  simp only [List.filterMap_append, hoptional]
  congr 4
  obtain ⟨title, source, severity, priority, srcTimestamp, serviceKey, -⟩ := request
  rcases serviceKey with _ | _ | key <;> rcases severity with _ | (x | negative | _) <;> rfl

theorem present_keys (members : List (String × Option Json)) :
    ((present members).map Prod.fst).Sublist (members.map fun m => js m.1) := by
  induction members with
  | nil => exact .slnil
  | cons m members ih =>
    obtain ⟨key, v⟩ := m
    cases v with
    | none => exact ih.cons _
    | some v => exact ih.cons_cons _

/-- The value of a member. -/
def member (members : List (JsString × Json)) (key : String) : Option Json :=
  members.lookup (js key)

/-- Of members with different names, each is found under its name if it is present. -/
theorem member_present (members : List (String × Option Json))
    (hkeys : (members.map fun m => js m.1).Nodup) {key : String} {v : Option Json}
    (h : (key, v) ∈ members) : member (present members) key = v := by
  induction members with
  | nil => cases h
  | cons m members ih =>
    obtain ⟨k, w⟩ := m
    rw [List.map_cons, List.nodup_cons] at hkeys
    obtain ⟨hk, hrest⟩ := hkeys
    rcases List.mem_cons.mp h with he | hmem
    · cases he
      cases v with
      | some v => simp [present, member]
      | none =>
        refine List.lookup_eq_none_iff.mpr ?_
        intro p hp
        have hname := (present_keys members).subset (List.mem_map_of_mem hp)
        rw [bne_iff_ne]
        rintro he
        exact hk (he ▸ hname)
    · have hname : js key ∈ members.map fun m => js m.1 := List.mem_map.mpr ⟨_, hmem, rfl⟩
      have hne : js key ≠ js k := by
        rintro he
        exact hk (he ▸ hname)
      have hrest := ih hrest hmem
      cases w with
      | none => exact hrest
      | some w =>
        have hcons : present ((k, some w) :: members) = (js k, w) :: present members := rfl
        rw [member, hcons, List.lookup_cons, beq_eq_false_iff_ne.mpr hne]
        exact hrest

/-! ## The schema -/

/-- The request with the service key that is sent. -/
def resolved (client : IncidentClient) (request : IncidentRequest) : IncidentRequest :=
  { request with
    serviceKey := match request.serviceKey with
      | none => client.serviceKey
      | some key => some key }

theorem payload_eq (engine : Engine) (client : IncidentClient) (request : IncidentRequest) :
    payload engine client request = serializeRequest engine (resolved client request) := rfl

/-- The payload parses to the object of the members that are present. -/
theorem parse_payload {engine : Engine} (hengine : engine.Conforms) (client : IncidentClient)
    (request : IncidentRequest) :
    parse (payload engine client request) =
      some (.object (present (wireMembers engine (resolved client request)))) := by
  have hkeys := wireFields_keys (resolved client request)
  have hnamed : ∀ key ∈ wireKeys, isNamed key = true := by decide
  have hnodup : wireKeys.Nodup := by decide
  rw [payload_eq, serializeRequest_eq,
    hengine.stringify _ (wireFields_plain _)
      (fun f hf => hnamed _ (hkeys.subset (List.mem_map_of_mem hf))) (hnodup.sublist hkeys),
    ← wireFields_read]
  refine parse_stringify hengine.literal ?_
  have hjs := hkeys.map js
  rw [List.map_map] at hjs
  exact wireKeys_nodup.sublist hjs

/-- A number in the payload: `null` if it is not finite. -/
def NumberOnWire (x : Double) (v : Json) : Prop :=
  (∃ y z, x = .finite y ∧ v = .number (.finite z) ∧ z.toRat = y.toRat) ∨
    ((∀ y, x ≠ .finite y) ∧ v = .null)

/-- What the parsed members of a payload keep to. `severity` and `serviceKey` are those of the
input, by what its getters may return. -/
structure PayloadSchema {σ : Type} (host : Host (hostSignature σ)) (engine : Engine)
    (client : IncidentClient) (input : Value) (members : List (JsString × Json)) : Prop where
  keys : (members.map Prod.fst).Sublist (wireKeys.map js)
  serviceKey : ∃ v, MayReturn host v (getProp input "serviceKey") ∧
    (v = .undefined ∧ member members "serviceKey" = client.serviceKey.map keyJson ∨
      v = .null ∧ member members "serviceKey" = some .null ∨
      ∃ s, v = .string s ∧ member members "serviceKey" = some (.string s))
  title : ∃ s, member members "title" = some (.string s) ∧ NonBlank s
  source : ∃ s, member members "source" = some (.string s) ∧ NonBlank s ∧ s.length ≤ 255
  severity : ∃ v, MayReturn host v (getProp input "severity") ∧
    (v = .undefined ∧ member members "severity" = none ∨
      v ≠ .undefined ∧ ∃ w x json, MayReturn host w (getProp input "severity") ∧
        MayReturn host x (numberOf engine w) ∧ member members "severity" = some json ∧
        NumberOnWire x json)
  priority : ∃ x, member members "priority" = some (.number (.finite x)) ∧
    1 ≤ x.toRat ∧ x.toRat ≤ 5
  srcTimestamp : ∃ x, member members "srcTimestamp" = some (.number (.finite x)) ∧ 0 < x.toRat
  optional : ∀ key ∈ ["component", "group", "type", "detailsJSON"], ∀ v ∈ member members key,
    ∃ s, v = .string s ∧ NonBlank s

section
variable {engine : Engine}

/-- A finite number is read as the same number. -/
theorem numberJson_finite (hengine : engine.Conforms) (x : Finite) :
    ∃ y : Finite, numberJson engine (.finite x) = .number (.finite y) ∧ y.toRat = x.toRat := by
  obtain ⟨y, hy, heq⟩ := hengine.readsBack x
  exact ⟨y, by rw [numberJson, numberValue, hy], heq⟩

theorem member_wire {request : IncidentRequest} {key : String} {v : Option Json}
    (h : (key, v) ∈ wireMembers engine request) :
    member (present (wireMembers engine request)) key = v :=
  member_present (wireMembers engine request) wireKeys_nodup h

theorem numberJson_onWire (hengine : engine.Conforms) (x : Double) :
    NumberOnWire x (numberJson engine x) := by
  cases x with
  | finite y =>
    obtain ⟨z, hz, hsame⟩ := numberJson_finite hengine y
    exact .inl ⟨y, z, rfl, hz, hsame⟩
  | infinite negative => exact .inr ⟨fun _ => (by intro h; cases h), rfl⟩
  | nan => exact .inr ⟨fun _ => (by intro h; cases h), rfl⟩

section
variable {σ : Type} {host : Host (hostSignature σ)} {client : IncidentClient} {input : Value}
variable {request : IncidentRequest}

/-- The service key is the input's, or else the client's. -/
theorem serviceKey_onWire (client : IncidentClient) (hread : request.ReadFrom host engine input) :
    ∃ v, MayReturn host v (getProp input "serviceKey") ∧
      (v = .undefined ∧ member (present (wireMembers engine (resolved client request)))
          "serviceKey" = client.serviceKey.map keyJson ∨
        v = .null ∧ member (present (wireMembers engine (resolved client request)))
          "serviceKey" = some .null ∨
        ∃ s, v = .string s ∧ member (present (wireMembers engine (resolved client request)))
          "serviceKey" = some (.string s)) := by
  obtain ⟨v, hv, hkey⟩ := hread.serviceKey
  refine ⟨v, hv, ?_⟩
  rw [member_wire (v := (resolved client request).serviceKey.map keyJson) (by simp [wireMembers])]
  rcases hkey with ⟨rfl, hkey⟩ | ⟨rfl, hkey⟩ | ⟨s, rfl, hkey⟩
  · exact .inl ⟨rfl, by simp [resolved, hkey]⟩
  · exact .inr (.inl ⟨rfl, by simp [resolved, hkey, keyJson]⟩)
  · exact .inr (.inr ⟨s, rfl, by simp [resolved, hkey, keyJson]⟩)

/-- The severity is what `Number` makes of the input's. -/
theorem severity_onWire (hengine : engine.Conforms) (client : IncidentClient)
    (hread : request.ReadFrom host engine input) :
    ∃ v, MayReturn host v (getProp input "severity") ∧
      (v = .undefined ∧
          member (present (wireMembers engine (resolved client request))) "severity" = none ∨
        v ≠ .undefined ∧ ∃ w x json, MayReturn host w (getProp input "severity") ∧
          MayReturn host x (numberOf engine w) ∧
          member (present (wireMembers engine (resolved client request))) "severity" =
            some json ∧
          NumberOnWire x json) := by
  obtain ⟨v, hv, hseverity⟩ := hread.severity
  refine ⟨v, hv, ?_⟩
  rw [member_wire (v := request.severity.map (numberJson engine))
    (by simp [wireMembers, resolved])]
  rcases hseverity with ⟨rfl, hnone⟩ | ⟨hdefined, w, x, hw, hx, hsome⟩
  · exact .inl ⟨rfl, by rw [hnone]; rfl⟩
  · exact .inr ⟨hdefined, w, x, numberJson engine x, hw, hx, by rw [hsome]; rfl,
      numberJson_onWire hengine x⟩

/-- An optional text that is there is not blank. -/
theorem optional_onWire {key : String} {field : Option JsString} (hfield : ∀ s ∈ field, NonBlank s)
    (hmem : (key, field.map Json.string) ∈ wireMembers engine (resolved client request)) :
    ∀ v ∈ member (present (wireMembers engine (resolved client request))) key,
      ∃ s, v = .string s ∧ NonBlank s := by
  intro v hv
  rw [member_wire hmem, Option.mem_map] at hv
  obtain ⟨s, hs, rfl⟩ := hv
  exact ⟨s, rfl, hfield s hs⟩

theorem schema_of_checked (hengine : engine.Conforms) (h : request.Checked)
    (hread : request.ReadFrom host engine input) :
    PayloadSchema host engine client input
      (present (wireMembers engine (resolved client request))) := by
  obtain ⟨priority, hpriority, hprioritySame⟩ := numberJson_finite hengine request.priority
  obtain ⟨time, htime, htimeSame⟩ := numberJson_finite hengine request.srcTimestamp
  refine ⟨present_keys _, serviceKey_onWire client hread, ?_, ?_,
    severity_onWire hengine client hread, ?_, ?_, ?_⟩
  · exact ⟨request.title, member_wire (by simp [wireMembers, resolved]), h.title⟩
  · exact ⟨request.source, member_wire (by simp [wireMembers, resolved]), h.source, h.source_length⟩
  · refine ⟨priority, member_wire ?_, ?_⟩
    · simp [wireMembers, resolved, hpriority]
    · rw [hprioritySame]
      exact h.priority
  · refine ⟨time, member_wire ?_, ?_⟩
    · simp [wireMembers, resolved, htime]
    · rw [htimeSame]
      exact h.srcTimestamp
  · intro key hkey
    simp only [List.mem_cons, List.not_mem_nil, or_false] at hkey
    rcases hkey with rfl | rfl | rfl | rfl
    · exact optional_onWire h.component (by simp [wireMembers, resolved])
    · exact optional_onWire h.group (by simp [wireMembers, resolved])
    · exact optional_onWire h.type (by simp [wireMembers, resolved])
    · exact optional_onWire h.details (by simp [wireMembers, resolved])

end

/-- **The payload schema.** Whatever the input is, and whatever the code of the host behind it
answers, a request that is let through is sent as an object of the wire fields in their order.
`severity` is left out when the input has none, a number when what `Number` makes of it is finite,
and `null` when it is not. `serviceKey` is the input's if it has one, and else the client's. -/
theorem payload_keeps_schema (hengine : engine.Conforms) {σ : Type} (host : Host (hostSignature σ))
    (client : IncidentClient) (input : Value) :
    Always host (fun request => ∃ members,
        parse (payload engine client request) = some (.object members) ∧
          PayloadSchema host engine client input members)
      (fun _ => True) (buildIncidentRequest engine input) := by
  have hchecked : Always host IncidentRequest.Checked (fun _ => True)
      (buildIncidentRequest engine input : Js σ IncidentRequest) :=
    buildIncidentRequest_checked engine input
  have hboth := always_and.mpr ⟨hchecked, buildIncidentRequest_read engine input⟩
  refine hboth.mono ?_ fun _ _ => trivial
  intro request hrequest
  exact ⟨_, parse_payload hengine client request,
    schema_of_checked hengine hrequest.1 hrequest.2⟩

end

/-! ## Two inputs -/

/-- The number one. -/
def one : Finite := powerOfTwo 1022 (by decide)

theorem one_toRat : one.toRat = 1 := by
  have hunits : one.units = 2 ^ 0 * unitsPerOne := units_powerOfTwo _ rfl
  rw [Finite.toRat_of_units hunits, Finite.trunc_of_units hunits]
  rfl

/-- `{ title: 'a', source: 'x', severity, priority: 1, srcTimestamp: 1, serviceKey: null }` -/
def inputOf (severity : Double) : Value :=
  .record [("title", .string (js "a")), ("source", .string (js "x")),
    ("severity", .number severity), ("priority", .number (.finite one)),
    ("srcTimestamp", .number (.finite one)), ("serviceKey", .null)]

def requestOf (severity : Double) : IncidentRequest :=
  ⟨js "a", js "x", some severity, one, one, some none, none, none, none, none⟩

theorem buildIncidentRequest_inputOf {σ : Type} (engine : Engine) (severity : Double) :
    (buildIncidentRequest engine (inputOf severity) : Js σ IncidentRequest) =
      pure (requestOf severity) := by
  have hpriority : (requireFinite (.number (.finite one))
      (fun x => !(x.toRat < 1 || 5 < x.toRat)) "priority must be between 1 and 5" :
        Js σ Finite) = pure one := by
    simp [requireFinite, one_toRat]
  have htime : (requireFinite (.number (.finite one)) (fun x => !(x.toRat ≤ 0))
      "srcTimestamp must be greater than zero" : Js σ Finite) = pure one := by
    simp [requireFinite, one_toRat]
  show ((requireFinite (.number (.finite one)) (fun x => !(x.toRat < 1 || 5 < x.toRat))
      "priority must be between 1 and 5" : Js σ Finite) >>= fun priority =>
    (requireFinite (.number (.finite one)) (fun x => !(x.toRat ≤ 0))
      "srcTimestamp must be greater than zero" : Js σ Finite) >>= fun srcTimestamp =>
    pure { requestOf severity with priority := priority, srcTimestamp := srcTimestamp }) = _
  rw [hpriority, htime]
  rfl

/-- A host whose objects throw whatever is done with them. -/
def throwingHost : Host (hostSignature Unit) := .of fun
  | .get .. | .call .. | .has .. | .isError _ | .toText _ | .toNumber _ | .spread _ | .console .. =>
    .error .undefined
  | .now => (0 : Nat)
  | .sleep _ | .write _ | .read => ()
  | .send .. => .error ([], [])

/-- `new IncidentClient({ apiKey: 'k', serviceKey: 's' })` -/
def keyedClient : IncidentClient := ⟨js "k", some (some (js "s"))⟩

theorem payload_keeps_schema_null_key : ∃ members,
    parse (payload digitsEngine keyedClient (requestOf (.finite one))) = some (.object members) ∧
      PayloadSchema throwingHost digitsEngine keyedClient (inputOf (.finite one)) members := by
  have hbuilt := payload_keeps_schema digitsEngine_conforms throwingHost keyedClient
    (inputOf (.finite one))
  rw [buildIncidentRequest_inputOf] at hbuilt
  exact hbuilt

/-- `{ title: 'a', source: 'x', severity: NaN, ... }` is let through and sent with `severity`
`null`. -/
theorem nan_severity_is_null :
    ¬ ∀ (engine : Engine), engine.Conforms → ∀ (host : Host (hostSignature Unit))
      (client : IncidentClient) (input : Value),
      Always host (fun request => ∃ members,
          parse (payload engine client request) = some (.object members) ∧
            ∀ v, member members "severity" = some v → ∃ x, v = .number x)
        (fun _ => True) (buildIncidentRequest engine input) := by
  intro h
  have hbuilt := h digitsEngine digitsEngine_conforms throwingHost keyedClient (inputOf .nan)
  rw [buildIncidentRequest_inputOf] at hbuilt
  obtain ⟨members, hparse, hnumber⟩ := hbuilt
  rw [parse_payload digitsEngine_conforms] at hparse
  cases hparse
  have hnull : ("severity", some Json.null) ∈
      wireMembers digitsEngine (resolved keyedClient (requestOf .nan)) := by
    simp [wireMembers, resolved, requestOf, numberJson]
  obtain ⟨x, hx⟩ := hnumber _ (member_wire hnull)
  cases hx

end OppexSdk.Node
