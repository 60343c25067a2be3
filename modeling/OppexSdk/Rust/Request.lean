import OppexSdk.Rust.Transport

/-! # Incident requests in Rust

`rust/src/severity.rs` and `rust/src/request.rs`. The fields of an `IncidentRequest` are private,
so the builder's `build` is the only way to one; `clock` is what `build` reads of the system
clock. -/
namespace OppexSdk.Rust
open OppexSdk.Rust.Transport (trimIsEmpty)

inductive Severity
  | lowest | low | medium | high | critical
  deriving DecidableEq

def Severity.value : Severity → UInt8
  | lowest => 1
  | low => 2
  | medium => 3
  | high => 4
  | critical => 5

theorem Severity.value_range (s : Severity) : 1 ≤ s.value ∧ s.value ≤ 5 := by
  cases s <;> decide

structure IncidentRequest where
  serviceKey : Option String
  title : String
  source : String
  severity : Severity
  priority : UInt8
  srcTimestamp : Int64
  component : Option String
  group : Option String
  incidentType : Option String
  details : Option String
  deriving DecidableEq

structure IncidentRequestBuilder where
  serviceKey : Option String
  title : Option String
  source : Option String
  severity : Option Severity
  priority : Option UInt8
  srcTimestamp : Option Int64
  component : Option String
  group : Option String
  incidentType : Option String
  details : Option String

def IncidentRequestBuilder.default : IncidentRequestBuilder :=
  ⟨none, none, none, none, none, none, none, none, none, none⟩

/-- `MAX_SOURCE_LENGTH`, in characters. -/
def maxSourceLength : Nat := 255

section
variable {κ : Type}

/-- `IncidentError::invalid`. -/
def IncidentError.invalid (message : String) : IncidentError κ := .invalidRequest message

def requireNonBlank (value : Option String) (field : String) : Except (IncidentError κ) String :=
  match value with
  | some value =>
    if !trimIsEmpty value then .ok value else .error (.invalid s!"{field} must not be blank")
  | none => .error (.invalid s!"{field} must be set")

def rejectBlank (value : Option String) (field : String) :
    Except (IncidentError κ) (Option String) :=
  match value with
  | some value =>
    if trimIsEmpty value then .error (.invalid s!"{field} must not be blank when supplied")
    else .ok (some value)
  | none => .ok none

/-- `now_millis`: the milliseconds since the epoch, if the clock is not before it and an `i64`
holds them. -/
def nowMillis (clock : Option Nat) : Int64 :=
  (clock.bind fun elapsed => if elapsed < 2 ^ 63 then some (Int64.ofNat elapsed) else none).getD 0

def IncidentRequestBuilder.build (self : IncidentRequestBuilder) (clock : Option Nat) :
    Except (IncidentError κ) IncidentRequest := do
  let title ← requireNonBlank self.title "title"
  let source ← requireNonBlank self.source "source"
  if source.length > maxSourceLength then
    throw (.invalid s!"source must not exceed {maxSourceLength} characters")
  let severity ← self.severity.elim (.error (.invalid "severity must be set")) .ok
  let priority := self.priority.getD 1
  if ¬ (1 ≤ priority ∧ priority ≤ 5) then
    throw (.invalid "priority must be between 1 and 5")
  let srcTimestamp := self.srcTimestamp.getD (nowMillis clock)
  if srcTimestamp ≤ 0 then
    throw (.invalid "srcTimestamp must be greater than zero")
  let serviceKey ← rejectBlank self.serviceKey "serviceKey"
  let component ← rejectBlank self.component "component"
  let group ← rejectBlank self.group "group"
  let incidentType ← rejectBlank self.incidentType "type"
  let details ← rejectBlank self.details "details"
  return ⟨serviceKey, title, source, severity, priority, srcTimestamp, component, group,
    incidentType, details⟩

/-! ## What `build` accepts -/

/-- No blank text. -/
def NonBlank (value : Option String) : Prop := ∀ v ∈ value, trimIsEmpty v = false

/-- What every request that was built satisfies. -/
structure IncidentRequest.Valid (r : IncidentRequest) : Prop where
  title : trimIsEmpty r.title = false
  source : trimIsEmpty r.source = false
  sourceLength : r.source.length ≤ maxSourceLength
  priority : 1 ≤ r.priority ∧ r.priority ≤ 5
  srcTimestamp : 0 < r.srcTimestamp
  serviceKey : NonBlank r.serviceKey
  component : NonBlank r.component
  group : NonBlank r.group
  incidentType : NonBlank r.incidentType
  details : NonBlank r.details

/-- The request has the builder's values, and the defaults where the builder has none. -/
structure IncidentRequestBuilder.Sets (b : IncidentRequestBuilder) (clock : Option Nat)
    (r : IncidentRequest) : Prop where
  title : b.title = some r.title
  source : b.source = some r.source
  severity : b.severity = some r.severity
  priority : b.priority.getD 1 = r.priority
  srcTimestamp : b.srcTimestamp.getD (nowMillis clock) = r.srcTimestamp
  serviceKey : b.serviceKey = r.serviceKey
  component : b.component = r.component
  group : b.group = r.group
  incidentType : b.incidentType = r.incidentType
  details : b.details = r.details

theorem bind_eq_ok {ε α β : Type} {x : Except ε α} {f : α → Except ε β} {r : β}
    (h : x >>= f = .ok r) : ∃ a, x = .ok a ∧ f a = .ok r := by
  cases x with
  | error e => cases h
  | ok a => exact ⟨a, rfl, h⟩

/-- A check that let the rest run. -/
theorem check_eq_ok {ε β : Type} {c : Prop} [Decidable c] {e : ε} {x : Except ε β} {r : β}
    (h : (if c then throw e else x) = Except.ok r) : ¬ c ∧ x = .ok r := by
  split at h
  · cases h
  · exact ⟨‹_›, h⟩

theorem requireNonBlank_eq_ok {value : Option String} {field v : String}
    (h : requireNonBlank (κ := κ) value field = .ok v) :
    value = some v ∧ trimIsEmpty v = false := by
  cases value with
  | none => cases h
  | some value =>
    simp only [requireNonBlank] at h
    split at h
    · cases h
      exact ⟨rfl, by simpa using ‹(!trimIsEmpty _) = true›⟩
    · cases h

theorem rejectBlank_eq_ok {value v : Option String} {field : String}
    (h : rejectBlank (κ := κ) value field = .ok v) : value = v ∧ NonBlank v := by
  cases value with
  | none => cases h; exact ⟨rfl, fun v hv => by cases hv⟩
  | some value =>
    simp only [rejectBlank] at h
    split at h
    · cases h
    · cases h
      exact ⟨rfl, fun v hv => by cases hv; simpa using ‹¬ trimIsEmpty _ = true›⟩

/-- **What `build` returns is valid and has the builder's values.** -/
theorem IncidentRequestBuilder.build_eq_ok {b : IncidentRequestBuilder} {clock : Option Nat}
    {r : IncidentRequest} (h : b.build (κ := κ) clock = .ok r) : r.Valid ∧ b.Sets clock r := by
  unfold build at h
  obtain ⟨title, htitle, h⟩ := bind_eq_ok h
  obtain ⟨source, hsource, h⟩ := bind_eq_ok h
  obtain ⟨hlength, h⟩ := check_eq_ok h
  obtain ⟨severity, hseverity, h⟩ := bind_eq_ok h
  obtain ⟨hpriority, h⟩ := check_eq_ok h
  obtain ⟨htimestamp, h⟩ := check_eq_ok h
  obtain ⟨serviceKey, hkey, h⟩ := bind_eq_ok h
  obtain ⟨component, hcomponent, h⟩ := bind_eq_ok h
  obtain ⟨group, hgroup, h⟩ := bind_eq_ok h
  obtain ⟨incidentType, htype, h⟩ := bind_eq_ok h
  obtain ⟨details, hdetails, h⟩ := bind_eq_ok h
  cases h
  have hset : b.severity = some severity := by
    cases hs : b.severity with
    | none => rw [hs] at hseverity; cases hseverity
    | some s => rw [hs] at hseverity; cases hseverity; rfl
  obtain ⟨htitle, htitle'⟩ := requireNonBlank_eq_ok htitle
  obtain ⟨hsource, hsource'⟩ := requireNonBlank_eq_ok hsource
  obtain ⟨hkey, hkey'⟩ := rejectBlank_eq_ok hkey
  obtain ⟨hcomponent, hcomponent'⟩ := rejectBlank_eq_ok hcomponent
  obtain ⟨hgroup, hgroup'⟩ := rejectBlank_eq_ok hgroup
  obtain ⟨htype, htype'⟩ := rejectBlank_eq_ok htype
  obtain ⟨hdetails, hdetails'⟩ := rejectBlank_eq_ok hdetails
  exact ⟨⟨htitle', hsource', Nat.le_of_not_lt hlength, not_not.mp hpriority,
      Int64.not_le.mp htimestamp, hkey', hcomponent', hgroup', htype', hdetails'⟩,
    ⟨htitle, hsource, hset, rfl, rfl, hkey, hcomponent, hgroup, htype, hdetails⟩⟩

end

end OppexSdk.Rust
