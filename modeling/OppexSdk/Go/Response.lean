import OppexSdk.Lib.JsonReader
import OppexSdk.Lib.Runes

/-! # Reading a response in Go

`parseResponse` of `golang/oppex/wire.go`, with what `encoding/json` documents about `Unmarshal`
into a struct of pointers: names are matched without regard to case, a later member replaces an
earlier one, `null` makes a field absent, and a value that does not fit its field makes the whole
call fail. -/
namespace OppexSdk.Go.Response
open OppexSdk.Lib OppexSdk.Lib.Json OppexSdk.Lib.Runes

/-! ## `encoding/json` -/

/-- The containers that may lie within one another. -/
def maxNestingDepth : Nat := 10000

/-- An unquoted string: what is not UTF-8 in it is replaced. -/
def unquote (items : List Item) : Bytes := toValid (decode items)

/-- The smallest character with the same folding, as far as it is ASCII: besides the letters of
either case there are the long s and the Kelvin sign. -/
def foldRune (c : Char) : Char :=
  if 'a' ≤ c ∧ c ≤ 'z' then Char.ofNat (c.toNat - 32)
  else if c.toNat = 0x17F then 'S'
  else if c.toNat = 0x212A then 'K'
  else c

def foldName (name : Bytes) : List Char := (runes name).map fun r => foldRune r.toChar

inductive Field
  | success
  | code
  | message
  | data
  deriving DecidableEq

def Field.name : Field → Bytes
  | success => bytes "success"
  | code => bytes "code"
  | message => bytes "message"
  | data => bytes "data"

/-- The name of the member is that of the field. -/
def exactly (f : Field) (key : List Item) : Bool := unquote key = f.name

/-- The name of the member is that of the field but for case. -/
def folded (f : Field) (key : List Item) : Bool := foldName (unquote key) = foldName f.name

/-- The field that a member of this name goes to. -/
def fieldOf (key : List Item) : Option Field :=
  [Field.success, .code, .message, .data].find? fun f => folded f key

/-- `wireResponse`. -/
structure WireResponse where
  success : Option Bool
  code : Option Int
  message : Option Bytes
  data : Option Bytes

/-- An integer that fits into an `int`. -/
def intValue (lit : Bytes) : Option Int :=
  (integerValue lit).filter fun n => -2 ^ 63 ≤ n && n < 2 ^ 63

def asBool : Tree → Option Bool
  | .bool b => some b
  | _ => none

def asInt : Tree → Option Int
  | .num lit => intValue lit
  | _ => none

def asString : Tree → Option Bytes
  | .str items => some (unquote items)
  | _ => none

/-- The value fits the field, or makes it absent. -/
def storable : Field → Tree → Bool
  | _, .null => true
  | .success, t => (asBool t).isSome
  | .code, t => (asInt t).isSome
  | .message, t | .data, t => (asString t).isSome

def store (w : WireResponse) (f : Field) (t : Tree) : WireResponse :=
  match f with
  | .success => { w with success := asBool t }
  | .code => { w with code := asInt t }
  | .message => { w with message := asString t }
  | .data => { w with data := asString t }

/-- One member. A value that does not fit is an error that is kept for the end. -/
def decodeMember (r : WireResponse × Bool) (m : List Item × Tree) : WireResponse × Bool :=
  match fieldOf m.1 with
  | none => r
  | some f => if storable f m.2 then (store r.1 f m.2, r.2) else (r.1, true)

def decodeObject (ms : List (List Item × Tree)) : WireResponse × Bool :=
  ms.foldl decodeMember (⟨none, none, none, none⟩, false)

/-- `json.Unmarshal(body, &decoded)`: `decoded`, or `none` for an error. -/
def unmarshal (body : Bytes) : Option WireResponse :=
  match parseNested maxNestingDepth body with
  | some (.obj ms) =>
    let (decoded, failed) := decodeObject ms
    if failed then none else some decoded
  | some .null => some ⟨none, none, none, none⟩
  | _ => none

/-! ## `parseResponse` -/

structure IncidentResponse where
  successful : Bool
  code : Int
  message : Bytes
  incidentID : Bytes
  deriving DecidableEq

/-- An `IncidentError`, without the error it wraps. -/
structure IncidentError where
  message : Bytes
  statusCode : Int
  retryable : Bool

def parseResponse (statusCode : Int) (body : Bytes) : Except IncidentError IncidentResponse :=
  let successful : Bool := 200 ≤ statusCode && statusCode < 300
  if trimSpace body = [] then .ok ⟨successful, statusCode, [], []⟩
  else
    match unmarshal body with
    | none => .error
        { message := bytes "Oppex returned a non-JSON response (status " ++
            signedDecimal statusCode ++ bytes ")"
          statusCode := statusCode
          retryable := false }
    | some decoded => .ok
        { successful := decoded.success.getD successful
          code := decoded.code.getD statusCode
          message := decoded.message.getD []
          incidentID := decoded.data.getD [] }

/-! ## What is promised -/

/-- The response that the members of an object stand for, by which name goes with which field: each
value that has the type of its field, and otherwise what the status says. -/
def reading (named : Field → List Item → Bool) (statusCode : Int)
    (ms : List (List Item × Tree)) : IncidentResponse where
  successful := ((lastMember (named .success) ms).bind asBool).getD
    (200 ≤ statusCode && statusCode < 300)
  code := ((lastMember (named .code) ms).bind asInt).getD statusCode
  message := ((lastMember (named .message) ms).bind asString).getD []
  incidentID := ((lastMember (named .data) ms).bind asString).getD []

/-- What the field is read as, by the last member whose name matches but for case, is what it is
read as by the last one whose name matches. -/
def SameRead {α : Type} (asType : Tree → Option α) (default : α) (f : Field)
    (ms : List (List Item × Tree)) : Prop :=
  ((lastMember (folded f) ms).bind asType).getD default =
    ((lastMember (exactly f) ms).bind asType).getD default

/-- No field is read differently for a name that differs from its own only by case. -/
structure CaseIrrelevant (statusCode : Int) (ms : List (List Item × Tree)) : Prop where
  success : SameRead asBool (200 ≤ statusCode && statusCode < 300) .success ms
  code : SameRead asInt statusCode .code ms
  message : SameRead asString [] .message ms
  incidentID : SameRead asString [] .data ms

/-- No member that goes to a field has a value of another type. -/
def WellTyped (ms : List (List Item × Tree)) : Prop :=
  ∀ m ∈ ms, ∀ f, folded f m.1 = true → storable f m.2 = true

/-! ## The members of an object -/

theorem foldName_injective {f g : Field} (h : foldName f.name = foldName g.name) : f = g := by
  have hall : ∀ f ∈ [Field.success, .code, .message, .data],
      ∀ g ∈ [Field.success, .code, .message, .data],
        foldName f.name = foldName g.name → f = g := by
    decide +kernel
  exact hall f (by cases f <;> simp) g (by cases g <;> simp) h

/-- The name decides the field. -/
theorem fieldOf_eq_some {key : List Item} {f : Field} :
    fieldOf key = some f ↔ folded f key = true := by
  unfold fieldOf
  constructor
  · exact fun h => List.find?_some (p := fun f => folded f key) h
  · intro hf
    have hsome : ([Field.success, .code, .message, .data].find? fun f => folded f key).isSome := by
      rw [List.find?_isSome]
      exact ⟨f, by cases f <;> simp, hf⟩
    obtain ⟨g, hg⟩ := Option.isSome_iff_exists.mp hsome
    have hname := List.find?_some (p := fun f => folded f key) hg
    simp only [folded, decide_eq_true_eq] at hf hname
    rw [hg, foldName_injective (hname.symm.trans hf)]

theorem decodeObject_concat (ms : List (List Item × Tree)) (m : List Item × Tree) :
    decodeObject (ms ++ [m]) = decodeMember (decodeObject ms) m := by
  rw [decodeObject, List.foldl_append]
  rfl

/-- The call fails for a value that does not fit its field, and for nothing else. -/
theorem decodeObject_failed (ms : List (List Item × Tree)) :
    (decodeObject ms).2 = false ↔ WellTyped ms := by
  induction ms using List.reverseRecOn with
  | nil => exact iff_of_true rfl fun _ h => (List.not_mem_nil h).elim
  | append_singleton ms m ih =>
    have hsplit : WellTyped (ms ++ [m]) ↔
        WellTyped ms ∧ ∀ f, folded f m.1 = true → storable f m.2 = true := by
      unfold WellTyped
      rw [List.forall_mem_append, List.forall_mem_singleton]
    rw [decodeObject_concat, hsplit, ← ih, decodeMember]
    cases hf : fieldOf m.1 with
    | none =>
      refine (and_iff_left ?_).symm
      intro f hfold
      rw [← fieldOf_eq_some, hf] at hfold
      cases hfold
    | some f =>
      have honly : (∀ g, folded g m.1 = true → storable g m.2 = true) ↔
          storable f m.2 = true := by
        refine ⟨fun h => h f (fieldOf_eq_some.mp hf), fun h g hg => ?_⟩
        rw [← fieldOf_eq_some, hf] at hg
        cases hg
        exact h
      rw [honly]
      dsimp only
      split_ifs with hstore
      · exact (and_iff_left hstore).symm
      · exact iff_of_false (by simp) fun h => hstore h.2

/-- What is decoded of well-typed members: of each field the last one. -/
theorem decodeObject_eq {ms : List (List Item × Tree)} (h : WellTyped ms) :
    (decodeObject ms).1 =
      { success := (lastMember (folded .success) ms).bind asBool
        code := (lastMember (folded .code) ms).bind asInt
        message := (lastMember (folded .message) ms).bind asString
        data := (lastMember (folded .data) ms).bind asString } := by
  induction ms using List.reverseRecOn with
  | nil => rfl
  | append_singleton ms m ih =>
    unfold WellTyped at h
    rw [List.forall_mem_append, List.forall_mem_singleton] at h
    have hother : ∀ f g, fieldOf m.1 = some f → g ≠ f → folded g m.1 = false := by
      intro f g hf hne
      by_contra hg
      rw [Bool.not_eq_false, ← fieldOf_eq_some, hf] at hg
      exact hne (Option.some.inj hg).symm
    rw [decodeObject_concat, decodeMember]
    simp only [lastMember_concat]
    cases hf : fieldOf m.1 with
    | none =>
      have hnot : ∀ g, folded g m.1 = false := by
        intro g
        by_contra hg
        rw [Bool.not_eq_false, ← fieldOf_eq_some, hf] at hg
        cases hg
      simp only [hnot, Bool.false_eq_true, if_false]
      exact ih h.1
    | some f =>
      have hin := fieldOf_eq_some.mp hf
      dsimp only
      rw [if_pos (h.2 f hin)]
      dsimp only
      rw [ih h.1]
      cases f <;>
        simp [store, hin, hother _ .success hf, hother _ .code hf, hother _ .message hf,
          hother _ .data hf]

/-! ## Bodies that are objects -/

theorem trimSpace_object {ms : List (List Item × Tree)} {body : Bytes}
    (h : Document JsonNumber (.obj ms) body) : trimSpace body ≠ [] := by
  have hbrace : (0x7B : UInt8) ∈ body := by
    obtain ⟨w, s, w', -, hs, -, rfl⟩ := h
    refine List.mem_append_right _ (List.mem_append_left _ ?_)
    cases hs with
    | objEmpty _ => simp
    | obj _ => simp
  exact trimSpace_ne_nil hbrace (by decide) (by decide)

theorem parseNested_object {ms : List (List Item × Tree)} {body : Bytes}
    (h : Document JsonNumber (.obj ms) body) :
    parseNested maxNestingDepth body =
      if Tree.nesting (.obj ms) ≤ maxNestingDepth then some (.obj ms) else none := by
  split_ifs with hdeep
  · exact parseNested_eq_some.mpr ⟨h, hdeep⟩
  · cases hp : parseNested maxNestingDepth body with
    | none => rfl
    | some t =>
      obtain ⟨hdoc, hle⟩ := parseNested_eq_some.mp hp
      rw [hdoc.unique jsonNumber_numberBytes h] at hle
      exact absurd hle hdeep

theorem parseResponse_object {ms : List (List Item × Tree)} {body : Bytes}
    (h : Document JsonNumber (.obj ms) body) (statusCode : Int) (r : IncidentResponse) :
    parseResponse statusCode body = .ok r ↔
      Tree.nesting (.obj ms) ≤ maxNestingDepth ∧ WellTyped ms ∧
        r = reading folded statusCode ms := by
  unfold parseResponse unmarshal
  rw [if_neg (trimSpace_object h), parseNested_object h]
  by_cases hdeep : Tree.nesting (.obj ms) ≤ maxNestingDepth
  · rw [if_pos hdeep]
    by_cases htyped : WellTyped ms
    · have hok := (decodeObject_failed ms).mpr htyped
      have hdecoded := decodeObject_eq htyped
      dsimp only
      rw [hok, if_neg Bool.false_ne_true, hdecoded]
      simp [hdeep, htyped, reading, eq_comm]
    · have hfailed : (decodeObject ms).2 = true := by
        rwa [← decodeObject_failed, Bool.not_eq_false] at htyped
      dsimp only
      rw [hfailed, if_pos rfl]
      simp [htyped]
  · rw [if_neg hdeep]
    simp [hdeep]

theorem caseIrrelevant_iff {statusCode : Int} {ms : List (List Item × Tree)} :
    CaseIrrelevant statusCode ms ↔
      reading exactly statusCode ms = reading folded statusCode ms := by
  rw [reading, reading, IncidentResponse.mk.injEq]
  constructor
  · intro h
    exact ⟨h.success.symm, h.code.symm, h.message.symm, h.incidentID.symm⟩
  · rintro ⟨hsuccess, hcode, hmessage, hid⟩
    exact ⟨hsuccess.symm, hcode.symm, hmessage.symm, hid.symm⟩

/-- **A response is read member by member exactly when nothing in it could fail**: the nesting keeps
to the limit of `encoding/json`, no member that goes to a field has a value of another type, and
names that differ from those of the fields only by case change nothing. -/
theorem parseResponse_reads_iff (statusCode : Int) {ms : List (List Item × Tree)} {body : Bytes}
    (h : Document JsonNumber (.obj ms) body) :
    parseResponse statusCode body = .ok (reading exactly statusCode ms) ↔
      Tree.nesting (.obj ms) ≤ maxNestingDepth ∧ WellTyped ms ∧ CaseIrrelevant statusCode ms := by
  rw [parseResponse_object h, caseIrrelevant_iff]

/-- A body with a code that is an integer. -/
theorem parseResponse_reads_iff_created : ∃ ms,
    Document JsonNumber (.obj ms) (bytes "\x7b\"code\":201\x7d") ∧
    parseResponse 200 (bytes "\x7b\"code\":201\x7d") = .ok (reading exactly 200 ms) := by
  have hlit : JsonNumber (bytes "201") := by decide +kernel
  have hbody : singleText (bytes "code") (bytes "201") = bytes "\x7b\"code\":201\x7d" := by
    decide +kernel
  have hdoc := document_single (bytes "code") (.num hlit)
  rw [hbody] at hdoc
  refine ⟨_, hdoc, (parseResponse_reads_iff 200 hdoc).mpr ⟨?_, ?_, ?_⟩⟩
  · decide +kernel
  · intro m hm f hf
    rw [List.mem_singleton] at hm
    subst hm
    have honly : ∀ f ∈ [Field.success, .message, .data],
        folded f (rawItems (bytes "code")) = false := by
      decide +kernel
    cases f with
    | code => decide +kernel
    | _ => rw [honly _ (by simp)] at hf; cases hf
  · exact caseIrrelevant_iff.mpr (by decide +kernel)

/-- A valid object whose code is a string fails the delivery. -/
theorem mismatch_fails_the_delivery : ∃ ms,
    Document JsonNumber (.obj ms) (bytes "\x7b\"code\":\"201\"\x7d") ∧
    ∃ e, parseResponse 201 (bytes "\x7b\"code\":\"201\"\x7d") = .error e := by
  have hbody : singleText (bytes "code") (stringText (rawItems (bytes "201"))) =
      bytes "\x7b\"code\":\"201\"\x7d" := by
    decide +kernel
  have hdoc := document_single (N := JsonNumber) (bytes "code") (.str (rawItems (bytes "201")))
  rw [hbody] at hdoc
  refine ⟨_, hdoc, ?_⟩
  cases hr : parseResponse 201 (bytes "\x7b\"code\":\"201\"\x7d") with
  | error e => exact ⟨e, rfl⟩
  | ok r =>
    obtain ⟨-, htyped, -⟩ := (parseResponse_object hdoc 201 r).mp hr
    have hstore := htyped _ (List.mem_singleton.mpr rfl) .code (by decide +kernel)
    cases hstore

end OppexSdk.Go.Response
