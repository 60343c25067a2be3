import OppexSdk.Cpp.JsonMeaning
import OppexSdk.Cpp.WireCodec
import OppexSdk.Lib.JsonWriter

/-! # The payload parses back

What `SerializeRequest` writes is a JSON text, and `json::Parse` of it returns the fields of the
request. The writer and the parser meet in the grammar: the payload is shown to be derived from a
tree, and the parser returns the value of that tree. -/
namespace OppexSdk.Cpp.Wire
open OppexSdk.Lib OppexSdk.Lib.Binary64 OppexSdk.Lib.FromChars OppexSdk.Cpp.Json
open OppexSdk.Lib.Json (Item Tree ShortEscape Derives Document JsonNumber Digits Ws decode utf8
  bodyText stringText isUnescaped isHexDigit isHighSurrogate isDigit digitValue)

/-! ## Strings -/

def shortEscapes : List ShortEscape :=
  [.quote, .backslash, .slash, .backspace, .formFeed, .lineFeed, .carriageReturn, .tab]

/-- The unicode escape of a control character. -/
def controlDigits (b : UInt8) : UInt8 × UInt8 :=
  (hexDigit (b.toNat / 16), hexDigit (b.toNat % 16))

/-- What the writer does with one byte, as an item: raw, short or unicode. -/
def writesItem (b : UInt8) : Bool :=
  let (h, l) := controlDigits b
  (isUnescaped b && escaped b == [b]) ||
    (shortEscapes.any fun e => escaped b == [0x5C, e.letter] && e.meaning == b) ||
    ([0x30, 0x30, h, l].all isHexDigit && escaped b == [0x5C, 0x75, 0x30, 0x30, h, l] &&
      utf8 (Item.unit 0x30 0x30 h l) == [b] && !isHighSurrogate (Item.unit 0x30 0x30 h l))

theorem writesItem_all (b : UInt8) : writesItem b = true := by
  have h : ∀ b, writesItem b = true := byte_cases (by decide +kernel)
  exact h b

/-- Every byte is written as one item that denotes it, whatever follows. -/
theorem exists_item (b : UInt8) : ∃ item : Item, item.text = escaped b ∧
    ∀ items, decode (item :: items) = b :: decode items := by
  have h := writesItem_all b
  simp only [writesItem, Bool.or_eq_true, Bool.and_eq_true, beq_iff_eq] at h
  rcases h with (⟨hraw, htext⟩ | hshort) | ⟨⟨⟨hhex, htext⟩, hutf8⟩, hhigh⟩
  · exact ⟨.raw b hraw, htext.symm, fun items => rfl⟩
  · obtain ⟨e, -, he⟩ := List.any_eq_true.mp hshort
    simp only [Bool.and_eq_true, beq_iff_eq] at he
    exact ⟨.short e, he.1.symm, fun items => by rw [decode, he.2]⟩
  · refine ⟨.unicode _ _ _ _ hhex, htext.symm, ?_⟩
    intro items
    rw [Bool.not_eq_true'] at hhigh
    have hapart := Lib.Json.apart_of_not_high [] hhex hhigh items
    rw [Lib.Json.decode_alone hhex hapart, hutf8, List.singleton_append]

/-- A written string is a string literal that denotes the bytes. -/
theorem exists_items (value : Bytes) :
    ∃ items, stringText items = appendEscaped value ∧ decode items = value := by
  have hbody : ∃ items, bodyText items = value.flatMap escaped ∧ decode items = value := by
    induction value with
    | nil => exact ⟨[], rfl, rfl⟩
    | cons b value ih =>
      obtain ⟨items, htext, hdecode⟩ := ih
      obtain ⟨item, hitem, hcons⟩ := exists_item b
      refine ⟨item :: items, ?_, by rw [hcons, hdecode]⟩
      rw [bodyText, List.flatMap_cons, hitem, List.flatMap_cons]
      exact congrArg _ htext
  obtain ⟨items, htext, hdecode⟩ := hbody
  exact ⟨items, by rw [stringText, htext, appendEscaped], hdecode⟩

/-! ## The fields of a payload -/

/-- What is written after a name. -/
inductive Field
  | text (s : Bytes)
  | number (i : Int)

namespace Field

def written : Field → Bytes
  | text s => appendEscaped s
  | number i => signedDecimal i

/-- What the parser makes of it. -/
def value : Field → Value
  | text s => .string s
  | number i => .number (fromChars (signedDecimal i) (.finite zero)).2

end Field

def memberText (f : Bytes × Field) : Bytes := appendEscaped f.1 ++ 0x3A :: f.2.written

/-- Texts with commas between them. -/
def join : List Bytes → Bytes
  | [] => []
  | [m] => m
  | m :: m' :: ms => m ++ 0x2C :: join (m' :: ms)

theorem join_eq_intercalate (ms : List Bytes) : join ms = [0x2C].intercalate ms := by
  fun_induction join ms with
  | case1 => rfl
  | case2 m => simp
  | case3 m m' ms ih => simp [ih]

theorem join_append (ms : List Bytes) (m : Bytes) :
    join (ms ++ [m]) = if ms.isEmpty then m else join ms ++ 0x2C :: m := by
  rw [join_eq_intercalate, join_eq_intercalate, Lib.Json.intercalate_concat]

/-- The payload after some fields. -/
def written (fs : List (Bytes × Field)) : Payload :=
  ⟨0x7B :: join (fs.map memberText), fs.isEmpty⟩

theorem written_append (fs : List (Bytes × Field)) (name : Bytes) (f : Field) :
    written (fs ++ [(name, f)]) =
      { appendField (written fs) name with
        out := (appendField (written fs) name).out ++ f.written } := by
  unfold written appendField
  rw [List.map_append, List.map_singleton, join_append]
  cases fs with
  | nil => simp [memberText, join]
  | cons f₀ fs => simp [memberText]

/-- A field that is written when it has a value. -/
def optional (name : Bytes) (v : Option Bytes) : List (Bytes × Field) :=
  (v.map fun s => (name, Field.text s)).toList

theorem appendString_written (fs : List (Bytes × Field)) (name value : Bytes) :
    appendString (written fs) name value = written (fs ++ [(name, .text value)]) :=
  (written_append fs name (.text value)).symm

theorem appendNumber_written (fs : List (Bytes × Field)) (name : Bytes) (i : Int) :
    appendNumber (written fs) name i = written (fs ++ [(name, .number i)]) :=
  (written_append fs name (.number i)).symm

theorem appendOptionalString_written (fs : List (Bytes × Field)) (name : Bytes)
    (v : Option Bytes) :
    appendOptionalString (written fs) name v = written (fs ++ optional name v) := by
  cases v with
  | none => simp [appendOptionalString, optional]
  | some value => exact appendString_written fs name value

def fields (request : NormalizedRequest) (key : Option Bytes) : List (Bytes × Field) :=
  optional (bytes "serviceKey") key ++
    [(bytes "title", .text request.title), (bytes "source", .text request.source),
      (bytes "severity", .number request.severity.toInt),
      (bytes "priority", .number request.priority.toInt),
      (bytes "srcTimestamp", .number request.srcTimestamp.toInt)] ++
    optional (bytes "component") request.component ++ optional (bytes "group") request.group ++
    optional (bytes "type") request.type ++ optional (bytes "detailsJSON") request.details

theorem serializeRequest_eq (request : NormalizedRequest) (key : Option Bytes) :
    serializeRequest request key = (written (fields request key)).out ++ [0x7D] := by
  have hstart : (⟨[0x7B], true⟩ : Payload) = written [] := rfl
  unfold serializeRequest
  simp only [hstart, appendOptionalString_written, appendString_written, appendNumber_written]
  simp [fields]

/-! ## The payload as a tree -/

theorem exists_tree (f : Field) : ∃ t : Tree, Derives JsonNumber (.value t) f.written ∧
    treeValue t = f.value ∧ t.height = 0 := by
  cases f with
  | text s =>
    obtain ⟨items, htext, hdecode⟩ := exists_items s
    exact ⟨.str items, by rw [Field.written, ← htext]; exact .str items,
      by rw [treeValue, hdecode]; rfl, rfl⟩
  | number i => exact ⟨.num _, .num (jsonNumber_signedDecimal i), rfl, rfl⟩

/-- Fields entered one after the other. -/
def enter (o : Object) (fs : List (Bytes × Field)) : Object :=
  fs.foldl (fun o f => o.insertOrAssign f.1 f.2.value) o

/-- The member is what the parser makes of the field. -/
def Holds (m : List Item × Tree) (f : Bytes × Field) : Prop :=
  decode m.1 = f.1 ∧ treeValue m.2 = f.2.value ∧ m.2.height = 0

theorem exists_members {fs : List (Bytes × Field)} (hne : fs ≠ []) :
    ∃ ms, Derives JsonNumber (.members ms) (join (fs.map memberText)) ∧
      List.Forall₂ Holds ms fs := by
  rw [join_eq_intercalate]
  refine Lib.Json.exists_members ?_ (by simpa using hne)
  refine List.forall₂_map_left_iff.mpr (List.forall₂_same.mpr fun f _ => ?_)
  obtain ⟨k, hkey, hk⟩ := exists_items f.1
  obtain ⟨t, hd, hvalue, hheight⟩ := exists_tree f.2
  exact ⟨k, t, _, hd, by rw [memberText, hkey], hk, hvalue, hheight⟩

variable {ms : List (List Item × Tree)} {fs : List (Bytes × Field)}

theorem membersHeight_le_one (h : List.Forall₂ Holds ms fs) : Lib.Json.membersHeight ms ≤ 1 := by
  induction h with
  | nil => exact Nat.zero_le _
  | cons hm _ ih => simp [Lib.Json.membersHeight, hm.2.2, ih]

theorem memberValues_eq_enter (h : List.Forall₂ Holds ms fs) (o : Object) :
    memberValues o ms = enter o fs := by
  induction h generalizing o with
  | nil => rfl
  | cons hm _ ih =>
    rw [memberValues, ih, hm.1, hm.2.1]
    rfl

theorem parse_written (f : Bytes × Field) (fs : List (Bytes × Field)) :
    parse ((written (f :: fs)).out ++ [0x7D]) = some (.object (enter [] (f :: fs))) := by
  have hws : Ws [] := List.forall_mem_nil _
  obtain ⟨ms, hms, hread⟩ := exists_members (List.cons_ne_nil f fs)
  have hdoc : Document JsonNumber (.obj ms) ((written (f :: fs)).out ++ [0x7D]) :=
    ⟨[], _, [], hws, .obj hms, hws, by simp [written]⟩
  refine parse_eq_some_iff.mpr ⟨.obj ms, hdoc.mono fun _ => JsonNumber.strtod, ?_, ?_⟩
  · exact (membersHeight_le_one hread).trans (by decide)
  · rw [treeValue, memberValues_eq_enter hread]

/-! ## What is found in it -/

theorem enter_append (o : Object) (fs gs : List (Bytes × Field)) :
    enter o (fs ++ gs) = enter (enter o fs) gs := List.foldl_append

theorem find_enter_cons (o : Object) (name : Bytes) (f : Field) (fs : List (Bytes × Field)) :
    enter o ((name, f) :: fs) = enter (o.insertOrAssign name f.value) fs := rfl

theorem find_optional (o : Object) (name : Bytes) (v : Option Bytes) (k : Bytes) :
    (enter o (optional name v)).find k =
      if k = name then (v.map Value.string).or (o.find k) else o.find k := by
  cases v with
  | none => simp [optional, enter]
  | some s => simpa [optional, enter, Field.value] using find_insertOrAssign o name (.string s) k

/-- The names on the wire. -/
def wireKeys : List Bytes :=
  [bytes "serviceKey", bytes "title", bytes "source", bytes "severity", bytes "priority",
    bytes "srcTimestamp", bytes "component", bytes "group", bytes "type", bytes "detailsJSON"]

theorem find_fields (request : NormalizedRequest) (key : Option Bytes) (k : Bytes) :
    (enter [] (fields request key)).find k =
      if k = bytes "serviceKey" then key.map .string
      else if k = bytes "title" then some (.string request.title)
      else if k = bytes "source" then some (.string request.source)
      else if k = bytes "severity" then some (Field.number request.severity.toInt).value
      else if k = bytes "priority" then some (Field.number request.priority.toInt).value
      else if k = bytes "srcTimestamp" then some (Field.number request.srcTimestamp.toInt).value
      else if k = bytes "component" then request.component.map .string
      else if k = bytes "group" then request.group.map .string
      else if k = bytes "type" then request.type.map .string
      else if k = bytes "detailsJSON" then request.details.map .string
      else none := by
  have hnil : ∀ o : Object, enter o [] = o := fun _ => rfl
  simp only [fields, enter_append, find_optional, find_enter_cons, hnil, find_insertOrAssign,
    find_nil, Field.value, Option.or_none]
  by_cases h : k ∈ wireKeys
  · simp only [wireKeys, List.mem_cons, List.not_mem_nil, or_false] at h
    rcases h with rfl | rfl | rfl | rfl | rfl | rfl | rfl | rfl | rfl | rfl
    all_goals simp +decide
  · simp only [wireKeys, List.mem_cons, List.not_mem_nil, or_false, not_or] at h
    simp [h]

/-! ## Integers -/

theorem asInt_number {i : Int} (h : i.natAbs ≤ 2 ^ 53) :
    (Field.number i).value.asInt = some (.value i) := by
  obtain ⟨x, hx, hneg, hunits⟩ := fromChars_signedDecimal h (.finite zero)
  have htrunc : x.trunc = i := by
    rw [x.trunc_of_units hunits, hneg]
    by_cases hi : i < 0
    · rw [decide_eq_true hi, if_pos rfl]
      omega
    · rw [decide_eq_false hi, if_neg Bool.false_ne_true]
      omega
  have hrat : x.toRat = (i : ℚ) := by rw [x.toRat_of_units hunits, htrunc]
  have hrange : ¬ (x.toRat < -2 ^ 63 ∨ x.toRat > 2 ^ 63) := by
    have hlow : (-(2 ^ 63 : ℤ) : ℚ) ≤ (i : ℚ) := by exact_mod_cast (by omega : -2 ^ 63 ≤ i)
    have hhigh : (i : ℚ) ≤ ((2 ^ 63 : ℤ) : ℚ) := by exact_mod_cast (by omega : i ≤ 2 ^ 63)
    rw [hrat]
    push_cast at hlow hhigh
    exact not_or.mpr ⟨not_lt.mpr hlow, not_lt.mpr hhigh⟩
  have hcast : Value.castInt64 x = .value i := by
    unfold Value.castInt64
    rw [htrunc, if_pos (by omega)]
  have hvalue : (Field.number i).value = .number (.finite x) := by rw [Field.value, hx]
  rw [hvalue, Value.asInt, if_neg hrange, hcast]

theorem natAbs_int32_le (i : Int32) : i.toInt.natAbs ≤ 2 ^ 53 := by
  have hlow := i.le_toInt
  have hhigh := i.toInt_lt
  omega

/-! ## The round trip -/

/-- What an object says under a name, read as a string. -/
def textOf (o : Object) (name : String) : Option (Option Bytes) :=
  (o.find (bytes name)).map Value.asString

def intOf (o : Object) (name : String) : Option Value.Cast :=
  (o.find (bytes name)).bind Value.asInt

/-- The object carries the request under the resolved service key. -/
structure Carries (request : NormalizedRequest) (key : Option Bytes) (o : Object) : Prop where
  /-- There are no other keys. -/
  keys : ∀ name, o.find name ≠ none → name ∈ wireKeys
  serviceKey : textOf o "serviceKey" = key.map some
  title : textOf o "title" = some (some request.title)
  source : textOf o "source" = some (some request.source)
  severity : intOf o "severity" = some (.value request.severity.toInt)
  priority : intOf o "priority" = some (.value request.priority.toInt)
  srcTimestamp : o.find (bytes "srcTimestamp") ≠ none
  srcTimestamp_exact : |request.srcTimestamp.toInt| ≤ 2 ^ 53 →
    intOf o "srcTimestamp" = some (.value request.srcTimestamp.toInt)
  component : textOf o "component" = request.component.map some
  group : textOf o "group" = request.group.map some
  type : textOf o "type" = request.type.map some
  details : textOf o "detailsJSON" = request.details.map some

/-- **What is serialized parses back,** for every request and every resolved service key. -/
theorem serialized_request_parses_back (request : NormalizedRequest) (key : Option Bytes) :
    ∃ o, parse (serializeRequest request key) = some (.object o) ∧ Carries request key o := by
  have hparse : parse (serializeRequest request key) =
      some (.object (enter [] (fields request key))) := by
    rw [serializeRequest_eq]
    cases key with
    | none => exact parse_written _ _
    | some key => exact parse_written _ _
  refine ⟨_, hparse, ?_⟩
  have hstring : ∀ v : Option Bytes, (v.map Value.string).map Value.asString = v.map some := by
    intro v; cases v <;> rfl
  exact
    { keys := by
        intro name hne
        by_contra hmem
        simp only [wireKeys, List.mem_cons, List.not_mem_nil, or_false, not_or] at hmem
        rw [find_fields] at hne
        simp [hmem] at hne
      serviceKey := by simp +decide [textOf, find_fields, hstring]
      title := by simp +decide [textOf, find_fields, Value.asString]
      source := by simp +decide [textOf, find_fields, Value.asString]
      severity := by simp +decide [intOf, find_fields, asInt_number (natAbs_int32_le _)]
      priority := by simp +decide [intOf, find_fields, asInt_number (natAbs_int32_le _)]
      srcTimestamp := by simp +decide [find_fields]
      srcTimestamp_exact := by
        intro h
        have hle : request.srcTimestamp.toInt.natAbs ≤ 2 ^ 53 := by
          rw [Int.abs_eq_natAbs] at h; exact_mod_cast h
        simp +decide [intOf, find_fields, asInt_number hle]
      component := by simp +decide [textOf, find_fields, hstring]
      group := by simp +decide [textOf, find_fields, hstring]
      type := by simp +decide [textOf, find_fields, hstring]
      details := by simp +decide [textOf, find_fields, hstring] }

end OppexSdk.Cpp.Wire
