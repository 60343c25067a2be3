import OppexSdk.Cpp.JsonMeaning
import OppexSdk.Lib.JsonUtf8

/-! # The strings of the C++ parser are UTF-8

`ParseString` passes raw bytes through "as the bytes it already is, UTF-8 included" and puts
U+FFFD for a surrogate that has no partner: out of valid text come valid strings. -/
namespace OppexSdk.Cpp.Json
open OppexSdk.Lib
open OppexSdk.Lib.Json (Item Tree stringText decode Apart EscapesOf charUnits isHighSurrogate
  isLowSurrogate isHexDigit)

/-! ## The strings of a value -/

mutual

/-- Every string and every key of the value satisfies `p`. -/
def Value.AllStrings (p : Bytes → Prop) : Value → Prop
  | .string s => p s
  | .array vs => elemsStrings p vs
  | .object ms => membersStrings p ms
  | _ => True

def elemsStrings (p : Bytes → Prop) : List Value → Prop
  | [] => True
  | v :: vs => v.AllStrings p ∧ elemsStrings p vs

def membersStrings (p : Bytes → Prop) : List (Bytes × Value) → Prop
  | [] => True
  | (key, v) :: ms => p key ∧ v.AllStrings p ∧ membersStrings p ms

end

section
variable {p : Bytes → Prop}

theorem membersStrings_insertOrAssign {object : Object} {key : Bytes} {value : Value}
    (hobject : membersStrings p object) (hkey : p key) (hvalue : value.AllStrings p) :
    membersStrings p (object.insertOrAssign key value) := by
  induction object with
  | nil => exact ⟨hkey, hvalue, trivial⟩
  | cons m rest ih =>
    obtain ⟨k, v⟩ := m
    obtain ⟨hk, hv, hrest⟩ := hobject
    unfold Object.insertOrAssign
    split
    · exact ⟨hk, hvalue, hrest⟩
    · exact ⟨hk, hv, ih hrest⟩

mutual

/-- The strings of the value of a tree are those its strings denote. -/
theorem allStrings_treeValue : {t : Tree} → t.AllStrings (fun items => p (decode items)) →
    (treeValue t).AllStrings p
  | .str _, h => h
  | .arr _, h => elemsStrings_elemValues h
  | .obj _, h => membersStrings_memberValues [] trivial h
  | .null, _ => trivial
  | .bool _, _ => trivial
  | .num _, _ => trivial

theorem elemsStrings_elemValues : {ts : List Tree} →
    Lib.Json.ElemsStrings (fun items => p (decode items)) ts → elemsStrings p (elemValues ts)
  | [], _ => trivial
  | _ :: _, h => ⟨allStrings_treeValue h.1, elemsStrings_elemValues h.2⟩

theorem membersStrings_memberValues : (object : Object) → membersStrings p object →
    {ms : List (List Item × Tree)} →
    Lib.Json.MembersStrings (fun items => p (decode items)) ms →
    membersStrings p (memberValues object ms)
  | _, hobject, [], _ => hobject
  | _, hobject, (_, _) :: _, h =>
    membersStrings_memberValues _
      (membersStrings_insertOrAssign hobject h.1 (allStrings_treeValue h.2.1)) h.2.2

end

end

/-! ## One literal -/

/-- Wherever `ParseString` meets the literal of these items, it returns the value and stops behind
the literal. -/
def ReadsAs (items : List Item) (value : Bytes) : Prop :=
  ∀ front rest : Bytes, ∃ r,
    parseString (front ++ (stringText items ++ rest)) front.length = some r ∧ r.value = value ∧
      r.next = front.length + (stringText items).length

theorem readsAs_decode (items : List Item) : ReadsAs items (decode items) := by
  intro front rest
  have hview := parseString_view (front ++ (stringText items ++ rest)) front.length
  rw [List.drop_left, Lib.Json.parseString_eq_some.mpr rfl, Option.map_some] at hview
  obtain ⟨r, hr, hvalue, hrest⟩ := view_eq_some.mp hview
  refine ⟨r, hr, hvalue, ?_⟩
  -- what is left has the length of `rest`, so that the position is the end of the literal
  have hleft := congrArg List.length hrest
  have hinside := r.inside
  simp only [List.length_drop, List.length_append] at hleft hinside
  omega

theorem ReadsAs.eq_decode {items : List Item} {value : Bytes} (h : ReadsAs items value) :
    value = decode items := by
  obtain ⟨r, hr, hvalue, -⟩ := h [] []
  obtain ⟨r', hr', hvalue', -⟩ := readsAs_decode items [] []
  rw [hr] at hr'
  cases hr'
  rw [← hvalue, hvalue']

/-- **Strings come out as UTF-8.** The strings and keys of what is parsed out of valid text are
valid; text written in `\uXXXX` escapes is read as its own encoding; and a surrogate escape that
has no partner on either side is read as U+FFFD, with what stands before it and behind it read as
it is read without the escape. -/
theorem strings_are_utf8 :
    (∀ text v, Utf8.Valid text → parse text = some v → v.AllStrings Utf8.Valid) ∧
    (∀ (cs : List Char) items, EscapesOf items (cs.flatMap charUnits) →
      ReadsAs items (Utf8.encode cs)) ∧
    (∀ a b c d (hex : [a, b, c, d].all isHexDigit = true) before after x y,
      (isHighSurrogate (Item.unit a b c d) || isLowSurrogate (Item.unit a b c d)) = true →
      Apart before [.unicode a b c d hex] → Apart [.unicode a b c d hex] after →
      ReadsAs before x → ReadsAs after y →
      ReadsAs (before ++ .unicode a b c d hex :: after)
        (x ++ (Utf8.encode [Char.ofNat 0xFFFD] ++ y))) := by
  refine ⟨?_, ?_, ?_⟩
  · intro text v htext hparse
    obtain ⟨t, hdoc, -, rfl⟩ := parse_eq_some_iff.mp hparse
    exact allStrings_treeValue (hdoc.valid_strings htext)
  · intro cs items hitems
    rw [← Lib.Json.decode_escapesOf hitems]
    exact readsAs_decode items
  · intro a b c d hex before after x y hsurrogate hbefore hafter hx hy
    rw [hx.eq_decode, hy.eq_decode, ← Lib.Json.decode_unpaired hex hsurrogate hbefore hafter]
    exact readsAs_decode _

/-- `\uD83d\udE00`, the pair of U+1F600. -/
def pairItems : List Item :=
  [.unicode 0x44 0x38 0x33 0x64 rfl, .unicode 0x64 0x45 0x30 0x30 rfl]

/-- A raw character, a pair, and a high surrogate before a pair. -/
theorem strings_are_utf8_pairs :
    (Value.string [0xC3, 0xA9]).AllStrings Utf8.Valid ∧
    ReadsAs pairItems (Utf8.encode [Char.ofNat 0x1F600]) ∧
    ReadsAs (.unicode 0x44 0x38 0x30 0x30 rfl :: pairItems)
      (Utf8.encode [Char.ofNat 0xFFFD] ++ Utf8.encode [Char.ofNat 0x1F600]) := by
  have hitems : EscapesOf pairItems ([Char.ofNat 0x1F600].flatMap charUnits) := by decide
  have hpair := strings_are_utf8.2.1 [Char.ofNat 0x1F600] pairItems hitems
  refine ⟨strings_are_utf8.1 [0x22, 0xC3, 0xA9, 0x22] _ ?_ ?_, hpair, ?_⟩
  · exact ⟨[Char.ofNat 0x22, Char.ofNat 0xE9, Char.ofNat 0x22], by decide⟩
  · have hws : Lib.Json.Ws [] := List.forall_mem_nil _
    exact parse_eq_some_iff.mpr ⟨.str [.raw 0xC3 rfl, .raw 0xA9 rfl],
      ⟨[], _, [], hws, .str _, hws, by decide⟩, by decide, rfl⟩
  · refine strings_are_utf8.2.2 _ _ _ _ rfl [] pairItems [] _ (by decide) ?_ ?_ ?_ hpair
    · intro x hx
      cases hx
    · intro x hx y hy u hu v hv
      cases hx; cases hy; cases hu; cases hv
      decide
    · exact readsAs_decode []

end OppexSdk.Cpp.Json
