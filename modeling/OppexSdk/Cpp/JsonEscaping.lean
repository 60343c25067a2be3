import OppexSdk.Cpp.WireRoundTrip
import OppexSdk.Lib.JsonUtf8

/-! # What the C++ writer does with text that is not UTF-8

`json.hpp` promises of `AppendEscaped` that "invalid UTF-8 bytes are replaced rather than emitted
raw". It looks at one byte at a time and passes every byte from 0x20 on through, quotes and
backslashes apart: its output is UTF-8 exactly when its input is. -/
namespace OppexSdk.Cpp.Json
open OppexSdk.Lib
open OppexSdk.Lib.Json (Item stringText decode)

/-- The text is one string literal of RFC 8259: quoted items, in UTF-8 as a whole. -/
def IsStringLiteral (text : Bytes) : Prop := (∃ items, text = stringText items) ∧ Utf8.Valid text

/-- What `AppendEscaped` promises of the bytes it appends for a value. -/
structure WellEscaped (value : Bytes) : Prop where
  literal : IsStringLiteral (appendEscaped value)
  denotes : Utf8.Valid value →
    ∀ items, appendEscaped value = stringText items → decode items = value

/-! ## One byte -/

theorem escaped_of_ascii {b : UInt8} (h : Utf8.IsAscii b) :
    escaped b ≠ [] ∧ ∀ c ∈ escaped b, Utf8.IsAscii c := by
  have hall : ∀ b, Utf8.IsAscii b → escaped b ≠ [] ∧ ∀ c ∈ escaped b, Utf8.IsAscii c :=
    byte_cases (by decide +kernel)
  exact hall b h

theorem escaped_of_not_ascii {b : UInt8} (h : ¬ Utf8.IsAscii b) : escaped b = [b] := by
  have hall : ∀ b, ¬ Utf8.IsAscii b → escaped b = [b] := byte_cases (by decide +kernel)
  exact hall b h

/-! ## The literal -/

/-- Escaping keeps validity and invalidity: it changes ASCII bytes only, and into ASCII bytes. What
was passed through before, and may be part of a character, is `before`. -/
theorem valid_escaped (before value : Bytes) :
    Utf8.Valid (before ++ value.flatMap escaped) ↔ Utf8.Valid (before ++ value) := by
  induction value generalizing before with
  | nil => rfl
  | cons b value ih =>
    rw [List.flatMap_cons]
    by_cases hb : Utf8.IsAscii b
    · obtain ⟨hne, hascii⟩ := escaped_of_ascii hb
      obtain ⟨c, cs, hcs⟩ := List.exists_cons_of_ne_nil hne
      rw [hcs, List.forall_mem_cons] at hascii
      rw [hcs, List.cons_append, Utf8.valid_around_ascii hascii.1, Utf8.valid_around_ascii hb,
        Utf8.valid_ascii_append hascii.2]
      exact and_congr_right fun _ => ih []
    · have hmore := ih (before ++ [b])
      simpa [escaped_of_not_ascii hb] using hmore

theorem valid_appendEscaped (value : Bytes) :
    Utf8.Valid (appendEscaped value) ↔ Utf8.Valid value := by
  have hquote : Utf8.IsAscii 0x22 := by decide
  have hfirst := Utf8.valid_around_ascii hquote [] (value.flatMap escaped ++ [0x22])
  have hlast := Utf8.valid_around_ascii hquote (value.flatMap escaped) []
  have hbody := valid_escaped [] value
  rw [List.nil_append] at hfirst
  simp only [List.nil_append] at hbody
  rw [appendEscaped, List.cons_append, hfirst, hlast, hbody]
  simp [Utf8.valid_nil]

/-- A literal has one list of items. -/
theorem stringText_injective {items items' : List Item} (h : stringText items = stringText items') :
    items = items' := by
  have hp := Lib.Json.parseString_eq_some.mpr (List.append_nil (stringText items)).symm
  have hp' := Lib.Json.parseString_eq_some.mpr (List.append_nil (stringText items')).symm
  rw [h, hp'] at hp
  exact (congrArg Prod.fst (Option.some.inj hp)).symm

/-- **What is written is well-formed exactly when the value is UTF-8.** -/
theorem wellEscaped_iff_valid (value : Bytes) : WellEscaped value ↔ Utf8.Valid value := by
  constructor
  · intro h
    exact (valid_appendEscaped value).mp h.literal.2
  · intro hvalid
    obtain ⟨items, htext, hdecode⟩ := Wire.exists_items value
    refine ⟨⟨⟨items, htext.symm⟩, (valid_appendEscaped value).mpr hvalid⟩, ?_⟩
    intro _ items' htext'
    rw [← stringText_injective (htext.trans htext'), hdecode]

/-- The byte 0xFF is emitted raw. -/
theorem invalid_byte_is_emitted_raw :
    appendEscaped [0xFF] = [0x22, 0xFF, 0x22] ∧ ¬ WellEscaped [0xFF] := by
  refine ⟨by decide, ?_⟩
  intro h
  have hvalid := (valid_appendEscaped [0xFF]).mp h.literal.2
  exact absurd hvalid.head_first (by decide)

end OppexSdk.Cpp.Json
