import OppexSdk.Lib.JsonGrammar
import OppexSdk.Lib.Utf8

/-! # What the strings of a JSON text denote, in UTF-8

Escapes and everything between the strings of a text are ASCII. The strings of a text in UTF-8 are
therefore in UTF-8 each by itself, and so is what they denote. A surrogate escape pairs with its
neighbour only: apart from such a pair, a string denotes what its parts denote. -/
namespace OppexSdk.Lib.Utf8

/-- ASCII text is valid whatever it stands before. -/
theorem valid_ascii_append {s t : Bytes} (hs : ∀ c ∈ s, IsAscii c) : Valid (s ++ t) ↔ Valid t := by
  induction s with
  | nil => rfl
  | cons c s ih =>
    rw [List.forall_mem_cons] at hs
    have haround := valid_around_ascii hs.1 [] (s ++ t)
    rw [List.nil_append] at haround
    rw [List.cons_append, haround, ih hs.2]
    simp [valid_nil]

theorem valid_append_ascii {s t : Bytes} (ht : ∀ c ∈ t, IsAscii c) : Valid (s ++ t) ↔ Valid s := by
  cases t with
  | nil => rw [List.append_nil]
  | cons c t =>
    rw [List.forall_mem_cons] at ht
    have hrest := valid_ascii_append (t := []) ht.2
    rw [List.append_nil] at hrest
    rw [valid_around_ascii ht.1, hrest]
    simp [valid_nil]

end OppexSdk.Lib.Utf8

namespace OppexSdk.Lib.Json

/-! ## Bytes of the grammar -/

theorem isWs_ascii {b : UInt8} (h : isWs b = true) : Utf8.IsAscii b := by
  have hall : ∀ b, isWs b = true → Utf8.IsAscii b := byte_cases (by decide +kernel)
  exact hall b h

theorem isHexDigit_ascii {b : UInt8} (h : isHexDigit b = true) : Utf8.IsAscii b := by
  have hall : ∀ b, isHexDigit b = true → Utf8.IsAscii b := byte_cases (by decide +kernel)
  exact hall b h

theorem ShortEscape.letter_ascii (e : ShortEscape) : Utf8.IsAscii e.letter := by
  cases e <;> decide

theorem ShortEscape.meaning_ascii (e : ShortEscape) : Utf8.IsAscii e.meaning := by
  cases e <;> decide

theorem valid_utf8 (codePoint : Nat) : Utf8.Valid (utf8 codePoint) := by
  unfold utf8
  split
  · exact Utf8.valid_char _
  · exact Utf8.valid_char _

/-! ## One string -/

/-- An escape ends any character begun before it. -/
theorem valid_after_escape (before : Bytes) {rest escape : Bytes} (hne : escape ≠ [])
    (hascii : ∀ b ∈ escape, Utf8.IsAscii b) :
    Utf8.Valid (before ++ (escape ++ rest)) ↔ Utf8.Valid before ∧ Utf8.Valid rest := by
  obtain ⟨b, escape, rfl⟩ := List.exists_cons_of_ne_nil hne
  rw [List.forall_mem_cons] at hascii
  rw [List.cons_append, Utf8.valid_around_ascii hascii.1, Utf8.valid_ascii_append hascii.2]

theorem escape_ascii (item : Item) (hraw : ∀ b h, item ≠ .raw b h) :
    item.text ≠ [] ∧ ∀ b ∈ item.text, Utf8.IsAscii b := by
  cases item with
  | raw b h => exact absurd rfl (hraw b h)
  | short e =>
    have hslash : Utf8.IsAscii 0x5C := by decide
    simp [Item.text, hslash, e.letter_ascii]
  | unicode a b c d hex =>
    have hslash : Utf8.IsAscii 0x5C := by decide
    have hu : Utf8.IsAscii 0x75 := by decide
    simp only [List.all_cons, List.all_nil, Bool.and_true, Bool.and_eq_true] at hex
    simp [Item.text, hslash, hu, isHexDigit_ascii hex.1, isHexDigit_ascii hex.2.1,
      isHexDigit_ascii hex.2.2.1, isHexDigit_ascii hex.2.2.2]

/-- What valid text denotes is valid. The raw bytes since the last escape, which may be part of a
character, are `before`. -/
theorem valid_decode (before : Bytes) (items : List Item)
    (h : Utf8.Valid (before ++ bodyText items)) : Utf8.Valid (before ++ decode items) := by
  induction items using decode.induct generalizing before with
  | case1 => exact h
  | case2 b hb rest ih =>
    have hmore := ih (before ++ [b]) (by simpa [bodyText, Item.text] using h)
    simpa [decode] using hmore
  | case3 e rest ih =>
    obtain ⟨hne, hascii⟩ := escape_ascii (.short e) (by simp)
    obtain ⟨hbefore, hrest⟩ := (valid_after_escape before hne hascii).mp h
    exact (Utf8.valid_around_ascii e.meaning_ascii before _).mpr ⟨hbefore, ih [] hrest⟩
  | case4 a b c d hex a' b' c' d' hex' rest hpair ih =>
    obtain ⟨hne, hascii⟩ := escape_ascii (.unicode a b c d hex) (by simp)
    obtain ⟨hbefore, hrest⟩ := (valid_after_escape before hne hascii).mp h
    obtain ⟨hne', hascii'⟩ := escape_ascii (.unicode a' b' c' d' hex') (by simp)
    obtain ⟨-, hrest'⟩ := (valid_after_escape [] hne' hascii').mp hrest
    rw [decode, if_pos hpair]
    exact hbefore.append ((valid_utf8 _).append (ih [] hrest'))
  | case5 a b c d hex a' b' c' d' hex' rest hpair ih =>
    obtain ⟨hne, hascii⟩ := escape_ascii (.unicode a b c d hex) (by simp)
    obtain ⟨hbefore, hrest⟩ := (valid_after_escape before hne hascii).mp h
    rw [decode, if_neg hpair]
    exact hbefore.append ((valid_utf8 _).append (ih [] hrest))
  | case6 a b c d hex rest hlast ih =>
    obtain ⟨hne, hascii⟩ := escape_ascii (.unicode a b c d hex) (by simp)
    obtain ⟨hbefore, hrest⟩ := (valid_after_escape before hne hascii).mp h
    rw [decode.eq_5 _ _ _ _ _ _ hlast]
    exact hbefore.append ((valid_utf8 _).append (ih [] hrest))

/-- What stands between two ASCII bytes. -/
theorem valid_bracketed {left right : UInt8} {s : Bytes} (hl : Utf8.IsAscii left)
    (hr : Utf8.IsAscii right) (h : Utf8.Valid (left :: s ++ [right])) : Utf8.Valid s :=
  ((Utf8.valid_around_ascii hr s []).mp ((Utf8.valid_around_ascii hl [] _).mp h).2).1

theorem valid_stringText {items : List Item} (h : Utf8.Valid (stringText items)) :
    Utf8.Valid (decode items) := by
  have hquote : Utf8.IsAscii 0x22 := by decide
  exact valid_decode [] items (valid_bracketed hquote hquote h)

/-! ## The strings of a tree -/

mutual

/-- Every string and every name of the tree satisfies `p`. -/
def Tree.AllStrings (p : List Item → Prop) : Tree → Prop
  | .str items => p items
  | .arr ts => ElemsStrings p ts
  | .obj ms => MembersStrings p ms
  | _ => True

def ElemsStrings (p : List Item → Prop) : List Tree → Prop
  | [] => True
  | t :: ts => t.AllStrings p ∧ ElemsStrings p ts

def MembersStrings (p : List Item → Prop) : List (List Item × Tree) → Prop
  | [] => True
  | (k, t) :: ms => p k ∧ t.AllStrings p ∧ MembersStrings p ms

end

/-- The same of what a nonterminal derives. -/
def Node.AllStrings (p : List Item → Prop) : Node → Prop
  | .value t => t.AllStrings p
  | .elems ts => ElemsStrings p ts
  | .members ms => MembersStrings p ms

theorem Ws.ascii {w : Bytes} (h : Ws w) : ∀ b ∈ w, Utf8.IsAscii b := fun b hb => isWs_ascii (h b hb)

theorem valid_spaced {w s w' : Bytes} (hw : Ws w) (hw' : Ws w') (h : Utf8.Valid (w ++ (s ++ w'))) :
    Utf8.Valid s :=
  (Utf8.valid_append_ascii hw'.ascii).mp ((Utf8.valid_ascii_append hw.ascii).mp h)

/-- What stands before a comma, and what comes behind it. -/
theorem valid_comma {w s w' r : Bytes} (hw : Ws w) (hw' : Ws w')
    (h : Utf8.Valid (w ++ (s ++ (w' ++ 0x2C :: r)))) : Utf8.Valid s ∧ Utf8.Valid r := by
  have hcomma : Utf8.IsAscii 0x2C := by decide
  rw [Utf8.valid_ascii_append hw.ascii, ← List.append_assoc, Utf8.valid_around_ascii hcomma,
    Utf8.valid_append_ascii hw'.ascii] at h
  exact h

/-- A name, and what stands behind its colon. -/
theorem valid_colon {w k w₁ w₂ s : Bytes} (hw : Ws w) (hw₁ : Ws w₁) (hw₂ : Ws w₂)
    (h : Utf8.Valid (w ++ (k ++ (w₁ ++ 0x3A :: (w₂ ++ s))))) : Utf8.Valid k ∧ Utf8.Valid s := by
  have hcolon : Utf8.IsAscii 0x3A := by decide
  rw [Utf8.valid_ascii_append hw.ascii, ← List.append_assoc, Utf8.valid_around_ascii hcolon,
    Utf8.valid_append_ascii hw₁.ascii, Utf8.valid_ascii_append hw₂.ascii] at h
  exact h

section
variable {N : Bytes → Prop}

/-- Every string of a valid text denotes valid text. -/
theorem Derives.valid_strings {node : Node} {s : Bytes} (h : Derives N node s)
    (hs : Utf8.Valid s) : node.AllStrings fun items => Utf8.Valid (decode items) := by
  induction h with
  | str items => exact valid_stringText hs
  | arr _ ih => exact ih (valid_bracketed (by decide) (by decide) hs)
  | obj _ ih => exact ih (valid_bracketed (by decide) (by decide) hs)
  | elemsOne hw _ hw' ih => exact ⟨ih (valid_spaced hw hw' hs), trivial⟩
  | elemsCons hw _ hw' _ iht ihr =>
    obtain ⟨hvalue, hmore⟩ := valid_comma hw hw' hs
    exact ⟨iht hvalue, ihr hmore⟩
  | membersOne hw hw₁ hw₂ _ hw' ih =>
    obtain ⟨hname, hvalue⟩ := valid_colon hw hw₁ hw₂ hs
    exact ⟨valid_stringText hname, ih ((Utf8.valid_append_ascii hw'.ascii).mp hvalue), trivial⟩
  | membersCons hw hw₁ hw₂ _ hw' _ iht ihr =>
    obtain ⟨hname, hrest⟩ := valid_colon hw hw₁ hw₂ hs
    obtain ⟨hvalue, hmore⟩ := valid_comma (w := []) (List.forall_mem_nil _) hw' hrest
    exact ⟨valid_stringText hname, iht hvalue, ihr hmore⟩
  | _ => trivial

theorem Document.valid_strings {t : Tree} {text : Bytes} (h : Document N t text)
    (htext : Utf8.Valid text) : t.AllStrings fun items => Utf8.Valid (decode items) := by
  obtain ⟨w, s, w', hw, hs, hw', rfl⟩ := h
  exact hs.valid_strings (valid_spaced hw hw' htext)

end

/-! ## Escapes and their neighbours -/

/-- The UTF-16 unit an item is the escape of. -/
def Item.escapeUnit : Item → Option Nat
  | .unicode a b c d _ => some (Item.unit a b c d)
  | _ => none

/-- No pair lies across the two. -/
def Apart (xs ys : List Item) : Prop :=
  ∀ x ∈ xs.getLast?, ∀ y ∈ ys.head?, ∀ u ∈ x.escapeUnit, ∀ v ∈ y.escapeUnit,
    (isHighSurrogate u && isLowSurrogate v) = false

theorem Apart.tail {x : Item} {xs ys : List Item} (h : Apart (x :: xs) ys) : Apart xs ys := by
  intro z hz
  refine h z ?_
  cases xs with
  | nil => cases hz
  | cons x' xs => rwa [List.getLast?_cons_cons]

/-- What ends in no high surrogate pairs with nothing behind it. -/
theorem apart_of_not_high (xs : List Item) {a b c d : UInt8}
    (hex : [a, b, c, d].all isHexDigit = true) (h : isHighSurrogate (Item.unit a b c d) = false)
    (ys : List Item) : Apart (xs ++ [.unicode a b c d hex]) ys := by
  intro x hx y _ u hu v _
  rw [List.getLast?_concat] at hx
  cases hx
  cases hu
  rw [h, Bool.false_and]

/-- A unicode escape that is not the first half of a pair stands for itself. -/
theorem decode_alone {a b c d : UInt8} (hex : [a, b, c, d].all isHexDigit = true)
    {items : List Item} (h : Apart [.unicode a b c d hex] items) :
    decode (.unicode a b c d hex :: items) = utf8 (Item.unit a b c d) ++ decode items := by
  cases items with
  | nil => rfl
  | cons item items =>
    cases item with
    | raw _ _ => rfl
    | short _ => rfl
    | unicode a' b' c' d' hex' =>
      have hpair := h _ rfl _ rfl _ rfl _ rfl
      rw [decode, hpair, if_neg Bool.false_ne_true]

/-- Parts with no pair across them are decoded one after the other. -/
theorem decode_append {xs ys : List Item} (h : Apart xs ys) :
    decode (xs ++ ys) = decode xs ++ decode ys := by
  induction xs using decode.induct with
  | case1 => rfl
  | case2 b hb rest ih => simp [decode, ih h.tail]
  | case3 e rest ih => simp [decode, ih h.tail]
  | case4 a b c d hex a' b' c' d' hex' rest hpair ih =>
    rw [List.cons_append, List.cons_append, decode, if_pos hpair, decode, if_pos hpair,
      ih h.tail.tail, List.append_assoc]
  | case5 a b c d hex a' b' c' d' hex' rest hpair ih =>
    rw [List.cons_append, List.cons_append, decode, if_neg hpair, decode, if_neg hpair,
      ← List.cons_append, ih h.tail, List.append_assoc]
  | case6 a b c d hex rest hlast ih =>
    cases rest with
    | nil =>
      have hnil : decode [.unicode a b c d hex] = utf8 (Item.unit a b c d) := List.append_nil _
      rw [List.singleton_append, decode_alone hex h, hnil]
    | cons item rest =>
      have hapart (zs : List Item) : Apart [.unicode a b c d hex] (item :: zs) := by
        intro x _ y hy u _ v hv
        cases hy
        cases item with
        | raw _ _ => cases hv
        | short _ => cases hv
        | unicode a' b' c' d' hex' => exact absurd rfl (hlast a' b' c' d' hex' rest)
      rw [List.cons_append, List.cons_append, decode_alone hex (hapart _),
        decode_alone hex (hapart _), ← List.cons_append, ih h.tail, List.append_assoc]

/-- A surrogate escape that forms no pair is replaced; what stands around it is not touched. -/
theorem decode_unpaired {a b c d : UInt8} (hex : [a, b, c, d].all isHexDigit = true)
    {before after : List Item}
    (hsurrogate :
      (isHighSurrogate (Item.unit a b c d) || isLowSurrogate (Item.unit a b c d)) = true)
    (hbefore : Apart before [.unicode a b c d hex]) (hafter : Apart [.unicode a b c d hex] after) :
    decode (before ++ .unicode a b c d hex :: after) =
      decode before ++ (Utf8.encode [Char.ofNat 0xFFFD] ++ decode after) := by
  have hreplaced : utf8 (Item.unit a b c d) = Utf8.encode [Char.ofNat 0xFFFD] := by
    rw [utf8, hsurrogate, if_pos rfl]
    rfl
  have hsplit : Apart before (.unicode a b c d hex :: after) := fun x hx y hy => hbefore x hx y hy
  rw [decode_append hsplit, decode_alone hex hafter, hreplaced]

/-! ## Text written as escapes -/

/-- The UTF-16 units of a scalar value. -/
def charUnits (c : Char) : List Nat :=
  if c.toNat < 0x10000 then [c.toNat]
  else [0xD800 + (c.toNat - 0x10000) / 0x400, 0xDC00 + (c.toNat - 0x10000) % 0x400]

/-- The items are escapes of these units, in hexadecimal digits of either case. -/
def EscapesOf (items : List Item) (units : List Nat) : Prop :=
  items.map Item.escapeUnit = units.map some

instance (items : List Item) (units : List Nat) : Decidable (EscapesOf items units) :=
  inferInstanceAs (Decidable (_ = _))

theorem escapeUnit_eq_some {item : Item} {u : Nat} (h : item.escapeUnit = some u) :
    ∃ a b c d hex, item = .unicode a b c d hex ∧ Item.unit a b c d = u := by
  cases item with
  | raw _ _ => cases h
  | short _ => cases h
  | unicode a b c d hex => exact ⟨a, b, c, d, hex, rfl, Option.some.inj h⟩

theorem toNat_not_surrogate (c : Char) :
    (isHighSurrogate c.toNat || isLowSurrogate c.toNat) = false := by
  have hvalid : c.toNat.isValidChar := c.valid
  simp only [isHighSurrogate, isLowSurrogate, Bool.or_eq_false_iff, Bool.and_eq_false_iff,
    decide_eq_false_iff_not]
  rw [Nat.isValidChar] at hvalid
  omega

theorem utf8_toNat (c : Char) : utf8 c.toNat = String.utf8EncodeChar c := by
  rw [utf8, toNat_not_surrogate c, if_neg Bool.false_ne_true, Char.ofNat_toNat]

/-- The units of a pair combine to its code point. -/
theorem combine_units (m : Nat) :
    combine (0xD800 + m / 0x400) (0xDC00 + m % 0x400) = 0x10000 + m := by
  have hsplit := Nat.div_add_mod' m 0x400
  generalize m / 0x400 = q at *
  generalize m % 0x400 = r at *
  unfold combine
  omega

/-- The escapes of one character denote it and pair with nothing behind them. -/
theorem decode_charUnits {c : Char} {items : List Item} (h : EscapesOf items (charUnits c)) :
    decode items = String.utf8EncodeChar c ∧ ∀ rest, Apart items rest := by
  unfold EscapesOf charUnits at h
  split at h
  · obtain ⟨item, rfl, hitem⟩ := List.map_eq_singleton_iff.mp h
    obtain ⟨a, b, d, e, hex, rfl, hunit⟩ := escapeUnit_eq_some hitem
    refine ⟨?_, ?_⟩
    · rw [← utf8_toNat, ← hunit]
      exact List.append_nil _
    · refine apart_of_not_high [] hex ?_
      rw [hunit, (Bool.or_eq_false_iff.mp (toNat_not_surrogate c)).1]
  · rename_i hlarge
    have hlt : c.toNat < 0x110000 := by
      have hvalid : c.toNat.isValidChar := c.valid
      rw [Nat.isValidChar] at hvalid
      omega
    obtain ⟨high, items, rfl, hhigh, hitems⟩ := List.map_eq_cons_iff.mp h
    obtain ⟨low, rfl, hlow⟩ := List.map_eq_singleton_iff.mp hitems
    obtain ⟨a, b, d, e, hex, rfl, hunit⟩ := escapeUnit_eq_some hhigh
    obtain ⟨a', b', d', e', hex', rfl, hunit'⟩ := escapeUnit_eq_some hlow
    have hfirst : isHighSurrogate (Item.unit a b d e) = true := by
      rw [hunit]
      simp only [isHighSurrogate, Bool.and_eq_true, decide_eq_true_eq]
      omega
    have hsecond : isLowSurrogate (Item.unit a' b' d' e') = true := by
      rw [hunit']
      simp only [isLowSurrogate, Bool.and_eq_true, decide_eq_true_eq]
      omega
    have hcombine : combine (Item.unit a b d e) (Item.unit a' b' d' e') = c.toNat := by
      rw [hunit, hunit', combine_units]
      omega
    refine ⟨?_, ?_⟩
    · rw [decode, hfirst, hsecond, Bool.and_self, if_pos rfl, hcombine, utf8_toNat]
      exact List.append_nil _
    · refine apart_of_not_high [.unicode a b d e hex] hex' ?_
      rw [hunit']
      simp only [isHighSurrogate, Bool.and_eq_false_iff, decide_eq_false_iff_not]
      omega

/-- Text written as escapes denotes itself. -/
theorem decode_escapesOf {cs : List Char} {items : List Item}
    (h : EscapesOf items (cs.flatMap charUnits)) : decode items = Utf8.encode cs := by
  induction cs generalizing items with
  | nil =>
    obtain rfl := List.map_eq_nil_iff.mp h
    rfl
  | cons c cs ih =>
    rw [EscapesOf, List.flatMap_cons, List.map_append] at h
    obtain ⟨first, rest, rfl, hfirst, hrest⟩ := List.map_eq_append_iff.mp h
    obtain ⟨hdecode, hapart⟩ := decode_charUnits hfirst
    rw [decode_append (hapart rest), hdecode, ih hrest, Utf8.encode_cons]

end OppexSdk.Lib.Json
