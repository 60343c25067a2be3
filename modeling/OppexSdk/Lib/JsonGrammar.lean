import OppexSdk.Lib.Bytes

/-! # The JSON grammar on bytes

RFC 8259 with the syntax trees of its texts. A tree keeps the literals of its numbers and the
items of its strings and forgets only white space. The grammar is taken over what counts as a
number, so that a parser with a wider idea of one can be compared with the RFC. The raw bytes
between two quotes are not required to be UTF-8. -/
namespace OppexSdk.Lib.Json

/-- `ws`: space, tab, line feed, carriage return. -/
def isWs (b : UInt8) : Bool := b == 0x20 || b == 0x09 || b == 0x0A || b == 0x0D

def Ws (w : Bytes) : Prop := ∀ b ∈ w, isWs b = true

def isDigit (b : UInt8) : Bool := 0x30 ≤ b && b ≤ 0x39

/-- The number a digit stands for. -/
def digitValue (b : UInt8) : Nat := b.toNat - 0x30

def isHexDigit (b : UInt8) : Bool :=
  isDigit b || (0x41 ≤ b && b ≤ 0x46) || (0x61 ≤ b && b ≤ 0x66)

/-- The number a hexadecimal digit of either case stands for. -/
def hexValue (b : UInt8) : Nat :=
  if isDigit b then digitValue b else if b ≤ 0x46 then b.toNat - 0x37 else b.toNat - 0x57

/-! ## Strings -/

/-- `%x20-21 / %x23-5B / %x5D-10FFFF`, byte by byte. -/
def isUnescaped (b : UInt8) : Bool := 0x20 ≤ b && b != 0x22 && b != 0x5C

/-- The two-character escapes, by the character they stand for. -/
inductive ShortEscape
  | quote | backslash | slash | backspace | formFeed | lineFeed | carriageReturn | tab
  deriving DecidableEq

namespace ShortEscape

def letter : ShortEscape → UInt8
  | quote => 0x22
  | backslash => 0x5C
  | slash => 0x2F
  | backspace => 0x62
  | formFeed => 0x66
  | lineFeed => 0x6E
  | carriageReturn => 0x72
  | tab => 0x74

def meaning : ShortEscape → UInt8
  | quote => 0x22
  | backslash => 0x5C
  | slash => 0x2F
  | backspace => 0x08
  | formFeed => 0x0C
  | lineFeed => 0x0A
  | carriageReturn => 0x0D
  | tab => 0x09

def ofLetter (b : UInt8) : Option ShortEscape :=
  if b = 0x22 then some quote else if b = 0x5C then some backslash
  else if b = 0x2F then some slash else if b = 0x62 then some backspace
  else if b = 0x66 then some formFeed else if b = 0x6E then some lineFeed
  else if b = 0x72 then some carriageReturn else if b = 0x74 then some tab else none

@[simp] theorem ofLetter_letter (e : ShortEscape) : ofLetter e.letter = some e := by
  cases e <;> decide

theorem letter_ne_u (e : ShortEscape) : e.letter ≠ 0x75 := by cases e <;> decide

theorem letter_of_ofLetter {b : UInt8} {e : ShortEscape} (h : ofLetter b = some e) :
    e.letter = b := by
  unfold ofLetter at h
  repeat' split at h
  all_goals first | (cases h; subst_vars; rfl) | cases h

end ShortEscape

/-- One item of a string body, as it is written. -/
inductive Item
  | raw (b : UInt8) (unescaped : isUnescaped b = true)
  | short (e : ShortEscape)
  | unicode (a b c d : UInt8) (hex : ([a, b, c, d].all isHexDigit) = true)
  deriving DecidableEq

namespace Item

def text : Item → Bytes
  | raw b _ => [b]
  | short e => [0x5C, e.letter]
  | unicode a b c d _ => [0x5C, 0x75, a, b, c, d]

/-- The UTF-16 unit of a `\uXXXX` escape. -/
def unit (a b c d : UInt8) : Nat :=
  ((hexValue a * 16 + hexValue b) * 16 + hexValue c) * 16 + hexValue d

end Item

def bodyText (items : List Item) : Bytes := items.flatMap Item.text

/-- A string literal: its items between quotes. -/
def stringText (items : List Item) : Bytes := 0x22 :: bodyText items ++ [0x22]

def isHighSurrogate (u : Nat) : Bool := 0xD800 ≤ u && u ≤ 0xDBFF

def isLowSurrogate (u : Nat) : Bool := 0xDC00 ≤ u && u ≤ 0xDFFF

/-- The code point of a surrogate pair. -/
def combine (high low : Nat) : Nat := 0x10000 + (high - 0xD800) * 0x400 + (low - 0xDC00)

/-- The UTF-8 bytes of a code point; a surrogate has none and yields those of U+FFFD. -/
def utf8 (codePoint : Nat) : Bytes :=
  if isHighSurrogate codePoint || isLowSurrogate codePoint then
    String.utf8EncodeChar (Char.ofNat 0xFFFD)
  else String.utf8EncodeChar (Char.ofNat codePoint)

/-- What a string literal denotes: raw bytes stand for themselves, a high surrogate escape right
before a low one forms a pair with it, and any other surrogate escape is replaced. -/
def decode : List Item → Bytes
  | [] => []
  | .raw b _ :: rest => b :: decode rest
  | .short e :: rest => e.meaning :: decode rest
  | .unicode a b c d _ :: .unicode a' b' c' d' h' :: rest =>
    if isHighSurrogate (Item.unit a b c d) && isLowSurrogate (Item.unit a' b' c' d') then
      utf8 (combine (Item.unit a b c d) (Item.unit a' b' c' d')) ++ decode rest
    else utf8 (Item.unit a b c d) ++ decode (.unicode a' b' c' d' h' :: rest)
  | .unicode a b c d _ :: rest => utf8 (Item.unit a b c d) ++ decode rest

/-! ## Numbers -/

/-- The bytes that occur in numbers. -/
def isNumberByte (b : UInt8) : Bool :=
  isDigit b || b == 0x2E || b == 0x65 || b == 0x45 || b == 0x2B || b == 0x2D

def Digits (ds : Bytes) : Prop := ∀ b ∈ ds, isDigit b = true

/-- `[ minus ]`. -/
def Minus (s : Bytes) : Prop := s = [] ∨ s = [0x2D]

/-- `exp = e [ minus / plus ] 1*DIGIT`, or nothing. -/
def Exponent (s : Bytes) : Prop :=
  s = [] ∨ ∃ e sign ds, s = e :: sign ++ ds ∧ (e = 0x65 ∨ e = 0x45) ∧
    (sign = [] ∨ sign = [0x2B] ∨ sign = [0x2D]) ∧ Digits ds ∧ ds ≠ []

/-- `number = [ minus ] int [ frac ] [ exp ]`. -/
def JsonNumber (lit : Bytes) : Prop :=
  ∃ minus int frac exp, lit = minus ++ int ++ frac ++ exp ∧ Minus minus ∧
    (int = [0x30] ∨ ∃ d ds, int = d :: ds ∧ isDigit d = true ∧ d ≠ 0x30 ∧ Digits ds) ∧
    (frac = [] ∨ ∃ ds, frac = 0x2E :: ds ∧ Digits ds ∧ ds ≠ []) ∧ Exponent exp

/-! ## Values -/

inductive Tree
  | null
  | bool (b : Bool)
  | num (literal : Bytes)
  | str (items : List Item)
  | arr (elems : List Tree)
  | obj (members : List (List Item × Tree))

/-- The nonterminals that derive a list: a value, the elements between two brackets, the members
between two braces. -/
inductive Node
  | value (t : Tree)
  | elems (ts : List Tree)
  | members (ms : List (List Item × Tree))

/-- What the grammar derives when `N` are the numbers. White space stands around every value and
every name. -/
inductive Derives (N : Bytes → Prop) : Node → Bytes → Prop
  | nullLit : Derives N (.value .null) (bytes "null")
  | trueLit : Derives N (.value (.bool true)) (bytes "true")
  | falseLit : Derives N (.value (.bool false)) (bytes "false")
  | num {lit} : N lit → Derives N (.value (.num lit)) lit
  | str (items) : Derives N (.value (.str items)) (stringText items)
  | arrEmpty {w} : Ws w → Derives N (.value (.arr [])) (0x5B :: w ++ [0x5D])
  | arr {ts s} : Derives N (.elems ts) s → Derives N (.value (.arr ts)) (0x5B :: s ++ [0x5D])
  | objEmpty {w} : Ws w → Derives N (.value (.obj [])) (0x7B :: w ++ [0x7D])
  | obj {ms s} : Derives N (.members ms) s →
      Derives N (.value (.obj ms)) (0x7B :: s ++ [0x7D])
  | elemsOne {w t s w'} : Ws w → Derives N (.value t) s → Ws w' →
      Derives N (.elems [t]) (w ++ (s ++ w'))
  | elemsCons {w t s w' ts r} : Ws w → Derives N (.value t) s → Ws w' → Derives N (.elems ts) r →
      Derives N (.elems (t :: ts)) (w ++ (s ++ (w' ++ 0x2C :: r)))
  | membersOne {w k w₁ w₂ t s w'} : Ws w → Ws w₁ → Ws w₂ → Derives N (.value t) s → Ws w' →
      Derives N (.members [(k, t)]) (w ++ (stringText k ++ (w₁ ++ 0x3A :: (w₂ ++ (s ++ w')))))
  | membersCons {w k w₁ w₂ t s w' ms r} : Ws w → Ws w₁ → Ws w₂ → Derives N (.value t) s →
      Ws w' → Derives N (.members ms) r →
      Derives N (.members ((k, t) :: ms))
        (w ++ (stringText k ++ (w₁ ++ 0x3A :: (w₂ ++ (s ++ (w' ++ 0x2C :: r))))))

/-- `JSON-text = ws value ws`. -/
def Document (N : Bytes → Prop) (t : Tree) (text : Bytes) : Prop :=
  ∃ w s w', Ws w ∧ Derives N (.value t) s ∧ Ws w' ∧ text = w ++ (s ++ w')

/-- The text is a JSON text. -/
def IsJsonText (text : Bytes) : Prop := ∃ t, Document JsonNumber t text

/-! ## Measures of a tree -/

mutual

/-- How many levels below the root the deepest value lies. -/
def Tree.height : Tree → Nat
  | .arr ts => elemsHeight ts
  | .obj ms => membersHeight ms
  | _ => 0

/-- The same from the container, whose values are one level down. -/
def elemsHeight : List Tree → Nat
  | [] => 0
  | t :: ts => max (t.height + 1) (elemsHeight ts)

def membersHeight : List (List Item × Tree) → Nat
  | [] => 0
  | (_, t) :: ms => max (t.height + 1) (membersHeight ms)

end

mutual

/-- Every number literal of the tree satisfies `p`. -/
def Tree.AllNumbers (p : Bytes → Prop) : Tree → Prop
  | .num lit => p lit
  | .arr ts => AllElems p ts
  | .obj ms => AllMembers p ms
  | _ => True

def AllElems (p : Bytes → Prop) : List Tree → Prop
  | [] => True
  | t :: ts => t.AllNumbers p ∧ AllElems p ts

def AllMembers (p : Bytes → Prop) : List (List Item × Tree) → Prop
  | [] => True
  | (_, t) :: ms => t.AllNumbers p ∧ AllMembers p ms

end

section
variable {p q : Bytes → Prop}

mutual

theorem Tree.AllNumbers.mono (h : ∀ lit, p lit → q lit) :
    {t : Tree} → t.AllNumbers p → t.AllNumbers q
  | .num lit, ht => h lit ht
  | .arr _, ht => AllElems.mono h ht
  | .obj _, ht => AllMembers.mono h ht
  | .null, _ => trivial
  | .bool _, _ => trivial
  | .str _, _ => trivial

theorem AllElems.mono (h : ∀ lit, p lit → q lit) : {ts : List Tree} → AllElems p ts → AllElems q ts
  | [], _ => trivial
  | _ :: _, ht => ⟨ht.1.mono h, AllElems.mono h ht.2⟩

theorem AllMembers.mono (h : ∀ lit, p lit → q lit) :
    {ms : List (List Item × Tree)} → AllMembers p ms → AllMembers q ms
  | [], _ => trivial
  | (_, _) :: _, hm => ⟨hm.1.mono h, AllMembers.mono h hm.2⟩

end

mutual

theorem Tree.AllNumbers.and :
    {t : Tree} → t.AllNumbers p → t.AllNumbers q → t.AllNumbers fun lit => p lit ∧ q lit
  | .num _, hp, hq => ⟨hp, hq⟩
  | .arr _, hp, hq => AllElems.and hp hq
  | .obj _, hp, hq => AllMembers.and hp hq
  | .null, _, _ => trivial
  | .bool _, _, _ => trivial
  | .str _, _, _ => trivial

theorem AllElems.and :
    {ts : List Tree} → AllElems p ts → AllElems q ts → AllElems (fun lit => p lit ∧ q lit) ts
  | [], _, _ => trivial
  | _ :: _, hp, hq => ⟨hp.1.and hq.1, AllElems.and hp.2 hq.2⟩

theorem AllMembers.and : {ms : List (List Item × Tree)} → AllMembers p ms → AllMembers q ms →
    AllMembers (fun lit => p lit ∧ q lit) ms
  | [], _, _ => trivial
  | (_, _) :: _, hp, hq => ⟨hp.1.and hq.1, AllMembers.and hp.2 hq.2⟩

end

end

/-- The same of what a nonterminal derives. -/
def Node.AllNumbers (p : Bytes → Prop) : Node → Prop
  | .value t => t.AllNumbers p
  | .elems ts => AllElems p ts
  | .members ms => AllMembers p ms

section
variable {N N' : Bytes → Prop} {node : Node} {s : Bytes}

theorem Derives.allNumbers (h : Derives N node s) : node.AllNumbers N := by
  induction h with
  | num hn => exact hn
  | arr _ ih => exact ih
  | obj _ ih => exact ih
  | elemsOne _ _ _ ih => exact ⟨ih, trivial⟩
  | elemsCons _ _ _ _ iht ihr => exact ⟨iht, ihr⟩
  | membersOne _ _ _ _ _ ih => exact ⟨ih, trivial⟩
  | membersCons _ _ _ _ _ _ iht ihr => exact ⟨iht, ihr⟩
  | _ => trivial

/-- A derivation depends on the idea of a number only through the numbers of its tree. -/
theorem Derives.of_allNumbers (h : Derives N node s) (hall : node.AllNumbers N') :
    Derives N' node s := by
  induction h with
  | nullLit => exact .nullLit
  | trueLit => exact .trueLit
  | falseLit => exact .falseLit
  | num _ => exact .num hall
  | str items => exact .str items
  | arrEmpty hw => exact .arrEmpty hw
  | arr _ ih => exact .arr (ih hall)
  | objEmpty hw => exact .objEmpty hw
  | obj _ ih => exact .obj (ih hall)
  | elemsOne hw _ hw' ih => exact .elemsOne hw (ih hall.1) hw'
  | elemsCons hw _ hw' _ iht ihr => exact .elemsCons hw (iht hall.1) hw' (ihr hall.2)
  | membersOne hw hw₁ hw₂ _ hw' ih => exact .membersOne hw hw₁ hw₂ (ih hall.1) hw'
  | membersCons hw hw₁ hw₂ _ hw' _ iht ihr =>
    exact .membersCons hw hw₁ hw₂ (iht hall.1) hw' (ihr hall.2)

/-- Member after member with a comma between any two and no white space. -/
theorem exists_members {α : Type} {R : List Item × Tree → α → Prop} {texts : List Bytes}
    {fields : List α}
    (h : List.Forall₂ (fun text f => ∃ k t s, Derives N (.value t) s ∧
      text = stringText k ++ 0x3A :: s ∧ R (k, t) f) texts fields)
    (hne : texts ≠ []) :
    ∃ ms, Derives N (.members ms) ([0x2C].intercalate texts) ∧ List.Forall₂ R ms fields := by
  have hws : Ws [] := List.forall_mem_nil _
  induction h with
  | nil => exact absurd rfl hne
  | cons hfirst hrest ih =>
    obtain ⟨k, t, s, hd, rfl, hr⟩ := hfirst
    cases hrest with
    | nil =>
      refine ⟨[(k, t)], ?_, .cons hr .nil⟩
      have hone := Derives.membersOne hws (k := k) hws hws hd hws
      simpa using hone
    | cons _ _ =>
      obtain ⟨ms, hms, hread⟩ := ih (List.cons_ne_nil _ _)
      refine ⟨(k, t) :: ms, ?_, .cons hr hread⟩
      have hcons := Derives.membersCons hws (k := k) hws hws hd hws hms
      simpa using hcons

variable {t : Tree} {text : Bytes}

theorem Document.allNumbers (h : Document N t text) : t.AllNumbers N := by
  obtain ⟨_, _, _, -, hs, -, -⟩ := h
  exact hs.allNumbers

theorem Document.of_allNumbers (h : Document N t text) (hall : t.AllNumbers N') :
    Document N' t text := by
  obtain ⟨w, s, w', hw, hs, hw', rfl⟩ := h
  exact ⟨w, s, w', hw, hs.of_allNumbers hall, hw', rfl⟩

theorem Document.mono (hN : ∀ lit, N lit → N' lit) (h : Document N t text) :
    Document N' t text :=
  h.of_allNumbers (h.allNumbers.mono hN)

end

end OppexSdk.Lib.Json
