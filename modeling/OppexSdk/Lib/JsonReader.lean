import OppexSdk.Lib.FromChars

/-! # Reading JSON by the book

What the readers of standard libraries have in common: the numbers of RFC 8259 as a decidable
form, the integers among them, how deep containers are nested, and which member of an object counts
when a name comes more than once. -/
namespace OppexSdk.Lib.Json
open OppexSdk.Lib.FromChars

/-! ## Numbers -/

/-- A digit before the point, no zero before another digit, and a digit after the point. -/
def strictForm (lit : Bytes) : Bool :=
  let body := (scanMinus lit).2
  let rest := body.dropWhile isDigit
  (match body.takeWhile isDigit with
    | [] => false
    | [_] => true
    | d :: _ :: _ => d != 0x30) &&
  (match rest with
    | 0x2E :: ds => !(ds.takeWhile isDigit).isEmpty
    | _ => true)

theorem Split.scanMinus {lit minus whole frac exp : Bytes} (h : Split lit minus whole frac exp) :
    (FromChars.scanMinus lit).2 = whole ++ (frac ++ exp) := by
  rw [h.eq]
  rcases h.minus with rfl | rfl
  · rw [List.nil_append]
    cases hbody : whole ++ (frac ++ exp) with
    | nil => rfl
    | cons b s =>
      have hne : b ≠ 0x2D := by
        rintro rfl
        exact body_ne_minus h.whole h.frac h.exp s hbody
      simp [FromChars.scanMinus, hne]
  · rfl

/-- The fraction is a lone point when a point is not followed by a digit. -/
theorem lonePoint_iff {frac e : Bytes} (hfrac : frac = [] ∨ ∃ ds, frac = 0x2E :: ds ∧ Digits ds)
    (hexp : Exponent e) :
    frac = [0x2E] ↔ (match frac ++ e with
      | 0x2E :: ds => !(ds.takeWhile isDigit).isEmpty
      | _ => true) = false := by
  rcases hfrac with rfl | ⟨ds, rfl, hds⟩
  · refine iff_of_false (by simp) ?_
    rcases hexp with rfl | ⟨b, sign, ds, rfl, rfl | rfl, -⟩ <;> simp
  · rw [List.cons_append]
    show _ ↔ (!((ds ++ e).takeWhile isDigit).isEmpty) = false
    rw [takeWhile_run hds (Exponent.head_not_digit hexp)]
    cases ds <;> simp

theorem looseNumber_iff {lit : Bytes} (h : StrtodNumber lit) :
    LooseNumber lit ↔ strictForm lit = false := by
  obtain ⟨m, whole, frac, e, hsplit, -⟩ := h
  have hstop := fraction_head_not_digit hsplit.frac hsplit.exp
  have hloose : LooseNumber lit ↔
      whole = [] ∨ (∃ d ds, whole = 0x30 :: d :: ds) ∨ frac = [0x2E] := by
    refine ⟨?_, fun hor => ⟨m, whole, frac, e, hsplit, hor⟩⟩
    intro hex
    obtain ⟨m', whole', frac', e', hsplit', hor⟩ := hex
    obtain ⟨rfl, rfl⟩ := hsplit.unique hsplit'
    exact hor
  rw [hloose, lonePoint_iff hsplit.frac hsplit.exp, strictForm, Split.scanMinus hsplit,
    takeWhile_run hsplit.whole hstop, dropWhile_run hsplit.whole hstop, Bool.and_eq_false_iff,
    ← or_assoc]
  refine or_congr_left ?_
  cases whole with
  | nil => simp
  | cons d ds => cases ds <;> simp

instance : DecidablePred JsonNumber := fun lit =>
  decidable_of_iff (StrtodNumber lit ∧ strictForm lit = true) (by
    constructor
    · intro hboth
      obtain ⟨hs, hstrict⟩ := hboth
      rw [jsonNumber_iff_not_loose hs, looseNumber_iff hs, hstrict]
      exact Bool.noConfusion
    · intro hj
      have hs := JsonNumber.strtod hj
      refine ⟨hs, ?_⟩
      rw [jsonNumber_iff_not_loose hs, looseNumber_iff hs] at hj
      simpa using hj)

theorem jsonNumber_numberBytes : NumberBytes JsonNumber :=
  fun lit h => strtodNumber_numberBytes lit (JsonNumber.strtod h)

/-- The value of a literal without a fraction and an exponent. -/
def integerValue (lit : Bytes) : Option Int :=
  let (negative, ds) := scanMinus lit
  if ds ≠ [] ∧ ds.all isDigit then
    some (if negative then -(digitsValue ds : Int) else digitsValue ds)
  else none

/-! ## Nesting -/

mutual

/-- How many containers lie within one another. -/
def Tree.nesting : Tree → Nat
  | .arr ts => elemsNesting ts + 1
  | .obj ms => membersNesting ms + 1
  | _ => 0

def elemsNesting : List Tree → Nat
  | [] => 0
  | t :: ts => max t.nesting (elemsNesting ts)

def membersNesting : List (List Item × Tree) → Nat
  | [] => 0
  | (_, t) :: ms => max t.nesting (membersNesting ms)

end

mutual

theorem Tree.height_le_nesting : (t : Tree) → t.height ≤ t.nesting
  | .null | .bool _ | .num _ | .str _ => Nat.le_refl 0
  | .arr ts => elemsHeight_le ts
  | .obj ms => membersHeight_le ms

theorem elemsHeight_le : (ts : List Tree) → elemsHeight ts ≤ elemsNesting ts + 1
  | [] => Nat.zero_le _
  | t :: ts => by
    have ht := t.height_le_nesting
    have hts := elemsHeight_le ts
    simp only [elemsHeight, elemsNesting]
    omega

theorem membersHeight_le : (ms : List (List Item × Tree)) →
    membersHeight ms ≤ membersNesting ms + 1
  | [] => Nat.zero_le _
  | (_, t) :: ms => by
    have ht := t.height_le_nesting
    have hms := membersHeight_le ms
    simp only [membersHeight, membersNesting]
    omega

end

/-- The height of what a nonterminal derives. -/
def Node.height : Node → Nat
  | .value t => t.height
  | .elems ts => elemsHeight ts
  | .members ms => membersHeight ms

/-- The text of a value has a byte for each level. -/
def Node.levels : Node → Nat
  | .value t => t.height + 1
  | node => node.height

theorem Derives.levels_le {N : Bytes → Prop} (hN : ∀ lit, N lit → lit ≠ []) {node : Node}
    {s : Bytes} (h : Derives N node s) : node.levels ≤ s.length := by
  induction h with
  | nullLit | trueLit | falseLit => decide
  | num hn => exact List.length_pos_iff.mpr (hN _ hn)
  | str items => simp [Node.levels, Tree.height, stringText]
  | arrEmpty _ => simp [Node.levels, Tree.height, elemsHeight]
  | arr _ ih =>
    simp only [Node.levels, Node.height, Tree.height, List.length_append, List.length_cons] at ih ⊢
    omega
  | objEmpty _ => simp [Node.levels, Tree.height, membersHeight]
  | obj _ ih =>
    simp only [Node.levels, Node.height, Tree.height, List.length_append, List.length_cons] at ih ⊢
    omega
  | elemsOne _ _ _ ih =>
    simp only [Node.levels, Node.height, elemsHeight, List.length_append] at ih ⊢
    omega
  | elemsCons _ _ _ _ iht ihr =>
    simp only [Node.levels, Node.height, elemsHeight, List.length_append,
      List.length_cons] at iht ihr ⊢
    omega
  | membersOne _ _ _ _ _ ih =>
    simp only [Node.levels, Node.height, membersHeight, List.length_append,
      List.length_cons] at ih ⊢
    omega
  | membersCons _ _ _ _ _ _ iht ihr =>
    simp only [Node.levels, Node.height, membersHeight, List.length_append,
      List.length_cons] at iht ihr ⊢
    omega

/-- With a level for each byte of the text, nothing is too high. -/
theorem parse_of_length {text : Bytes} {t : Tree} :
    parse JsonNumber (text.length + 1) text = some t ↔ Document JsonNumber t text := by
  rw [parse_eq_some jsonNumber_numberBytes, and_iff_left_iff_imp]
  intro hex
  obtain ⟨w, s, w', -, hs, -, rfl⟩ := hex
  have hle := hs.levels_le fun lit hlit => (jsonNumber_numberBytes lit hlit).1
  simp only [Node.levels, List.length_append] at hle ⊢
  omega

/-- A parser that bounds the nesting. -/
def parseNested (limit : Nat) (text : Bytes) : Option Tree :=
  (parse JsonNumber (limit + 1) text).bind fun t => if t.nesting ≤ limit then some t else none

theorem parseNested_eq_some {limit : Nat} {text : Bytes} {t : Tree} :
    parseNested limit text = some t ↔ Document JsonNumber t text ∧ t.nesting ≤ limit := by
  rw [parseNested, Option.bind_eq_some_iff]
  constructor
  · intro hex
    obtain ⟨t', hparse, hif⟩ := hex
    split at hif
    · rename_i hle
      cases hif
      exact ⟨((parse_eq_some jsonNumber_numberBytes).mp hparse).1, hle⟩
    · cases hif
  · intro hboth
    obtain ⟨hdoc, hle⟩ := hboth
    have hheight := t.height_le_nesting
    exact ⟨t, (parse_eq_some jsonNumber_numberBytes).mpr ⟨hdoc, by omega⟩, if_pos hle⟩

/-! ## Members that come more than once -/

/-- The value of the last member that the predicate names. -/
def lastMember (named : List Item → Bool) (ms : List (List Item × Tree)) : Option Tree :=
  (ms.reverse.find? fun m => named m.1).map Prod.snd

theorem lastMember_concat (named : List Item → Bool) (ms : List (List Item × Tree))
    (m : List Item × Tree) :
    lastMember named (ms ++ [m]) = if named m.1 then some m.2 else lastMember named ms := by
  unfold lastMember
  rw [List.reverse_append, List.reverse_singleton, List.singleton_append, List.find?_cons]
  split <;> simp_all

/-! ## Strings with surrogates -/

/-- One UTF-16 unit in UTF-8. For readers that keep unpaired surrogates, these are units like any
other. -/
def unitBytes (u : Nat) : Bytes :=
  if u < 0x80 then [UInt8.ofNat u]
  else if u < 0x800 then [UInt8.ofNat (0xC0 + u / 0x40), UInt8.ofNat (0x80 + u % 0x40)]
  else
    [UInt8.ofNat (0xE0 + u / 0x1000), UInt8.ofNat (0x80 + u / 0x40 % 0x40),
      UInt8.ofNat (0x80 + u % 0x40)]

/-! ## Objects with one member -/

/-- The bytes that stand for themselves, as items. -/
def rawItems (s : Bytes) : List Item :=
  s.filterMap fun b => if h : isUnescaped b = true then some (.raw b h) else none

/-- An object with one member and no white space. -/
def singleText (name value : Bytes) : Bytes :=
  0x7B :: (stringText (rawItems name) ++ 0x3A :: value) ++ [0x7D]

theorem document_single {N : Bytes → Prop} {t : Tree} {value : Bytes} (name : Bytes)
    (h : Derives N (.value t) value) :
    Document N (.obj [(rawItems name, t)]) (singleText name value) := by
  have hws : Ws [] := List.forall_mem_nil _
  refine ⟨[], _, [], hws, .obj (.membersOne hws hws hws h hws), hws, ?_⟩
  simp [singleText]

end OppexSdk.Lib.Json
