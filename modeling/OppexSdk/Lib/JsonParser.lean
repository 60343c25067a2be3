import Mathlib.Data.List.DropRight
import OppexSdk.Lib.JsonGrammar

/-! # A reference parser for the grammar

It reads a text from the left, returns the tree and what is left of the text, and admits values up
to a number of levels. `parse_eq_some` says that it decides the grammar; with it a text has one
tree. A program's own parser is compared with this one and inherits both. -/
namespace OppexSdk.Lib.Json

def skipWs (s : Bytes) : Bytes := s.dropWhile isWs

/-- What follows the byte `b`, when the text starts with it. -/
def expect (b : UInt8) : Bytes → Option Bytes
  | [] => none
  | c :: s => if c = b then some s else none

def expectText (text s : Bytes) : Option Bytes :=
  if text.isPrefixOf s then some (s.drop text.length) else none

/-- The items of a string after its opening quote, and what follows the closing one. -/
def parseBody : Bytes → Option (List Item × Bytes)
  | [] => none
  | b :: s =>
    if b = 0x22 then some ([], s)
    else if b = 0x5C then
      match s with
      | [] => none
      | c :: s =>
        if c = 0x75 then
          match s with
          | h₁ :: h₂ :: h₃ :: h₄ :: s =>
            if hex : [h₁, h₂, h₃, h₄].all isHexDigit = true then
              (parseBody s).map fun r => (.unicode h₁ h₂ h₃ h₄ hex :: r.1, r.2)
            else none
          | _ => none
        else
          (ShortEscape.ofLetter c).bind fun e => (parseBody s).map fun r => (.short e :: r.1, r.2)
    else if h : isUnescaped b = true then (parseBody s).map fun r => (.raw b h :: r.1, r.2)
    else none

def parseString (s : Bytes) : Option (List Item × Bytes) := (expect 0x22 s).bind parseBody

section
variable (N : Bytes → Prop) [DecidablePred N]

/-- The number that starts the text: as many number bytes as there are. -/
def parseNumber (s : Bytes) : Option (Tree × Bytes) :=
  let lit := s.takeWhile isNumberByte
  if N lit then some (.num lit, s.dropWhile isNumberByte) else none

/-- Elements up to the closing bracket, with a parser for the values. -/
def parseElems (pv : Bytes → Option (Tree × Bytes)) : Nat → Bytes → Option (List Tree × Bytes)
  | 0, _ => none
  | fuel + 1, s => do
    let (t, s) ← pv (skipWs s)
    match expect 0x2C (skipWs s) with
    | some s => (parseElems pv fuel s).map fun r => (t :: r.1, r.2)
    | none => (expect 0x5D (skipWs s)).map fun s => ([t], s)

/-- Members up to the closing brace. -/
def parseMembers (pv : Bytes → Option (Tree × Bytes)) :
    Nat → Bytes → Option (List (List Item × Tree) × Bytes)
  | 0, _ => none
  | fuel + 1, s => do
    let (k, s) ← parseString (skipWs s)
    let s ← expect 0x3A (skipWs s)
    let (t, s) ← pv (skipWs s)
    match expect 0x2C (skipWs s) with
    | some s => (parseMembers pv fuel s).map fun r => ((k, t) :: r.1, r.2)
    | none => (expect 0x7D (skipWs s)).map fun s => ([(k, t)], s)

def parseArray (pv : Bytes → Option (Tree × Bytes)) (s : Bytes) : Option (Tree × Bytes) :=
  match expect 0x5D (skipWs s) with
  | some s => some (.arr [], s)
  | none => (parseElems pv (s.length + 1) (skipWs s)).map fun r => (.arr r.1, r.2)

def parseObject (pv : Bytes → Option (Tree × Bytes)) (s : Bytes) : Option (Tree × Bytes) :=
  match expect 0x7D (skipWs s) with
  | some s => some (.obj [], s)
  | none => (parseMembers pv (s.length + 1) (skipWs s)).map fun r => (.obj r.1, r.2)

/-- A value of fewer than `levels` levels below its root. -/
def parseValue : Nat → Bytes → Option (Tree × Bytes)
  | 0, _ => none
  | _ + 1, [] => none
  | levels + 1, b :: s =>
    if b = 0x7B then parseObject (parseValue levels) s
    else if b = 0x5B then parseArray (parseValue levels) s
    else if b = 0x22 then (parseBody s).map fun r => (.str r.1, r.2)
    else if b = 0x74 then (expectText (bytes "true") (b :: s)).map fun s => (.bool true, s)
    else if b = 0x66 then (expectText (bytes "false") (b :: s)).map fun s => (.bool false, s)
    else if b = 0x6E then (expectText (bytes "null") (b :: s)).map fun s => (.null, s)
    else parseNumber N (b :: s)

/-- A whole text. -/
def parse (levels : Nat) (s : Bytes) : Option Tree :=
  match parseValue N levels (skipWs s) with
  | some (t, s) => if skipWs s = [] then some t else none
  | none => none

end

/-! ## White space and single bytes -/

@[simp] theorem expect_cons (b c : UInt8) (s : Bytes) :
    expect b (c :: s) = if c = b then some s else none := rfl

theorem expect_eq_some {b : UInt8} {s rest : Bytes} :
    expect b s = some rest ↔ s = b :: rest := by
  cases s with
  | nil => simp [expect]
  | cons c s =>
    simp only [expect, List.cons.injEq]
    by_cases hc : c = b
    · simp [hc]
    · simp [hc]

theorem expectText_eq_some {text s rest : Bytes} :
    expectText text s = some rest ↔ s = text ++ rest := by
  unfold expectText
  split
  · rename_i h
    obtain ⟨r, rfl⟩ := List.isPrefixOf_iff_prefix.mp h
    simp
  · rename_i h
    refine ⟨fun he => (by cases he), ?_⟩
    intro he
    exact absurd (List.isPrefixOf_iff_prefix.mpr ⟨rest, he.symm⟩) h

theorem ws_takeWhile (s : Bytes) : Ws (s.takeWhile isWs) := fun _ hb => List.mem_takeWhile_imp hb

theorem takeWhile_append_skipWs (s : Bytes) : s.takeWhile isWs ++ skipWs s = s :=
  List.takeWhile_append_dropWhile

/-- A text that does not start with white space. -/
def NoWs (s : Bytes) : Prop := ∀ b ∈ s.head?, isWs b = false

theorem skipWs_append {w s : Bytes} (hw : Ws w) (hs : NoWs s) : skipWs (w ++ s) = s :=
  dropWhile_run hw hs

theorem noWs_cons {b : UInt8} (s : Bytes) (hb : isWs b = false) : NoWs (b :: s) := by
  intro c hc
  cases hc
  exact hb

/-! ## Strings -/

theorem parseBody_raw {b : UInt8} (h : isUnescaped b = true) (s : Bytes) :
    parseBody (b :: s) = (parseBody s).map fun r => (.raw b h :: r.1, r.2) := by
  have hb : b ≠ 0x22 ∧ b ≠ 0x5C := by
    simp only [isUnescaped, Bool.and_eq_true, bne_iff_ne] at h
    exact ⟨h.1.2, h.2⟩
  rw [parseBody.eq_def]
  simp [hb.1, hb.2, h]

theorem parseBody_unicode {a b c d : UInt8} (h : [a, b, c, d].all isHexDigit = true) (s : Bytes) :
    parseBody (0x5C :: 0x75 :: a :: b :: c :: d :: s) =
      (parseBody s).map fun r => (.unicode a b c d h :: r.1, r.2) := by
  rw [parseBody.eq_def]
  simp [h]

theorem parseBody_complete (items : List Item) (rest : Bytes) :
    parseBody (bodyText items ++ 0x22 :: rest) = some (items, rest) := by
  induction items with
  | nil =>
    rw [bodyText, List.flatMap_nil, List.nil_append, parseBody.eq_def]
    rfl
  | cons item items ih =>
    have hcons : bodyText (item :: items) ++ 0x22 :: rest =
        item.text ++ (bodyText items ++ 0x22 :: rest) := by simp [bodyText]
    rw [hcons]
    cases item with
    | raw b h =>
      rw [Item.text, List.singleton_append, parseBody_raw h, ih]
      rfl
    | short e =>
      rw [Item.text, List.cons_append, List.singleton_append, parseBody.eq_def]
      simp [e.letter_ne_u, ih]
    | unicode a b c d h =>
      simp only [Item.text, List.cons_append, List.nil_append]
      rw [parseBody_unicode h, ih]
      rfl

theorem parseBody_sound {s rest : Bytes} {items : List Item}
    (h : parseBody s = some (items, rest)) : s = bodyText items ++ 0x22 :: rest := by
  fun_induction parseBody s generalizing items with
  | case1 => cases h
  | case2 s => cases h; rfl
  | case3 => cases h
  | case4 h₁ h₂ h₃ h₄ s hex _ ih =>
    obtain ⟨⟨items', rest'⟩, hs, he⟩ := Option.map_eq_some_iff.mp h
    cases he
    simp [bodyText, Item.text, ih hs]
  | case5 => cases h
  | case6 => cases h
  | case7 c s hc _ ih =>
    obtain ⟨e, he, h⟩ := Option.bind_eq_some_iff.mp h
    obtain ⟨⟨items', rest'⟩, hs, hr⟩ := Option.map_eq_some_iff.mp h
    cases hr
    simp [bodyText, Item.text, ShortEscape.letter_of_ofLetter he, ih hs]
  | case8 b s _ _ hb ih =>
    obtain ⟨⟨items', rest'⟩, hs, hr⟩ := Option.map_eq_some_iff.mp h
    cases hr
    simp [bodyText, Item.text, ih hs]
  | case9 => cases h

theorem parseString_eq_some {s rest : Bytes} {items : List Item} :
    parseString s = some (items, rest) ↔ s = stringText items ++ rest := by
  unfold parseString stringText
  constructor
  · intro h
    obtain ⟨s', he, hs⟩ := Option.bind_eq_some_iff.mp h
    rw [expect_eq_some.mp he, parseBody_sound hs]
    simp
  · rintro rfl
    have he : expect 0x22 (0x22 :: bodyText items ++ [0x22] ++ rest) =
        some (bodyText items ++ 0x22 :: rest) := by simp [expect]
    rw [he]
    exact parseBody_complete items rest

/-! ## Soundness -/

section
variable {N : Bytes → Prop}

/-- What it means for a parser of values to be sound, below a number of levels. -/
def SoundBelow (N : Bytes → Prop) (levels : Nat) (pv : Bytes → Option (Tree × Bytes)) : Prop :=
  ∀ s t rest, pv s = some (t, rest) →
    ∃ seg, s = seg ++ rest ∧ Derives N (.value t) seg ∧ t.height < levels

theorem exists_ws (s : Bytes) : ∃ w, Ws w ∧ s = w ++ skipWs s :=
  ⟨s.takeWhile isWs, ws_takeWhile s, (takeWhile_append_skipWs s).symm⟩

/-- Between white space, a sound parser reads one value. -/
theorem SoundBelow.spaced {levels : Nat} {pv : Bytes → Option (Tree × Bytes)}
    (hpv : SoundBelow N levels pv) {s rest : Bytes} {t : Tree}
    (h : pv (skipWs s) = some (t, rest)) :
    ∃ w seg w', Ws w ∧ Derives N (.value t) seg ∧ Ws w' ∧ t.height < levels ∧
      s = w ++ (seg ++ (w' ++ skipWs rest)) := by
  obtain ⟨w, hw, hs⟩ := exists_ws s
  obtain ⟨seg, hseg, hd, hlt⟩ := hpv _ _ _ h
  obtain ⟨w', hw', hrest⟩ := exists_ws rest
  exact ⟨w, seg, w', hw, hd, hw', hlt, by rw [← hrest, ← hseg, ← hs]⟩

theorem Ws.append {w w' : Bytes} (hw : Ws w) (hw' : Ws w') : Ws (w ++ w') :=
  fun b hb => (List.mem_append.mp hb).elim (hw b) (hw' b)

/-- The nodes that may be preceded by white space. -/
def Node.Spaced : Node → Prop
  | .value _ => False
  | _ => True

theorem Derives.after_ws {node : Node} {w s : Bytes} (h : Derives N node s) (hw : Ws w)
    (hn : node.Spaced := by exact trivial) : Derives N node (w ++ s) := by
  cases h with
  | elemsOne hw₀ hv hw' =>
    rw [← List.append_assoc]
    exact .elemsOne (hw.append hw₀) hv hw'
  | elemsCons hw₀ hv hw' hts =>
    rw [← List.append_assoc]
    exact .elemsCons (hw.append hw₀) hv hw' hts
  | membersOne hw₀ hw₁ hw₂ hv hw' =>
    rw [← List.append_assoc]
    exact .membersOne (hw.append hw₀) hw₁ hw₂ hv hw'
  | membersCons hw₀ hw₁ hw₂ hv hw' hms =>
    rw [← List.append_assoc]
    exact .membersCons (hw.append hw₀) hw₁ hw₂ hv hw' hms
  | _ => cases hn

theorem parseElems_sound {levels : Nat} {pv : Bytes → Option (Tree × Bytes)}
    (hpv : SoundBelow N levels pv) {fuel : Nat} {s rest : Bytes} {ts : List Tree}
    (h : parseElems pv fuel s = some (ts, rest)) :
    ∃ seg, s = seg ++ 0x5D :: rest ∧ Derives N (.elems ts) seg ∧ elemsHeight ts ≤ levels := by
  induction fuel generalizing s ts with
  | zero => cases h
  | succ fuel ih =>
    obtain ⟨⟨t, s₁⟩, hv, h⟩ := Option.bind_eq_some_iff.mp h
    obtain ⟨w, seg, w', hw, hd, hw', hlt, hs⟩ := hpv.spaced hv
    dsimp only at h
    split at h
    · rename_i s₂ hcomma
      obtain ⟨⟨ts', rest'⟩, hr, he⟩ := Option.map_eq_some_iff.mp h
      cases he
      obtain ⟨seg', hs', hd', hle⟩ := ih hr
      refine ⟨_, ?_, .elemsCons hw hd hw' hd', max_le hlt hle⟩
      rw [hs, expect_eq_some.mp hcomma, hs']
      simp
    · obtain ⟨s₂, hclose, he⟩ := Option.map_eq_some_iff.mp h
      cases he
      refine ⟨_, ?_, .elemsOne hw hd hw', max_le hlt (Nat.zero_le _)⟩
      rw [hs, expect_eq_some.mp hclose]
      simp

theorem parseMembers_sound {levels : Nat} {pv : Bytes → Option (Tree × Bytes)}
    (hpv : SoundBelow N levels pv) {fuel : Nat} {s rest : Bytes}
    {ms : List (List Item × Tree)} (h : parseMembers pv fuel s = some (ms, rest)) :
    ∃ seg, s = seg ++ 0x7D :: rest ∧ Derives N (.members ms) seg ∧ membersHeight ms ≤ levels := by
  induction fuel generalizing s ms with
  | zero => cases h
  | succ fuel ih =>
    obtain ⟨⟨k, s₁⟩, hk, h⟩ := Option.bind_eq_some_iff.mp h
    obtain ⟨s₂, hcolon, h⟩ := Option.bind_eq_some_iff.mp h
    obtain ⟨⟨t, s₃⟩, hv, h⟩ := Option.bind_eq_some_iff.mp h
    obtain ⟨w₀, hw₀, hs₀⟩ := exists_ws s
    obtain ⟨w₁, hw₁, hs₁⟩ := exists_ws s₁
    obtain ⟨w, seg, w', hw, hd, hw', hlt, hs⟩ := hpv.spaced hv
    rw [parseString_eq_some.mp hk, hs₁, expect_eq_some.mp hcolon, hs] at hs₀
    dsimp only at h
    split at h
    · rename_i s₄ hcomma
      obtain ⟨⟨ms', rest'⟩, hr, he⟩ := Option.map_eq_some_iff.mp h
      cases he
      obtain ⟨seg', hs', hd', hle⟩ := ih hr
      refine ⟨_, ?_, .membersCons hw₀ hw₁ hw hd hw' hd', max_le hlt hle⟩
      rw [hs₀, expect_eq_some.mp hcomma, hs']
      simp
    · obtain ⟨s₄, hclose, he⟩ := Option.map_eq_some_iff.mp h
      cases he
      refine ⟨_, ?_, .membersOne hw₀ hw₁ hw hd hw', max_le hlt (Nat.zero_le _)⟩
      rw [hs₀, expect_eq_some.mp hclose]
      simp

theorem parseArray_sound {levels : Nat} {pv : Bytes → Option (Tree × Bytes)}
    (hpv : SoundBelow N levels pv) {s rest : Bytes} {t : Tree}
    (h : parseArray pv s = some (t, rest)) :
    ∃ seg, 0x5B :: s = seg ++ rest ∧ Derives N (.value t) seg ∧ t.height < levels + 1 := by
  obtain ⟨w, hw, hs⟩ := exists_ws s
  unfold parseArray at h
  split at h
  · rename_i s₁ hclose
    cases h
    refine ⟨_, ?_, .arrEmpty hw, Nat.succ_pos _⟩
    rw [hs, expect_eq_some.mp hclose]
    simp
  · obtain ⟨⟨ts, rest'⟩, hr, he⟩ := Option.map_eq_some_iff.mp h
    cases he
    obtain ⟨seg, hseg, hd, hle⟩ := parseElems_sound hpv hr
    rw [hseg] at hs
    refine ⟨_, ?_, .arr (hd.after_ws hw), Nat.lt_succ_of_le hle⟩
    rw [hs]
    simp

theorem parseObject_sound {levels : Nat} {pv : Bytes → Option (Tree × Bytes)}
    (hpv : SoundBelow N levels pv) {s rest : Bytes} {t : Tree}
    (h : parseObject pv s = some (t, rest)) :
    ∃ seg, 0x7B :: s = seg ++ rest ∧ Derives N (.value t) seg ∧ t.height < levels + 1 := by
  obtain ⟨w, hw, hs⟩ := exists_ws s
  unfold parseObject at h
  split at h
  · rename_i s₁ hclose
    cases h
    refine ⟨_, ?_, .objEmpty hw, Nat.succ_pos _⟩
    rw [hs, expect_eq_some.mp hclose]
    simp
  · obtain ⟨⟨ms, rest'⟩, hr, he⟩ := Option.map_eq_some_iff.mp h
    cases he
    obtain ⟨seg, hseg, hd, hle⟩ := parseMembers_sound hpv hr
    rw [hseg] at hs
    refine ⟨_, ?_, .obj (hd.after_ws hw), Nat.lt_succ_of_le hle⟩
    rw [hs]
    simp

/-- A literal name is one value. -/
theorem expectText_sound {text s rest : Bytes} {t t' : Tree}
    (hd : Derives N (.value t) text) (ht : t.height = 0)
    (h : (expectText text s).map (fun s => (t, s)) = some (t', rest)) (levels : Nat) :
    ∃ seg, s = seg ++ rest ∧ Derives N (.value t') seg ∧ t'.height < levels + 1 := by
  obtain ⟨s₁, hs, he⟩ := Option.map_eq_some_iff.mp h
  cases he
  exact ⟨text, expectText_eq_some.mp hs, hd, by rw [ht]; exact Nat.succ_pos _⟩

variable [DecidablePred N]

theorem parseValue_sound (levels : Nat) : SoundBelow N levels (parseValue N levels) := by
  induction levels with
  | zero => intro s t rest h; cases h
  | succ levels ih =>
    intro s t rest h
    cases s with
    | nil => cases h
    | cons b s =>
      unfold parseValue at h
      split at h
      · rename_i hb; subst hb; exact parseObject_sound ih h
      split at h
      · rename_i hb; subst hb; exact parseArray_sound ih h
      split at h
      · rename_i hb
        subst hb
        obtain ⟨⟨items, rest'⟩, hr, he⟩ := Option.map_eq_some_iff.mp h
        cases he
        exact ⟨stringText items, by simp [stringText, parseBody_sound hr], .str items,
          Nat.succ_pos _⟩
      split at h
      · exact expectText_sound .trueLit rfl h levels
      split at h
      · exact expectText_sound .falseLit rfl h levels
      split at h
      · exact expectText_sound .nullLit rfl h levels
      · unfold parseNumber at h
        dsimp only at h
        split at h
        · rename_i hN
          cases h
          exact ⟨_, List.takeWhile_append_dropWhile.symm, .num hN, Nat.succ_pos _⟩
        · cases h

end

/-! ## Completeness -/

/-- The numbers are nonempty and made of number bytes. -/
def NumberBytes (N : Bytes → Prop) : Prop :=
  ∀ lit, N lit → lit ≠ [] ∧ ∀ b ∈ lit, isNumberByte b = true

/-- A text that cannot prolong a number. -/
def Follow (s : Bytes) : Prop := ∀ b ∈ s.head?, isNumberByte b = false

theorem follow_cons {b : UInt8} (s : Bytes) (hb : isNumberByte b = false) : Follow (b :: s) := by
  intro c hc
  cases hc
  exact hb

theorem ws_cases {b : UInt8} (h : isWs b = true) :
    b = 0x20 ∨ b = 0x09 ∨ b = 0x0A ∨ b = 0x0D := by
  simpa [isWs, or_assoc] using h

theorem follow_ws {w s : Bytes} (hw : Ws w) (hs : Follow s) : Follow (w ++ s) := by
  cases w with
  | nil => exact hs
  | cons b w =>
    apply follow_cons
    rcases ws_cases (hw b List.mem_cons_self) with rfl | rfl | rfl | rfl <;> rfl

/-- The bytes that start a value. -/
def startsValue (b : UInt8) : Bool :=
  isNumberByte b || b == 0x7B || b == 0x5B || b == 0x22 || b == 0x74 || b == 0x66 || b == 0x6E

theorem startsValue_not_ws {b : UInt8} (h : startsValue b = true) : isWs b = false := by
  by_contra hws
  rw [Bool.not_eq_false] at hws
  rcases ws_cases hws with rfl | rfl | rfl | rfl <;> cases h

section
variable {N : Bytes → Prop} [DecidablePred N]

omit [DecidablePred N] in
theorem Derives.starts (hN : NumberBytes N) {t : Tree} {s : Bytes} (h : Derives N (.value t) s) :
    ∃ b s', s = b :: s' ∧ startsValue b = true := by
  cases h with
  | num hn =>
    obtain ⟨hne, hb⟩ := hN _ hn
    obtain ⟨b, s', rfl⟩ := List.exists_cons_of_ne_nil hne
    exact ⟨b, s', rfl, by simp [startsValue, hb b List.mem_cons_self]⟩
  | nullLit => exact ⟨0x6E, _, rfl, by decide⟩
  | trueLit => exact ⟨0x74, _, rfl, by decide⟩
  | falseLit => exact ⟨0x66, _, rfl, by decide⟩
  | str items => exact ⟨0x22, _, rfl, by decide⟩
  | arrEmpty hw => exact ⟨0x5B, _, rfl, by decide⟩
  | arr hd => exact ⟨0x5B, _, rfl, by decide⟩
  | objEmpty hw => exact ⟨0x7B, _, rfl, by decide⟩
  | obj hd => exact ⟨0x7B, _, rfl, by decide⟩

theorem parseNumber_complete (hN : NumberBytes N) {lit rest : Bytes} (h : N lit)
    (hf : Follow rest) : parseNumber N (lit ++ rest) = some (.num lit, rest) := by
  have hall : ∀ b ∈ lit, isNumberByte b = true := (hN lit h).2
  unfold parseNumber
  rw [takeWhile_run hall hf, dropWhile_run hall hf]
  exact if_pos h

/-- The parser reads what a node derives, whatever follows it. -/
def Completes (N : Bytes → Prop) [DecidablePred N] : Node → Bytes → Prop
  | .value t, s => ∀ levels rest, t.height < levels → Follow rest →
      parseValue N levels (s ++ rest) = some (t, rest)
  | .elems ts, s => ∀ levels fuel rest, elemsHeight ts ≤ levels → s.length ≤ fuel →
      parseElems (parseValue N levels) fuel (s ++ 0x5D :: rest) = some (ts, rest)
  | .members ms, s => ∀ levels fuel rest, membersHeight ms ≤ levels → s.length ≤ fuel →
      parseMembers (parseValue N levels) fuel (s ++ 0x7D :: rest) = some (ms, rest)

/-- A value after white space, with the white space before what follows it. -/
theorem Completes.spaced (hN : NumberBytes N) {t : Tree} {w s w' : Bytes}
    (hd : Derives N (.value t) s) (h : Completes N (.value t) s) (hw : Ws w) (hw' : Ws w')
    (rest : Bytes) {levels : Nat} (hlt : t.height < levels) (hf : Follow rest) (hns : NoWs rest) :
    ∃ s', parseValue N levels (skipWs (w ++ (s ++ (w' ++ rest)))) = some (t, s') ∧
      skipWs s' = rest := by
  obtain ⟨b, s₀, rfl, hb⟩ := hd.starts hN
  rw [List.cons_append, skipWs_append hw (noWs_cons _ (startsValue_not_ws hb))]
  exact ⟨w' ++ rest, h levels _ hlt (follow_ws hw' hf), skipWs_append hw' hns⟩

theorem parseElems_skipWs (pv : Bytes → Option (Tree × Bytes)) (fuel : Nat) (s : Bytes) :
    parseElems pv fuel (skipWs s) = parseElems pv fuel s := by
  cases fuel with
  | zero => rfl
  | succ fuel => simp only [parseElems, skipWs, List.dropWhile_idempotent]

theorem parseMembers_skipWs (pv : Bytes → Option (Tree × Bytes)) (fuel : Nat) (s : Bytes) :
    parseMembers pv fuel (skipWs s) = parseMembers pv fuel s := by
  cases fuel with
  | zero => rfl
  | succ fuel => simp only [parseMembers, skipWs, List.dropWhile_idempotent]

theorem elemsOne_completes (hN : NumberBytes N) {t : Tree} {w s w' : Bytes} (hw : Ws w)
    (hd : Derives N (.value t) s) (hw' : Ws w') (h : Completes N (.value t) s) :
    Completes N (.elems [t]) (w ++ (s ++ w')) := by
  intro levels fuel rest hle hfuel
  obtain ⟨b, s₀, hs, -⟩ := hd.starts hN
  have hpos : fuel ≠ 0 := by
    simp only [hs, List.length_append, List.length_cons] at hfuel
    omega
  obtain ⟨fuel, rfl⟩ := Nat.exists_eq_succ_of_ne_zero hpos
  obtain ⟨s', hv, hs'⟩ := h.spaced hN hd hw hw' (0x5D :: rest)
    (Nat.lt_of_lt_of_le (Nat.lt_succ_self _) (le_trans (le_max_left _ _) hle))
    (follow_cons _ (by decide)) (noWs_cons _ (by decide))
  simp [parseElems, hv, hs']

theorem elemsCons_completes (hN : NumberBytes N) {t : Tree} {ts : List Tree} {w s w' r : Bytes}
    (hw : Ws w) (hd : Derives N (.value t) s) (hw' : Ws w') (h : Completes N (.value t) s)
    (hr : Completes N (.elems ts) r) :
    Completes N (.elems (t :: ts)) (w ++ (s ++ (w' ++ 0x2C :: r))) := by
  intro levels fuel rest hle hfuel
  simp only [List.length_append, List.length_cons] at hfuel
  obtain ⟨fuel, rfl⟩ := Nat.exists_eq_succ_of_ne_zero (n := fuel) (by omega)
  obtain ⟨s', hv, hs'⟩ := h.spaced hN hd hw hw' (0x2C :: (r ++ 0x5D :: rest))
    (Nat.lt_of_lt_of_le (Nat.lt_succ_self _) (le_trans (le_max_left _ _) hle))
    (follow_cons _ (by decide)) (noWs_cons _ (by decide))
  have hrest := hr levels fuel rest (le_trans (le_max_right _ _) hle) (by omega)
  simp [parseElems, hv, hs', hrest]

/-- A name and its colon, with what follows. -/
theorem parseKey_complete (k : List Item) {w w₁ : Bytes} (rest : Bytes) (hw : Ws w)
    (hw₁ : Ws w₁) :
    ∃ s', parseString (skipWs (w ++ (stringText k ++ (w₁ ++ 0x3A :: rest)))) = some (k, s') ∧
      expect 0x3A (skipWs s') = some rest := by
  have hns : NoWs (stringText k ++ (w₁ ++ 0x3A :: rest)) := noWs_cons _ (by decide)
  rw [skipWs_append hw hns]
  refine ⟨_, parseString_eq_some.mpr rfl, ?_⟩
  rw [skipWs_append hw₁ (noWs_cons _ (by decide))]
  exact expect_eq_some.mpr rfl

theorem membersOne_completes (hN : NumberBytes N) {k : List Item} {t : Tree}
    {w w₁ w₂ s w' : Bytes} (hw : Ws w) (hw₁ : Ws w₁) (hw₂ : Ws w₂) (hd : Derives N (.value t) s)
    (hw' : Ws w') (h : Completes N (.value t) s) :
    Completes N (.members [(k, t)])
      (w ++ (stringText k ++ (w₁ ++ 0x3A :: (w₂ ++ (s ++ w'))))) := by
  intro levels fuel rest hle hfuel
  simp only [List.length_append, List.length_cons] at hfuel
  obtain ⟨fuel, rfl⟩ := Nat.exists_eq_succ_of_ne_zero (n := fuel) (by omega)
  obtain ⟨s₁, hk, hcolon⟩ := parseKey_complete k
    (w₂ ++ (s ++ (w' ++ 0x7D :: rest))) hw hw₁
  obtain ⟨s', hv, hs'⟩ := h.spaced hN hd hw₂ hw' (0x7D :: rest)
    (Nat.lt_of_lt_of_le (Nat.lt_succ_self _) (le_trans (le_max_left _ _) hle))
    (follow_cons _ (by decide)) (noWs_cons _ (by decide))
  simp [parseMembers, hk, hcolon, hv, hs']

theorem membersCons_completes (hN : NumberBytes N) {k : List Item} {t : Tree}
    {ms : List (List Item × Tree)} {w w₁ w₂ s w' r : Bytes} (hw : Ws w) (hw₁ : Ws w₁)
    (hw₂ : Ws w₂) (hd : Derives N (.value t) s) (hw' : Ws w') (h : Completes N (.value t) s)
    (hr : Completes N (.members ms) r) :
    Completes N (.members ((k, t) :: ms))
      (w ++ (stringText k ++ (w₁ ++ 0x3A :: (w₂ ++ (s ++ (w' ++ 0x2C :: r)))))) := by
  intro levels fuel rest hle hfuel
  simp only [List.length_append, List.length_cons] at hfuel
  obtain ⟨fuel, rfl⟩ := Nat.exists_eq_succ_of_ne_zero (n := fuel) (by omega)
  obtain ⟨s₁, hk, hcolon⟩ := parseKey_complete k
    (w₂ ++ (s ++ (w' ++ 0x2C :: (r ++ 0x7D :: rest)))) hw hw₁
  obtain ⟨s', hv, hs'⟩ := h.spaced hN hd hw₂ hw' (0x2C :: (r ++ 0x7D :: rest))
    (Nat.lt_of_lt_of_le (Nat.lt_succ_self _) (le_trans (le_max_left _ _) hle))
    (follow_cons _ (by decide)) (noWs_cons _ (by decide))
  have hrest := hr levels fuel rest (le_trans (le_max_right _ _) hle) (by omega)
  simp [parseMembers, hk, hcolon, hv, hs', hrest]

/-- An empty container closes after white space. -/
theorem skipWs_close {b : UInt8} {w : Bytes} (hw : Ws w) (hb : isWs b = false) (rest : Bytes) :
    expect b (skipWs (w ++ b :: rest)) = some rest := by
  rw [skipWs_append hw (noWs_cons _ hb)]
  exact expect_eq_some.mpr rfl

omit [DecidablePred N] in
/-- The elements do not start like a closing bracket. -/
theorem Derives.elems_open (hN : NumberBytes N) {ts : List Tree} {s : Bytes}
    (h : Derives N (.elems ts) s) (rest : Bytes) : expect 0x5D (skipWs (s ++ rest)) = none := by
  have hgo : ∀ {w s t r}, Ws w → Derives N (.value t) s →
      expect 0x5D (skipWs (w ++ (s ++ r))) = none := by
    intro w s t r hw hd
    obtain ⟨b, s₀, rfl, hb⟩ := hd.starts hN
    rw [List.cons_append, skipWs_append hw (noWs_cons _ (startsValue_not_ws hb))]
    exact if_neg (ne_of_class hb rfl)
  cases h with
  | elemsOne hw hd hw' =>
    simp only [List.append_assoc]
    exact hgo hw hd
  | elemsCons hw hd hw' hr =>
    simp only [List.append_assoc]
    exact hgo hw hd

omit [DecidablePred N] in
theorem Derives.members_open {ms : List (List Item × Tree)} {s : Bytes}
    (h : Derives N (.members ms) s) (rest : Bytes) : expect 0x7D (skipWs (s ++ rest)) = none := by
  have hgo : ∀ {w r} (k : List Item), Ws w →
      expect 0x7D (skipWs (w ++ (stringText k ++ r))) = none := by
    intro w r k hw
    have hns : NoWs (stringText k ++ r) := noWs_cons _ (by decide)
    rw [skipWs_append hw hns]
    rfl
  cases h with
  | membersOne hw hw₁ hw₂ hd hw' =>
    simp only [List.append_assoc]
    exact hgo _ hw
  | membersCons hw hw₁ hw₂ hd hw' hr =>
    simp only [List.append_assoc]
    exact hgo _ hw

theorem arr_completes (hN : NumberBytes N) {ts : List Tree} {s : Bytes}
    (hd : Derives N (.elems ts) s) (h : Completes N (.elems ts) s) :
    Completes N (.value (.arr ts)) (0x5B :: s ++ [0x5D]) := by
  intro levels rest hlt _
  obtain ⟨levels, rfl⟩ := Nat.exists_eq_succ_of_ne_zero (Nat.ne_zero_of_lt hlt)
  have hs : 0x5B :: s ++ [0x5D] ++ rest = 0x5B :: (s ++ 0x5D :: rest) := by simp
  have hr := h levels ((s ++ 0x5D :: rest).length + 1) rest (Nat.le_of_lt_succ hlt) (by
    simp only [List.length_append]; omega)
  rw [hs]
  simp only [parseValue, parseArray, hd.elems_open hN, parseElems_skipWs, hr]
  rfl

/-- An object ends with its brace, whatever follows. -/
theorem parseObject_members {ms : List (List Item × Tree)} {s : Bytes}
    (hd : Derives N (.members ms) s) (h : Completes N (.members ms) s) {levels : Nat}
    (hle : membersHeight ms ≤ levels) (rest : Bytes) :
    parseObject (parseValue N levels) (s ++ 0x7D :: rest) = some (.obj ms, rest) := by
  have hr := h levels ((s ++ 0x7D :: rest).length + 1) rest hle (by
    simp only [List.length_append]; omega)
  simp only [parseObject, hd.members_open, parseMembers_skipWs, hr]
  rfl

theorem obj_completes {ms : List (List Item × Tree)} {s : Bytes}
    (hd : Derives N (.members ms) s) (h : Completes N (.members ms) s) :
    Completes N (.value (.obj ms)) (0x7B :: s ++ [0x7D]) := by
  intro levels rest hlt _
  obtain ⟨levels, rfl⟩ := Nat.exists_eq_succ_of_ne_zero (Nat.ne_zero_of_lt hlt)
  have hs : 0x7B :: s ++ [0x7D] ++ rest = 0x7B :: (s ++ 0x7D :: rest) := by simp
  rw [hs]
  exact parseObject_members hd h (Nat.le_of_lt_succ hlt) rest

/-- A literal name is read whatever follows. -/
theorem expectText_append (text rest : Bytes) : expectText text (text ++ rest) = some rest :=
  expectText_eq_some.mpr rfl

theorem num_completes (hN : NumberBytes N) {lit : Bytes} (h : N lit) :
    Completes N (.value (.num lit)) lit := by
  intro levels rest hlt hf
  obtain ⟨levels, rfl⟩ := Nat.exists_eq_succ_of_ne_zero (Nat.ne_zero_of_lt hlt)
  obtain ⟨b, s, rfl⟩ := List.exists_cons_of_ne_nil (hN lit h).1
  have hb : isNumberByte b = true := (hN _ h).2 b List.mem_cons_self
  have hne {c : UInt8} (hc : isNumberByte c = false) : b ≠ c := ne_of_class hb hc
  have hnum := parseNumber_complete hN h hf
  rw [List.cons_append] at hnum ⊢
  simpa [parseValue, hne (c := 0x7B) rfl, hne (c := 0x5B) rfl, hne (c := 0x22) rfl,
    hne (c := 0x74) rfl, hne (c := 0x66) rfl, hne (c := 0x6E) rfl] using hnum

theorem derives_completes (hN : NumberBytes N) {node : Node} {s : Bytes} (h : Derives N node s) :
    Completes N node s := by
  induction h with
  | nullLit =>
    intro levels rest hlt _
    obtain ⟨levels, rfl⟩ := Nat.exists_eq_succ_of_ne_zero (Nat.ne_zero_of_lt hlt)
    exact congrArg (Option.map _) (expectText_append (bytes "null") rest)
  | trueLit =>
    intro levels rest hlt _
    obtain ⟨levels, rfl⟩ := Nat.exists_eq_succ_of_ne_zero (Nat.ne_zero_of_lt hlt)
    exact congrArg (Option.map _) (expectText_append (bytes "true") rest)
  | falseLit =>
    intro levels rest hlt _
    obtain ⟨levels, rfl⟩ := Nat.exists_eq_succ_of_ne_zero (Nat.ne_zero_of_lt hlt)
    exact congrArg (Option.map _) (expectText_append (bytes "false") rest)
  | num hn => exact num_completes hN hn
  | str items =>
    intro levels rest hlt _
    obtain ⟨levels, rfl⟩ := Nat.exists_eq_succ_of_ne_zero (Nat.ne_zero_of_lt hlt)
    have hs : stringText items ++ rest = 0x22 :: (bodyText items ++ 0x22 :: rest) := by
      simp [stringText]
    rw [hs]
    exact congrArg (Option.map _) (parseBody_complete items rest)
  | arrEmpty hw =>
    intro levels rest hlt _
    obtain ⟨levels, rfl⟩ := Nat.exists_eq_succ_of_ne_zero (Nat.ne_zero_of_lt hlt)
    simp [parseValue, parseArray, skipWs_close (b := 0x5D) hw rfl]
  | arr hd ih => exact arr_completes hN hd ih
  | objEmpty hw =>
    intro levels rest hlt _
    obtain ⟨levels, rfl⟩ := Nat.exists_eq_succ_of_ne_zero (Nat.ne_zero_of_lt hlt)
    simp [parseValue, parseObject, skipWs_close (b := 0x7D) hw rfl]
  | obj hd ih => exact obj_completes hd ih
  | elemsOne hw hd hw' ih => exact elemsOne_completes hN hw hd hw' ih
  | elemsCons hw hd hw' _ iht ihr => exact elemsCons_completes hN hw hd hw' iht ihr
  | membersOne hw hw₁ hw₂ hd hw' ih => exact membersOne_completes hN hw hw₁ hw₂ hd hw' ih
  | membersCons hw hw₁ hw₂ hd hw' _ iht ihr =>
    exact membersCons_completes hN hw hw₁ hw₂ hd hw' iht ihr

/-- An object is read whatever follows it. -/
theorem parseValue_obj (hN : NumberBytes N) {ms : List (List Item × Tree)} {s : Bytes}
    (h : Derives N (.value (.obj ms)) s) {levels : Nat} (hlt : Tree.height (.obj ms) < levels)
    (rest : Bytes) : parseValue N levels (s ++ rest) = some (.obj ms, rest) := by
  obtain ⟨levels, rfl⟩ := Nat.exists_eq_succ_of_ne_zero (Nat.ne_zero_of_lt hlt)
  cases h with
  | objEmpty hw => simp [parseValue, parseObject, skipWs_close (b := 0x7D) hw rfl]
  | @obj _ s hd =>
    have hs : 0x7B :: s ++ [0x7D] ++ rest = 0x7B :: (s ++ 0x7D :: rest) := by simp
    rw [hs]
    exact parseObject_members hd (derives_completes hN hd) (Nat.le_of_lt_succ hlt) rest

/-! ## The parser decides the grammar -/

/-- **The parser returns the tree of a text of fewer than `levels` levels, and no other.** -/
theorem parse_eq_some (hN : NumberBytes N) {levels : Nat} {t : Tree} {text : Bytes} :
    parse N levels text = some t ↔ Document N t text ∧ t.height < levels := by
  constructor
  · intro h
    unfold parse at h
    split at h
    · rename_i t' s hv
      split at h
      · rename_i hend
        cases h
        obtain ⟨w, hw, htext⟩ := exists_ws text
        obtain ⟨seg, hseg, hd, hlt⟩ := parseValue_sound levels _ _ _ hv
        obtain ⟨w', hw', hs⟩ := exists_ws s
        rw [hend, List.append_nil] at hs
        exact ⟨⟨w, seg, w', hw, hd, hw', by rw [hs] at hseg; rw [← hseg, ← htext]⟩, hlt⟩
      · cases h
    · cases h
  · intro hboth
    obtain ⟨⟨w, s, w', hw, hd, hw', rfl⟩, hlt⟩ := hboth
    have hend : skipWs w' = [] := by
      simpa using skipWs_append (s := []) hw' (fun b hb => by cases hb)
    have hv := derives_completes hN hd levels w' hlt (by
      simpa using follow_ws (s := []) hw' fun b hb => by cases hb)
    obtain ⟨b, s₀, rfl, hb⟩ := hd.starts hN
    rw [List.cons_append] at hv ⊢
    unfold parse
    rw [skipWs_append hw (noWs_cons _ (startsValue_not_ws hb)), hv]
    exact if_pos hend

/-- A text has one tree. -/
theorem Document.unique (hN : NumberBytes N) {t t' : Tree} {text : Bytes}
    (h : Document N t text) (h' : Document N t' text) : t = t' := by
  have hp : parse N (max t.height t'.height + 1) text = some t :=
    (parse_eq_some hN).mpr ⟨h, Nat.lt_succ_of_le (le_max_left _ _)⟩
  have hp' : parse N (max t.height t'.height + 1) text = some t' :=
    (parse_eq_some hN).mpr ⟨h', Nat.lt_succ_of_le (le_max_right _ _)⟩
  exact Option.some.inj (hp.symm.trans hp')

end

/-! ## How much of a text is read -/

theorem skipWs_length (s : Bytes) : (skipWs s).length ≤ s.length :=
  (List.dropWhile_sublist isWs).length_le

theorem expect_length {b : UInt8} {s rest : Bytes} (h : expect b s = some rest) :
    rest.length < s.length := by
  rw [expect_eq_some.mp h]
  exact Nat.lt_succ_self _

theorem parseBody_length {s rest : Bytes} {items : List Item}
    (h : parseBody s = some (items, rest)) : rest.length < s.length := by
  rw [parseBody_sound h, List.length_append, List.length_cons]
  omega

theorem parseString_length {s rest : Bytes} {items : List Item}
    (h : parseString s = some (items, rest)) : rest.length < s.length := by
  rw [parseString_eq_some.mp h, stringText]
  simp only [List.cons_append, List.length_cons, List.length_append]
  omega

theorem expectText_length {text s rest : Bytes} (hne : text ≠ [])
    (h : expectText text s = some rest) : rest.length < s.length := by
  have hpos := List.length_pos_of_ne_nil hne
  rw [expectText_eq_some.mp h, List.length_append]
  omega

theorem SoundBelow.length {N : Bytes → Prop} {levels : Nat} {pv : Bytes → Option (Tree × Bytes)}
    (hpv : SoundBelow N levels pv) {s rest : Bytes} {t : Tree} (h : pv s = some (t, rest)) :
    rest.length ≤ s.length := by
  obtain ⟨seg, rfl, -, -⟩ := hpv _ _ _ h
  rw [List.length_append]
  omega

end OppexSdk.Lib.Json
