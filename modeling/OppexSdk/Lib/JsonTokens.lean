import OppexSdk.Lib.JsonReader

/-! # A streaming JSON reader

A pull parser: every call of `nextToken` reads as much of the text as the next token needs and
keeps, of what came before, only the containers that are open. A token is returned before what
follows it is looked at. `skipValue_eq` says that reading a value token by token comes to the same
as the reference parser. -/
namespace OppexSdk.Lib.Json

inductive Token
  | startObject
  | endObject
  | startArray
  | endArray
  | fieldName (key : List Item)
  | string (items : List Item)
  | number (literal : Bytes)
  | bool (b : Bool)
  | null
  deriving DecidableEq

/-- `isStructStart`. -/
def Token.opens : Token → Bool
  | startObject | startArray => true
  | _ => false

/-- `isStructEnd`. -/
def Token.closes : Token → Bool
  | endObject | endArray => true
  | _ => false

inductive Scope
  | object
  | array
  deriving DecidableEq

def Scope.close : Scope → UInt8
  | object => 0x7D
  | array => 0x5D

def Scope.endToken : Scope → Token
  | object => .endObject
  | array => .endArray

inductive Place
  /-- Nothing of the scope has been read. -/
  | first
  /-- An entry of the scope has been read. -/
  | next
  /-- A name has been read, and its value has not. -/
  | value
  deriving DecidableEq

/-- Where the reader is: what is left of the text, and the open containers with the innermost one
first. -/
structure Cursor where
  rest : Bytes
  scopes : List Scope
  place : Place
  deriving DecidableEq

/-- The first token of the value that starts the text. -/
def valueToken (scopes : List Scope) : Bytes → Option (Token × Cursor)
  | [] => none
  | b :: s =>
    if b = 0x7B then some (.startObject, ⟨s, .object :: scopes, .first⟩)
    else if b = 0x5B then some (.startArray, ⟨s, .array :: scopes, .first⟩)
    else if b = 0x22 then (parseBody s).map fun r => (.string r.1, ⟨r.2, scopes, .next⟩)
    else if b = 0x74 then
      (expectText (bytes "true") (b :: s)).map fun s => (.bool true, ⟨s, scopes, .next⟩)
    else if b = 0x66 then
      (expectText (bytes "false") (b :: s)).map fun s => (.bool false, ⟨s, scopes, .next⟩)
    else if b = 0x6E then
      (expectText (bytes "null") (b :: s)).map fun s => (.null, ⟨s, scopes, .next⟩)
    else
      let lit := (b :: s).takeWhile isNumberByte
      if JsonNumber lit then
        some (.number lit, ⟨(b :: s).dropWhile isNumberByte, scopes, .next⟩)
      else none

/-- The first token of an entry of a scope: a value, or a name with its colon. -/
def entryToken (scope : Scope) (outer : List Scope) (s : Bytes) : Option (Token × Cursor) :=
  match scope with
  | .array => valueToken (.array :: outer) s
  | .object => do
    let (k, s) ← parseString s
    let s ← expect 0x3A (skipWs s)
    pure (.fieldName k, ⟨s, .object :: outer, .value⟩)

/-- The next token, nothing at the end of the text, or an error. The text may not end within a
container. -/
def nextToken (c : Cursor) : Option (Option Token × Cursor) :=
  let s := skipWs c.rest
  let some' : Token × Cursor → Option Token × Cursor := fun r => (some r.1, r.2)
  match c.place, c.scopes with
  | .value, scopes => (valueToken scopes s).map some'
  | place, [] =>
    if s = [] then some (none, ⟨s, [], place⟩) else (valueToken [] s).map some'
  | place, scope :: outer =>
    match expect scope.close s with
    | some s => some (some scope.endToken, ⟨s, outer, .next⟩)
    | none =>
      if place = .first then (entryToken scope outer s).map some'
      else (expect 0x2C s).bind fun s => (entryToken scope outer (skipWs s)).map some'

/-! ## Every token takes something of the text -/

theorem valueToken_length {scopes : List Scope} {s : Bytes} {t : Token} {c : Cursor}
    (h : valueToken scopes s = some (t, c)) : c.rest.length < s.length := by
  unfold valueToken at h
  split at h
  · cases h
  · rename_i b s
    split_ifs at h with h₁ h₂ h₃ h₄ h₅ h₆
    · cases h
      exact Nat.lt_succ_self _
    · cases h
      exact Nat.lt_succ_self _
    · obtain ⟨r, hr, he⟩ := Option.map_eq_some_iff.mp h
      cases he
      exact Nat.lt_succ_of_lt (parseBody_length hr)
    · obtain ⟨r, hr, he⟩ := Option.map_eq_some_iff.mp h
      cases he
      exact expectText_length (by decide) hr
    · obtain ⟨r, hr, he⟩ := Option.map_eq_some_iff.mp h
      cases he
      exact expectText_length (by decide) hr
    · obtain ⟨r, hr, he⟩ := Option.map_eq_some_iff.mp h
      cases he
      exact expectText_length (by decide) hr
    · dsimp only at h
      split_ifs at h with hnum
      cases h
      have hne := (jsonNumber_numberBytes _ hnum).1
      have hsplit := congrArg List.length
        (List.takeWhile_append_dropWhile (p := isNumberByte) (l := b :: s))
      have hpos := List.length_pos_of_ne_nil hne
      rw [List.length_append] at hsplit
      dsimp only
      omega

theorem entryToken_length {scope : Scope} {outer : List Scope} {s : Bytes} {t : Token} {c : Cursor}
    (h : entryToken scope outer s = some (t, c)) : c.rest.length < s.length := by
  cases scope with
  | array => exact valueToken_length h
  | object =>
    obtain ⟨⟨k, s₁⟩, hk, h⟩ := Option.bind_eq_some_iff.mp h
    obtain ⟨s₂, hcolon, h⟩ := Option.bind_eq_some_iff.mp h
    cases h
    exact lt_trans (lt_of_lt_of_le (expect_length hcolon) (skipWs_length _)) (parseString_length hk)

theorem nextToken_length {c c' : Cursor} {t : Token} (h : nextToken c = some (some t, c')) :
    c'.rest.length < c.rest.length := by
  refine lt_of_lt_of_le ?_ (skipWs_length c.rest)
  have hvalue : ∀ {scopes}, (valueToken scopes (skipWs c.rest)).map
      (fun r => (some r.1, r.2)) = some (some t, c') → c'.rest.length < (skipWs c.rest).length := by
    intro scopes h
    obtain ⟨r, hr, he⟩ := Option.map_eq_some_iff.mp h
    cases he
    exact valueToken_length hr
  unfold nextToken at h
  dsimp only at h
  split at h
  · exact hvalue h
  · split_ifs at h
    · cases h
    · exact hvalue h
  · split at h
    · rename_i hclose
      cases h
      exact expect_length hclose
    · split_ifs at h
      · obtain ⟨r, hr, he⟩ := Option.map_eq_some_iff.mp h
        cases he
        exact entryToken_length hr
      · obtain ⟨s, hcomma, h⟩ := Option.bind_eq_some_iff.mp h
        obtain ⟨r, hr, he⟩ := Option.map_eq_some_iff.mp h
        cases he
        exact lt_trans (lt_of_lt_of_le (entryToken_length hr) (skipWs_length _))
          (expect_length hcomma)

/-! ## Skipping what a container holds -/

/-- Reads on until as many containers are closed as are open. -/
def skipLoop (opened : Nat) (c : Cursor) : Option Cursor :=
  match h : nextToken c with
  | none => none
  | some (none, c') => some c'
  | some (some t, c') =>
    if t.opens then skipLoop (opened + 1) c'
    else if t.closes then
      if opened - 1 = 0 then some c' else skipLoop (opened - 1) c'
    else skipLoop opened c'
termination_by c.rest.length
decreasing_by all_goals exact nextToken_length h

/-- `skipChildren` right after the token `t`. -/
def skipChildren (t : Token) (c : Cursor) : Option Cursor :=
  if t.opens then skipLoop 1 c else some c

/-- The first token of a value, and where the reader is when the value has been skipped. -/
def skipValue (scopes : List Scope) (s : Bytes) : Option (Token × Cursor) :=
  (valueToken scopes s).bind fun r => (skipChildren r.1 r.2).map fun c => (r.1, c)

/-- The text ends only when no container is open. -/
theorem nextToken_end {c c' : Cursor} (h : nextToken c = some (none, c')) :
    c.scopes = [] ∧ c'.rest = [] ∧ nextToken c' = some (none, c') := by
  have hmap : ∀ {r : Option (Token × Cursor)}, r.map (fun r => (some r.1, r.2)) ≠ some (none, c') := by
    intro r hr
    obtain ⟨_, -, he⟩ := Option.map_eq_some_iff.mp hr
    cases he
  unfold nextToken at h
  dsimp only at h
  split at h
  · exact (hmap h).elim
  · rename_i place hscopes hplace
    split_ifs at h with hend
    · cases h
      rw [hend]
      refine ⟨hscopes, rfl, ?_⟩
      cases hc : c.place with
      | value => exact (hplace hc).elim
      | first => rfl
      | next => rfl
    · exact (hmap h).elim
  · split at h
    · cases h
    · split_ifs at h
      · exact (hmap h).elim
      · obtain ⟨_, -, h⟩ := Option.bind_eq_some_iff.mp h
        exact (hmap h).elim

theorem skipLoop_end {n : Nat} {c c' : Cursor} (h : nextToken c = some (none, c')) :
    skipLoop n c = some c' := by
  rw [skipLoop]
  split <;> simp_all only [reduceCtorEq, Option.some.injEq, Prod.mk.injEq, true_and, false_and]

/-- Closing several containers is closing some of them and then the others. -/
theorem skipLoop_add (a b : Nat) (c : Cursor) :
    skipLoop (a + 1 + (b + 1)) c = (skipLoop (a + 1) c).bind (skipLoop (b + 1)) := by
  induction hn : c.rest.length using Nat.strong_induction_on generalizing a c with
  | _ n ih =>
    subst hn
    rw [skipLoop, skipLoop.eq_def (a + 1) c]
    split
    · rfl
    · rename_i c' h
      exact (skipLoop_end (nextToken_end h).2.2).symm
    · rename_i t c' h
      have hlt := nextToken_length h
      split_ifs with h₁ h₂ h₃ h₄ h₅
      · have := ih _ hlt (a + 1) c' rfl
        rwa [Nat.add_right_comm] at this
      · omega
      · omega
      · obtain rfl : a = 0 := by omega
        simp
      · obtain ⟨a, rfl⟩ := Nat.exists_eq_succ_of_ne_zero (n := a) (by omega)
        have := ih _ hlt a c' rfl
        have hsub : a.succ + 1 + (b + 1) - 1 = a + 1 + (b + 1) := by omega
        rw [hsub, this]
        rfl
      · exact ih _ hlt a c' rfl

/-! ## The tokens of one scope -/

section
variable (scope : Scope) {outer : List Scope} {s s' : Bytes}

theorem nextToken_close {place : Place} (hplace : place ≠ .value)
    (h : expect scope.close (skipWs s) = some s') :
    nextToken ⟨s, scope :: outer, place⟩ = some (some scope.endToken, ⟨s', outer, .next⟩) := by
  cases place with
  | value => exact (hplace rfl).elim
  | first => simp [nextToken, h]
  | next => simp [nextToken, h]

theorem nextToken_first (h : expect scope.close (skipWs s) = none) :
    nextToken ⟨s, scope :: outer, .first⟩ =
      (entryToken scope outer (skipWs s)).map fun r => (some r.1, r.2) := by
  simp [nextToken, h]

theorem close_of_comma (h : expect 0x2C s = some s') : expect scope.close s = none := by
  rw [expect_eq_some.mp h]
  cases scope <;> rfl

theorem nextToken_comma (h : expect 0x2C (skipWs s) = some s') :
    nextToken ⟨s, scope :: outer, .next⟩ =
      (entryToken scope outer (skipWs s')).map fun r => (some r.1, r.2) := by
  simp [nextToken, close_of_comma scope h, h]

theorem nextToken_stuck (hclose : expect scope.close (skipWs s) = none)
    (hcomma : expect 0x2C (skipWs s) = none) : nextToken ⟨s, scope :: outer, .next⟩ = none := by
  simp [nextToken, hclose, hcomma]

theorem nextToken_value {scopes : List Scope} : nextToken ⟨s, scopes, .value⟩ =
    (valueToken scopes (skipWs s)).map fun r => (some r.1, r.2) := by
  cases scopes <;> rfl

end

/-! ## Agreement with the reference parser -/

/-- The first token of a value. -/
def Tree.token : Tree → Token
  | .null => .null
  | .bool b => .bool b
  | .num lit => .number lit
  | .str items => .string items
  | .arr _ => .startArray
  | .obj _ => .startObject

theorem valueToken_closes {scopes : List Scope} {s : Bytes} {t : Token} {c : Cursor}
    (h : valueToken scopes s = some (t, c)) : t.closes = false := by
  unfold valueToken at h
  split at h
  · cases h
  · dsimp only at h
    split_ifs at h
    all_goals first
      | (cases h; rfl)
      | (obtain ⟨_, -, he⟩ := Option.map_eq_some_iff.mp h; cases he; rfl)

theorem valueToken_object {scopes : List Scope} {b : UInt8} {s : Bytes} {c : Cursor}
    (h : valueToken scopes (b :: s) = some (.startObject, c)) :
    b = 0x7B ∧ c = ⟨s, .object :: scopes, .first⟩ := by
  simp only [valueToken] at h
  split_ifs at h with hbrace
  · cases h
    exact ⟨hbrace, rfl⟩
  all_goals first
    | cases h
    | (obtain ⟨_, -, he⟩ := Option.map_eq_some_iff.mp h; cases he)

/-- A text whose first token starts an object. -/
theorem firstToken_object {text : Bytes} {c : Cursor}
    (h : nextToken ⟨text, [], .first⟩ = some (some .startObject, c)) :
    ∃ s, skipWs text = 0x7B :: s ∧ c = ⟨s, [.object], .first⟩ := by
  cases hs : skipWs text with
  | nil => simp [nextToken, hs] at h
  | cons b s =>
    simp only [nextToken, hs, reduceCtorEq, if_false] at h
    obtain ⟨⟨t, c'⟩, hv, he⟩ := Option.map_eq_some_iff.mp h
    cases he
    obtain ⟨rfl, rfl⟩ := valueToken_object hv
    exact ⟨s, rfl, rfl⟩

theorem skipLoop_none {n : Nat} {c : Cursor} (h : nextToken c = none) : skipLoop n c = none := by
  rw [skipLoop]
  split <;> simp_all only [reduceCtorEq]

theorem skipLoop_some (n : Nat) {c c' : Cursor} {t : Token} (h : nextToken c = some (some t, c')) :
    skipLoop n c =
      if t.opens then skipLoop (n + 1) c'
      else if t.closes then if n - 1 = 0 then some c' else skipLoop (n - 1) c'
      else skipLoop n c' := by
  rw [skipLoop]
  split
  · simp_all only [reduceCtorEq]
  · simp_all only [Option.some.injEq, Prod.mk.injEq, reduceCtorEq, false_and]
  · rename_i h'
    rw [h] at h'
    cases h'
    rfl

theorem skipLoop_step {c c' : Cursor} {t : Token} (h : nextToken c = some (some t, c'))
    (hcloses : t.closes = false) : skipLoop 1 c = (skipChildren t c').bind (skipLoop 1) := by
  rw [skipLoop_some 1 h, hcloses, skipChildren]
  cases t.opens with
  | true => exact skipLoop_add 0 0 c'
  | false => rfl

theorem skipLoop_close {c c' : Cursor} {t : Token} (h : nextToken c = some (some t, c'))
    (hcloses : t.closes = true) : skipLoop 1 c = some c' := by
  have hopens : t.opens = false := by cases t <;> first | rfl | cases hcloses
  rw [skipLoop_some 1 h, hopens, hcloses]
  rfl

theorem skipLoop_value {scopes : List Scope} {s : Bytes} {c : Cursor}
    (h : nextToken c = (valueToken scopes s).map fun r => (some r.1, r.2)) :
    skipLoop 1 c = (skipValue scopes s).bind fun r => skipLoop 1 r.2 := by
  unfold skipValue
  cases hv : valueToken scopes s with
  | none =>
    rw [hv] at h
    exact skipLoop_none h
  | some r =>
    rw [hv] at h
    rw [skipLoop_step h (valueToken_closes hv), Option.bind_some]
    cases skipChildren r.1 r.2 <;> rfl

/-- An entry of a scope and what follows it, up to the end of the scope. -/
def skipEntry (scope : Scope) (outer : List Scope) (s : Bytes) : Option Cursor :=
  match scope with
  | .array => (skipValue (.array :: outer) s).bind fun r => skipLoop 1 r.2
  | .object =>
    (parseString s).bind fun r => (expect 0x3A (skipWs r.2)).bind fun s =>
      (skipValue (.object :: outer) (skipWs s)).bind fun r => skipLoop 1 r.2

theorem skipLoop_entry {scope : Scope} {outer : List Scope} {s : Bytes} {c : Cursor}
    (h : nextToken c = (entryToken scope outer s).map fun r => (some r.1, r.2)) :
    skipLoop 1 c = skipEntry scope outer s := by
  cases scope with
  | array => exact skipLoop_value h
  | object =>
    unfold entryToken at h
    unfold skipEntry
    cases hk : parseString s with
    | none =>
      simp only [hk] at h
      exact skipLoop_none h
    | some r =>
      cases hcolon : expect 0x3A (skipWs r.2) with
      | none =>
        simp only [hk, bind, Option.bind, hcolon] at h
        simp only [Option.bind_some, hcolon]
        exact skipLoop_none h
      | some s₂ =>
        simp only [hk, bind, Option.bind, hcolon] at h
        simp only [Option.bind_some, hcolon]
        rw [skipLoop_step h rfl]
        exact skipLoop_value nextToken_value

/-- After an entry the scope ends, or there is a comma and another entry. -/
theorem skipLoop_next (scope : Scope) (outer : List Scope) (s : Bytes) :
    skipLoop 1 ⟨s, scope :: outer, .next⟩ =
      match expect 0x2C (skipWs s) with
      | some s' => skipEntry scope outer (skipWs s')
      | none => (expect scope.close (skipWs s)).map fun s' => ⟨s', outer, .next⟩ := by
  cases hcomma : expect 0x2C (skipWs s) with
  | some s' => exact skipLoop_entry (nextToken_comma _ hcomma)
  | none =>
    cases hclose : expect scope.close (skipWs s) with
    | none => exact skipLoop_none (nextToken_stuck _ hclose hcomma)
    | some s' =>
      refine skipLoop_close (nextToken_close _ (by simp) hclose) ?_
      cases scope <;> rfl

theorem skipLoop_first (scope : Scope) (outer : List Scope) (s : Bytes) :
    skipLoop 1 ⟨s, scope :: outer, .first⟩ =
      match expect scope.close (skipWs s) with
      | some s' => some ⟨s', outer, .next⟩
      | none => skipEntry scope outer (skipWs s) := by
  cases hclose : expect scope.close (skipWs s) with
  | none => exact skipLoop_entry (nextToken_first _ hclose)
  | some s' =>
    refine skipLoop_close (nextToken_close _ (by simp) hclose) ?_
    cases scope <;> rfl

/-- The reader skips the values of up to `n` bytes that the parser reads. -/
def SkipsBelow (n levels : Nat) : Prop :=
  ∀ (s : Bytes) (scopes : List Scope), s.length ≤ n → skipValue scopes s =
    (parseValue JsonNumber levels s).map fun r => (r.1.token, ⟨r.2, scopes, .next⟩)

theorem parseValue_length {levels : Nat} {s rest : Bytes} {t : Tree}
    (h : parseValue JsonNumber levels s = some (t, rest)) : rest.length ≤ s.length :=
  SoundBelow.length (parseValue_sound levels) h

section
variable {n levels : Nat} (hn : SkipsBelow n levels)
include hn

theorem skipEntry_array (outer : List Scope) {fuel : Nat} {s : Bytes} (hfuel : s.length < fuel)
    (hle : s.length ≤ n) :
    skipEntry .array outer (skipWs s) =
      (parseElems (parseValue JsonNumber levels) fuel s).map fun r => ⟨r.2, outer, .next⟩ := by
  induction fuel generalizing s with
  | zero => omega
  | succ fuel ih =>
    have hws := skipWs_length s
    simp only [skipEntry, parseElems]
    rw [hn _ _ (le_trans hws hle)]
    cases hv : parseValue JsonNumber levels (skipWs s) with
    | none => rfl
    | some r =>
      obtain ⟨t, s₁⟩ := r
      have hs₁ := parseValue_length hv
      simp only [Option.map_some, Option.bind_some, bind]
      rw [skipLoop_next]
      cases hcomma : expect 0x2C (skipWs s₁) with
      | some s₂ =>
        have hs₂ := lt_of_lt_of_le (expect_length hcomma) (skipWs_length _)
        have hrec := ih (s := s₂) (by omega) (by omega)
        simp only [hrec, Option.map_map]
        rfl
      | none =>
        simp only [Option.map_map]
        rfl

theorem skipEntry_object (outer : List Scope) {fuel : Nat} {s : Bytes} (hfuel : s.length < fuel)
    (hle : s.length ≤ n) :
    skipEntry .object outer (skipWs s) =
      (parseMembers (parseValue JsonNumber levels) fuel s).map fun r => ⟨r.2, outer, .next⟩ := by
  induction fuel generalizing s with
  | zero => omega
  | succ fuel ih =>
    have hws := skipWs_length s
    simp only [skipEntry, parseMembers]
    cases hk : parseString (skipWs s) with
    | none => rfl
    | some r =>
      obtain ⟨k, s₁⟩ := r
      have hs₁ := parseString_length hk
      simp only [Option.bind_some, bind]
      cases hcolon : expect 0x3A (skipWs s₁) with
      | none => rfl
      | some s₂ =>
        have hs₂ := lt_of_lt_of_le (expect_length hcolon) (skipWs_length _)
        have hws₂ := skipWs_length s₂
        simp only [Option.bind_some]
        rw [hn _ _ (by omega)]
        cases hv : parseValue JsonNumber levels (skipWs s₂) with
        | none => rfl
        | some r =>
          obtain ⟨t, s₃⟩ := r
          have hs₃ := parseValue_length hv
          simp only [Option.map_some, Option.bind_some]
          rw [skipLoop_next]
          cases hcomma : expect 0x2C (skipWs s₃) with
          | some s₄ =>
            have hs₄ := lt_of_lt_of_le (expect_length hcomma) (skipWs_length _)
            have hrec := ih (s := s₄) (by omega) (by omega)
            simp only [hrec, Option.map_map]
            rfl
          | none =>
            simp only [Option.map_map]
            rfl

end

theorem skipWs_skipWs (s : Bytes) : skipWs (skipWs s) = skipWs s :=
  List.dropWhile_idempotent _ _

/-- **A value that is skipped token by token is a value that the parser reads.** -/
theorem skipValue_eq (scopes : List Scope) {s : Bytes} {levels : Nat}
    (hlevels : s.length < levels) :
    skipValue scopes s =
      (parseValue JsonNumber levels s).map fun r => (r.1.token, ⟨r.2, scopes, .next⟩) := by
  induction hlen : s.length using Nat.strong_induction_on generalizing s scopes levels with
  | _ n ih =>
    subst hlen
    obtain ⟨levels, rfl⟩ := Nat.exists_eq_succ_of_ne_zero (Nat.ne_zero_of_lt hlevels)
    cases s with
    | nil => rfl
    | cons b s =>
      rw [List.length_cons] at hlevels ih
      have hn : SkipsBelow s.length levels := fun s' scopes hle =>
        ih s'.length (by omega) scopes (by omega) rfl
      have hws := skipWs_length s
      simp only [skipValue, valueToken, parseValue]
      split_ifs with h₁ h₂ h₃ h₄ h₅ h₆ h₇
      · simp only [Option.bind_some, skipChildren, Token.opens, if_true, skipLoop_first,
          parseObject, Scope.close]
        cases expect 0x7D (skipWs s) with
        | some s' => rfl
        | none =>
          have hrest := skipEntry_object hn scopes (Nat.lt_succ_of_le hws) hws
          rw [skipWs_skipWs] at hrest
          simp only [hrest, Option.map_map]
          rfl
      · simp only [Option.bind_some, skipChildren, Token.opens, if_true, skipLoop_first,
          parseArray, Scope.close]
        cases expect 0x5D (skipWs s) with
        | some s' => rfl
        | none =>
          have hrest := skipEntry_array hn scopes (Nat.lt_succ_of_le hws) hws
          rw [skipWs_skipWs] at hrest
          simp only [hrest, Option.map_map]
          rfl
      · cases parseBody s <;> rfl
      · cases expectText (bytes "true") (b :: s) <;> rfl
      · cases expectText (bytes "false") (b :: s) <;> rfl
      · cases expectText (bytes "null") (b :: s) <;> rfl
      · simp only [parseNumber, if_pos h₇]
        rfl
      · simp only [parseNumber, if_neg h₇]
        rfl

/-! ## The tokens of a value -/

mutual

/-- The tokens of a value behind its first. -/
def Tree.inner : Tree → List Token
  | .arr ts => elemsTokens ts ++ [.endArray]
  | .obj ms => membersTokens ms ++ [.endObject]
  | _ => []

def elemsTokens : List Tree → List Token
  | [] => []
  | t :: ts => t.token :: (t.inner ++ elemsTokens ts)

def membersTokens : List (List Item × Tree) → List Token
  | [] => []
  | m :: ms => .fieldName m.1 :: m.2.token :: (m.2.inner ++ membersTokens ms)

end

def Tree.tokens (t : Tree) : List Token := t.token :: t.inner

/-- The reader returns the tokens and is then at the second cursor. -/
def Emits : Cursor → List Token → Cursor → Prop
  | c, [], c' => c = c'
  | c, t :: ts, c' => ∃ c₁, nextToken c = some (some t, c₁) ∧ Emits c₁ ts c'

theorem Emits.append {c c₁ c₂ : Cursor} {ts ts' : List Token} (h : Emits c ts c₁)
    (h' : Emits c₁ ts' c₂) : Emits c (ts ++ ts') c₂ := by
  induction ts generalizing c with
  | nil =>
    cases h
    exact h'
  | cons t ts ih =>
    obtain ⟨c', hnext, hrest⟩ := h
    exact ⟨c', hnext, ih hrest⟩

/-- The reader returns the tokens of the values of fewer than `levels` levels. -/
def EmitsBelow (levels : Nat) : Prop :=
  ∀ (s : Bytes) (scopes : List Scope) (t : Tree) (rest : Bytes),
    parseValue JsonNumber levels s = some (t, rest) →
      ∃ c, valueToken scopes s = some (t.token, c) ∧ Emits c t.inner ⟨rest, scopes, .next⟩

theorem emits_close (scope : Scope) {outer : List Scope} {s s' : Bytes} {place : Place}
    (hplace : place ≠ .value) (h : expect scope.close (skipWs s) = some s') :
    Emits ⟨s, scope :: outer, place⟩ [scope.endToken] ⟨s', outer, .next⟩ :=
  ⟨_, nextToken_close scope hplace h, rfl⟩

section
variable {levels : Nat} (hbelow : EmitsBelow levels)
include hbelow

theorem emits_elems (outer : List Scope) {fuel : Nat} {s rest : Bytes} {ts : List Tree} {c : Cursor}
    (hnext : nextToken c = (valueToken (.array :: outer) (skipWs s)).map fun r => (some r.1, r.2))
    (h : parseElems (parseValue JsonNumber levels) fuel s = some (ts, rest)) :
    Emits c (elemsTokens ts ++ [.endArray]) ⟨rest, outer, .next⟩ := by
  induction fuel generalizing s c ts with
  | zero => cases h
  | succ fuel ih =>
    obtain ⟨⟨t, s₁⟩, hv, h⟩ := Option.bind_eq_some_iff.mp h
    obtain ⟨c₁, hvalue, hinner⟩ := hbelow _ (.array :: outer) _ _ hv
    rw [hvalue] at hnext
    dsimp only at h
    split at h
    · rename_i s₂ hcomma
      obtain ⟨⟨ts', rest'⟩, hr, he⟩ := Option.map_eq_some_iff.mp h
      cases he
      have hmore := ih (nextToken_comma .array hcomma) hr
      rw [elemsTokens, List.cons_append, List.append_assoc]
      exact ⟨c₁, hnext, hinner.append hmore⟩
    · obtain ⟨s₂, hclose, he⟩ := Option.map_eq_some_iff.mp h
      cases he
      have hend : Emits ⟨s₁, .array :: outer, .next⟩ [.endArray] _ :=
        emits_close .array (by simp) hclose
      rw [elemsTokens, elemsTokens, List.append_nil, List.cons_append]
      exact ⟨c₁, hnext, hinner.append hend⟩

theorem emits_members (outer : List Scope) {fuel : Nat} {s rest : Bytes}
    {ms : List (List Item × Tree)} {c : Cursor}
    (hnext : nextToken c = (entryToken .object outer (skipWs s)).map fun r => (some r.1, r.2))
    (h : parseMembers (parseValue JsonNumber levels) fuel s = some (ms, rest)) :
    Emits c (membersTokens ms ++ [.endObject]) ⟨rest, outer, .next⟩ := by
  induction fuel generalizing s c ms with
  | zero => cases h
  | succ fuel ih =>
    obtain ⟨⟨k, s₁⟩, hk, h⟩ := Option.bind_eq_some_iff.mp h
    obtain ⟨s₂, hcolon, h⟩ := Option.bind_eq_some_iff.mp h
    obtain ⟨⟨t, s₃⟩, hv, h⟩ := Option.bind_eq_some_iff.mp h
    obtain ⟨c₁, hvalue, hinner⟩ := hbelow _ (.object :: outer) _ _ hv
    have hname : nextToken c = some (some (.fieldName k), ⟨s₂, .object :: outer, .value⟩) := by
      rw [hnext]
      simp [entryToken, hk, hcolon]
    have hfirst : nextToken ⟨s₂, .object :: outer, .value⟩ = some (some t.token, c₁) := by
      rw [nextToken_value, hvalue]
      rfl
    dsimp only at h
    split at h
    · rename_i s₄ hcomma
      obtain ⟨⟨ms', rest'⟩, hr, he⟩ := Option.map_eq_some_iff.mp h
      cases he
      have hmore := ih (nextToken_comma .object hcomma) hr
      rw [membersTokens, List.cons_append, List.cons_append, List.append_assoc]
      exact ⟨_, hname, c₁, hfirst, hinner.append hmore⟩
    · obtain ⟨s₄, hclose, he⟩ := Option.map_eq_some_iff.mp h
      cases he
      have hend : Emits ⟨s₃, .object :: outer, .next⟩ [.endObject] _ :=
        emits_close .object (by simp) hclose
      rw [membersTokens, membersTokens, List.append_nil, List.cons_append, List.cons_append]
      exact ⟨_, hname, c₁, hfirst, hinner.append hend⟩

theorem emits_array (scopes : List Scope) {s rest : Bytes} {t : Tree}
    (h : parseArray (parseValue JsonNumber levels) s = some (t, rest)) :
    t.token = .startArray ∧
      Emits ⟨s, .array :: scopes, .first⟩ t.inner ⟨rest, scopes, .next⟩ := by
  unfold parseArray at h
  split at h
  · rename_i s' hclose
    cases h
    exact ⟨rfl, emits_close .array (by simp) hclose⟩
  · rename_i hclose
    obtain ⟨⟨ts, rest'⟩, hr, he⟩ := Option.map_eq_some_iff.mp h
    cases he
    refine ⟨rfl, emits_elems hbelow scopes ?_ hr⟩
    rw [skipWs_skipWs]
    exact nextToken_first .array hclose

theorem emits_object (scopes : List Scope) {s rest : Bytes} {t : Tree}
    (h : parseObject (parseValue JsonNumber levels) s = some (t, rest)) :
    t.token = .startObject ∧
      Emits ⟨s, .object :: scopes, .first⟩ t.inner ⟨rest, scopes, .next⟩ := by
  unfold parseObject at h
  split at h
  · rename_i s' hclose
    cases h
    exact ⟨rfl, emits_close .object (by simp) hclose⟩
  · rename_i hclose
    obtain ⟨⟨ms, rest'⟩, hr, he⟩ := Option.map_eq_some_iff.mp h
    cases he
    refine ⟨rfl, emits_members hbelow scopes ?_ hr⟩
    rw [skipWs_skipWs]
    exact nextToken_first .object hclose

end

/-- **The reader returns the tokens of a value that the parser reads.** -/
theorem emits_value {levels : Nat} {s rest : Bytes} (scopes : List Scope) {t : Tree}
    (h : parseValue JsonNumber levels s = some (t, rest)) :
    ∃ c, valueToken scopes s = some (t.token, c) ∧ Emits c t.inner ⟨rest, scopes, .next⟩ := by
  induction levels generalizing s scopes t rest with
  | zero => cases h
  | succ levels ih =>
    have hbelow : EmitsBelow levels := fun s scopes t rest h => ih scopes h
    cases s with
    | nil => cases h
    | cons b s =>
      simp only [parseValue] at h
      simp only [valueToken]
      split_ifs at h ⊢ with h₁ h₂ h₃ h₄ h₅ h₆ h₇
      · obtain ⟨htoken, hinner⟩ := emits_object hbelow scopes h
        exact ⟨_, by rw [htoken], hinner⟩
      · obtain ⟨htoken, hinner⟩ := emits_array hbelow scopes h
        exact ⟨_, by rw [htoken], hinner⟩
      · obtain ⟨r, hr, he⟩ := Option.map_eq_some_iff.mp h
        cases he
        exact ⟨_, by rw [hr]; rfl, rfl⟩
      · obtain ⟨r, hr, he⟩ := Option.map_eq_some_iff.mp h
        cases he
        exact ⟨_, by rw [hr]; rfl, rfl⟩
      · obtain ⟨r, hr, he⟩ := Option.map_eq_some_iff.mp h
        cases he
        exact ⟨_, by rw [hr]; rfl, rfl⟩
      · obtain ⟨r, hr, he⟩ := Option.map_eq_some_iff.mp h
        cases he
        exact ⟨_, by rw [hr]; rfl, rfl⟩
      · rw [parseNumber, if_pos h₇] at h
        cases h
        exact ⟨_, rfl, rfl⟩
      · rw [parseNumber, if_neg h₇] at h
        cases h

/-! ## An object and what follows it -/

/-- After white space the text starts with an object. -/
def StartsWithObject (ms : List (List Item × Tree)) (rest text : Bytes) : Prop :=
  ∃ w seg, Ws w ∧ Derives JsonNumber (.value (.obj ms)) seg ∧ text = w ++ (seg ++ rest)

theorem startsWithObject_of_parse {ms : List (List Item × Tree)} {rest text : Bytes} {levels : Nat}
    (h : parseValue JsonNumber levels (skipWs text) = some (.obj ms, rest)) :
    StartsWithObject ms rest text := by
  obtain ⟨w, hw, htext⟩ := exists_ws text
  obtain ⟨seg, hseg, hd, -⟩ := parseValue_sound levels _ _ _ h
  exact ⟨w, seg, hw, hd, by rw [← hseg, ← htext]⟩

/-- An object that can be skipped is one that the parser reads. -/
theorem startsWithObject_of_skip {text : Bytes} {c c' : Cursor}
    (h : nextToken ⟨text, [], .first⟩ = some (some .startObject, c))
    (hskip : skipLoop 1 c = some c') : ∃ ms rest, StartsWithObject ms rest text := by
  obtain ⟨s, hs, rfl⟩ := firstToken_object h
  have hvalue : skipValue [] (0x7B :: s) = some (.startObject, c') := by
    simp only [skipValue, valueToken, if_true, Option.bind_some, skipChildren, Token.opens, hskip,
      Option.map_some]
  rw [skipValue_eq [] (Nat.lt_succ_self _)] at hvalue
  obtain ⟨⟨t, rest⟩, hparse, he⟩ := Option.map_eq_some_iff.mp hvalue
  cases t with
  | obj ms =>
    rw [← hs] at hparse
    exact ⟨ms, rest, startsWithObject_of_parse hparse⟩
  | _ => cases he

section
variable {ms : List (List Item × Tree)} {rest text : Bytes} (h : StartsWithObject ms rest text)
include h

theorem StartsWithObject.brace : ∃ s, skipWs text = 0x7B :: s := by
  obtain ⟨w, seg, hw, hd, rfl⟩ := h
  have hseg : ∃ s, seg = 0x7B :: s := by
    cases hd with
    | objEmpty _ => exact ⟨_, rfl⟩
    | obj _ => exact ⟨_, rfl⟩
  obtain ⟨s, rfl⟩ := hseg
  exact ⟨s ++ rest, skipWs_append hw (noWs_cons _ (by decide))⟩

theorem StartsWithObject.parse {levels : Nat} (hdeep : membersHeight ms < levels) :
    parseValue JsonNumber levels (skipWs text) = some (.obj ms, rest) := by
  obtain ⟨w, seg, hw, hd, rfl⟩ := h
  have hread := parseValue_obj jsonNumber_numberBytes hd hdeep rest
  obtain ⟨b, seg, rfl, hb⟩ := hd.starts jsonNumber_numberBytes
  rw [List.cons_append] at hread ⊢
  rw [skipWs_append hw (noWs_cons _ (startsValue_not_ws hb))]
  exact hread

theorem StartsWithObject.emits : ∃ c, Emits ⟨text, [], .first⟩ (Tree.obj ms).tokens c := by
  obtain ⟨s, hs⟩ := h.brace
  obtain ⟨c, hvalue, hinner⟩ := emits_value [] (h.parse (Nat.lt_succ_self _))
  refine ⟨_, c, ?_, hinner⟩
  rw [hs] at hvalue
  simp only [nextToken, hs, hvalue, reduceCtorEq, if_false]
  rfl

theorem StartsWithObject.unique {ms' : List (List Item × Tree)} {rest' : Bytes}
    (h' : StartsWithObject ms' rest' text) : ms' = ms ∧ rest' = rest := by
  have hp := h.parse (Nat.lt_succ_of_le (le_max_left _ (membersHeight ms')))
  have hp' := h'.parse (Nat.lt_succ_of_le (le_max_right (membersHeight ms) _))
  rw [hp] at hp'
  cases hp'
  exact ⟨rfl, rfl⟩

end

theorem document_obj_iff {ms : List (List Item × Tree)} {text : Bytes} :
    Document JsonNumber (.obj ms) text ↔ ∃ rest, StartsWithObject ms rest text ∧ Ws rest := by
  constructor
  · intro hex
    obtain ⟨w, s, w', hw, hs, hw', rfl⟩ := hex
    exact ⟨w', ⟨w, s, hw, hs, rfl⟩, hw'⟩
  · intro hex
    obtain ⟨w', ⟨w, s, hw, hs, rfl⟩, hw'⟩ := hex
    exact ⟨w, s, w', hw, hs, hw', rfl⟩

end OppexSdk.Lib.Json
