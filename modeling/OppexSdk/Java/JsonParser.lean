import OppexSdk.Lib.DecimalValue
import OppexSdk.Lib.JsonTokens
import OppexSdk.Lib.Transition

/-! # Jackson's streaming parser

`JsonFactory.createParser` and the methods of `JsonParser` that the SDK calls. The library is a
parameter: `Documented` is what its documentation says of a factory without any features enabled,
which reads strict JSON. A Java string is taken by the bytes of its UTF-16 units, one to three for
each. -/
namespace OppexSdk.Java
open OppexSdk.Lib OppexSdk.Lib.Json OppexSdk.Lib.FromChars OppexSdk.Lib.Transition

/-- An `IOException`, without what it says. -/
structure IOException where

/-- A call that throws when there is nothing to return. -/
def orThrow {α : Type} : Option α → Except IOException α
  | some a => .ok a
  | none => .error ⟨⟩

inductive JsonToken
  | startObject
  | endObject
  | startArray
  | endArray
  | fieldName
  | valueString
  | valueNumberInt
  | valueNumberFloat
  | valueTrue
  | valueFalse
  | valueNull
  deriving DecidableEq

namespace JsonToken

def isNumeric : JsonToken → Bool
  | valueNumberInt | valueNumberFloat => true
  | _ => false

def isStructStart : JsonToken → Bool
  | startObject | startArray => true
  | _ => false

def isStructEnd : JsonToken → Bool
  | endObject | endArray => true
  | _ => false

end JsonToken

/-- The parser over its states. `nextToken` returns no token at the end of the text, and the other
methods speak of the token that it returned last. -/
structure JsonParser (State : Type) where
  createParser : Bytes → Except IOException State
  nextToken : State → Except IOException (Option JsonToken × State)
  getCurrentName : State → Except IOException (Option Bytes)
  getText : State → Except IOException Bytes
  getIntValue : State → Except IOException Int
  skipChildren : State → Except IOException State

/-! ## The order of tokens -/

/-- An open container: an array, or an object with or without a name whose value is to come. -/
inductive Frame
  | array
  | object (named : Bool)
  deriving DecidableEq

/-- The open containers once a value has begun, where one may stand. -/
def beginValue : List Frame → Option (List Frame)
  | [] => some []
  | .array :: fs => some (.array :: fs)
  | .object true :: fs => some (.object false :: fs)
  | .object false :: _ => none

/-- The open containers after one more token, the innermost first. -/
def order (fs : List Frame) : JsonToken → Option (List Frame)
  | .startObject => (beginValue fs).map (.object false :: ·)
  | .startArray => (beginValue fs).map (.array :: ·)
  | .endObject => match fs with
    | .object false :: fs => some fs
    | _ => none
  | .endArray => match fs with
    | .array :: fs => some fs
    | _ => none
  | .fieldName => match fs with
    | .object false :: fs => some (.object true :: fs)
    | _ => none
  | _ => beginValue fs

/-- The tokens end with the one that closes the last of `opened` containers. -/
def Closes : Nat → List JsonToken → Prop
  | opened, [] => opened = 0
  | opened, k :: ks => opened ≠ 0 ∧
    Closes (if k.isStructStart then opened + 1 else if k.isStructEnd then opened - 1 else opened) ks

/-! ## What the tokens show -/

/-- The characters that a string literal denotes. -/
def characters (items : List Item) : Bytes :=
  items.flatMap fun
    | .raw b _ => [b]
    | .short e => [e.meaning]
    | .unicode a b c d _ => unitBytes (Item.unit a b c d)

def minInt : Int := -2 ^ 31

def maxInt : Int := 2 ^ 31 - 1

/-- A number that is written as an integer and fits into an `int`. -/
def intLiteral (lit : Bytes) : Option Int :=
  (integerValue lit).filter fun n => minInt ≤ n && n ≤ maxInt

/-- A number as an `int`: for one with a fraction or an exponent this is `getDoubleValue` and then a
cast, and a number out of range is an overflow. -/
def intValue (lit : Bytes) : Option Int :=
  match integerValue lit with
  | some _ => intLiteral lit
  | none => (nearestDouble lit).bind fun x =>
      if (minInt : ℚ) ≤ x.toRat ∧ x.toRat ≤ (maxInt : ℚ) then some x.trunc else none

/-- The kind of token that is returned for a token of the text. -/
def JsonToken.ofText : Token → JsonToken
  | .startObject => .startObject
  | .endObject => .endObject
  | .startArray => .startArray
  | .endArray => .endArray
  | .fieldName _ => .fieldName
  | .string _ => .valueString
  | .number lit => if (integerValue lit).isSome then .valueNumberInt else .valueNumberFloat
  | .bool true => .valueTrue
  | .bool false => .valueFalse
  | .null => .valueNull

theorem JsonToken.isStructStart_ofText (t : Token) : (ofText t).isStructStart = t.opens := by
  cases t with
  | number lit =>
    simp only [ofText]
    split_ifs <;> rfl
  | bool b => cases b <;> rfl
  | _ => rfl

theorem JsonToken.isStructEnd_ofText (t : Token) : (ofText t).isStructEnd = t.closes := by
  cases t with
  | number lit =>
    simp only [ofText]
    split_ifs <;> rfl
  | bool b => cases b <;> rfl
  | _ => rfl

namespace JsonParser
variable {State : Type} (parser : JsonParser State)

/-- What can be read of the token that was returned last. -/
def Shows (s : State) : Token → Prop
  | .fieldName key => parser.getCurrentName s = .ok (some (characters key))
  | .string items => parser.getText s = .ok (characters items)
  | .number lit => parser.getIntValue s = orThrow (intValue lit)
  | _ => True

/-- The tokens of the text are returned one after the other. -/
def Returns : State → List Token → Prop
  | _, [] => True
  | s, t :: ts => ∃ s', parser.nextToken s = .ok (some (.ofText t), s') ∧ parser.Shows s' t ∧
      Returns s' ts

/-- A call of `nextToken` that returns the token. -/
def advance (s : State) (k : JsonToken) : Option State :=
  match parser.nextToken s with
  | .ok (some k', s') => if k' = k then some s' else none
  | _ => none

/-- Calls of `nextToken` that return the tokens. -/
abbrev Reads : State → List JsonToken → State → Prop := Run parser.advance anyStep

/-- What is documented. -/
structure Documented : Prop where
  /-- Tokens are produced lazily: those of an object at the start of the text are returned whatever
  comes after the object. -/
  lazy : ∀ {ms rest body}, StartsWithObject ms rest body →
    ∃ s, parser.createParser body = .ok s ∧ parser.Returns s (Tree.obj ms).tokens
  /-- An object has names and values by turns, an array has values, and each is ended by its own
  end. -/
  ordered : ∀ {body s₀ ks s}, parser.createParser body = .ok s₀ → parser.Reads s₀ ks s →
    (ks.foldlM order []).isSome = true
  /-- A text that is not well-formed makes `nextToken` throw: where the end of an object that starts
  the text has been returned, the text starts with an object. -/
  strict : ∀ {body s₀ ks s}, parser.createParser body = .ok s₀ →
    parser.Reads s₀ (.startObject :: ks) s →
    (JsonToken.startObject :: ks).foldlM order [] = some [] →
      ∃ ms rest, StartsWithObject ms rest body
  /-- The end of the text within a container makes `nextToken` throw. -/
  endOfInput : ∀ {body s₀ ks s s'}, parser.createParser body = .ok s₀ → parser.Reads s₀ ks s →
    parser.nextToken s = .ok (none, s') → ks.foldlM order [] = some []
  /-- A token has at least one character. -/
  finite : ∀ {body s₀ ks s}, parser.createParser body = .ok s₀ → parser.Reads s₀ ks s →
    ks.length ≤ body.length
  /-- `skipChildren` at the start of a container reads on to the matching end. -/
  skipsChildren : ∀ {s k s₁ s₂}, parser.nextToken s = .ok (some k, s₁) → k.isStructStart = true →
    (parser.skipChildren s₁ = .ok s₂ ↔ ∃ ks, Closes 1 ks ∧ parser.Reads s₁ ks s₂)

/-! ## Reading tokens -/

section
variable {parser}

theorem advance_eq_some {s s' : State} {k : JsonToken} :
    parser.advance s k = some s' ↔ parser.nextToken s = .ok (some k, s') := by
  unfold advance
  constructor
  · intro h
    split at h
    · rename_i k' s₁ hnext
      split_ifs at h with hk
      cases h
      rw [hnext, hk]
    · cases h
  · intro h
    simp [h]

/-- The tokens that are returned are read. -/
theorem Returns.reads {s : State} {ts ts' : List Token} (h : parser.Returns s (ts ++ ts')) :
    ∃ s', parser.Reads s (ts.map JsonToken.ofText) s' ∧ parser.Returns s' ts' := by
  induction ts generalizing s with
  | nil => exact ⟨s, .nil s, h⟩
  | cons t ts ih =>
    obtain ⟨s₁, hnext, -, hrest⟩ := h
    obtain ⟨s', hreads, hreturns⟩ := ih hrest
    exact ⟨s', .cons trivial (advance_eq_some.mpr hnext) hreads, hreturns⟩

end

end JsonParser

/-! ## Containers that close -/

theorem order_foldlM_append {fs : List Frame} {ks ks' : List JsonToken} :
    (ks ++ ks').foldlM order fs = (ks.foldlM order fs).bind fun fs' => ks'.foldlM order fs' := by
  rw [List.foldlM_append, Option.bind_eq_bind]

/-- A value that begins within a container leaves the containers open that are open. -/
theorem beginValue_length {f : Frame} {above base fs : List Frame}
    (h : beginValue (f :: above ++ base) = some fs) :
    ∃ above', fs = above' ++ base ∧ above'.length = above.length + 1 := by
  cases f with
  | array =>
    cases h
    exact ⟨.array :: above, rfl, rfl⟩
  | object named =>
    cases named with
    | false => cases h
    | true =>
      cases h
      exact ⟨.object false :: above, rfl, rfl⟩

/-- One token within the containers `above` opens one more of them, closes the innermost one or
leaves their number as it is. -/
theorem order_length {f : Frame} {above base fs : List Frame} {k : JsonToken}
    (h : order (f :: above ++ base) k = some fs) :
    ∃ above', fs = above' ++ base ∧ above'.length =
      if k.isStructStart then above.length + 1 + 1
      else if k.isStructEnd then above.length + 1 - 1 else above.length + 1 := by
  have hbegins : ∀ {g : Frame}, (beginValue (f :: above ++ base)).map (g :: ·) = some fs →
      ∃ above', fs = above' ++ base ∧ above'.length = above.length + 1 + 1 := by
    intro g hg
    obtain ⟨fs', hfs', rfl⟩ := Option.map_eq_some_iff.mp hg
    obtain ⟨above', rfl, hlength⟩ := beginValue_length hfs'
    exact ⟨g :: above', rfl, congrArg (· + 1) hlength⟩
  cases k with
  | startObject => exact hbegins h
  | startArray => exact hbegins h
  | endObject =>
    rcases f with _ | named
    · cases h
    · cases named with
      | true => cases h
      | false =>
        cases h
        exact ⟨above, rfl, rfl⟩
  | endArray =>
    rcases f with _ | named
    · cases h
      exact ⟨above, rfl, rfl⟩
    · cases h
  | fieldName =>
    rcases f with _ | named
    · cases h
    · cases named with
      | true => cases h
      | false =>
        cases h
        exact ⟨.object true :: above, rfl, rfl⟩
  | _ => exact beginValue_length h

/-- Closing the containers `above` leaves what was open under them. -/
theorem Closes.base {above base fs : List Frame} {ks : List JsonToken}
    (h : Closes above.length ks) (hks : ks.foldlM order (above ++ base) = some fs) : fs = base := by
  induction ks generalizing above with
  | nil =>
    rw [List.length_eq_zero_iff.mp h] at hks
    cases hks
    rfl
  | cons k ks ih =>
    obtain ⟨hopen, hrest⟩ := h
    obtain ⟨f, above, rfl⟩ := List.exists_cons_of_ne_nil (List.ne_nil_of_length_pos
      (Nat.pos_of_ne_zero hopen))
    rw [List.foldlM_cons, Option.bind_eq_bind] at hks
    obtain ⟨fs', horder, hks⟩ := Option.bind_eq_some_iff.mp hks
    obtain ⟨above', rfl, hlength⟩ := order_length horder
    refine ih ?_ hks
    rw [hlength]
    exact hrest

theorem closes_cons_token {n : Nat} {t : Token} {ks : List JsonToken}
    (h : Closes (if t.opens then n + 1 + 1 else if t.closes then n else n + 1) ks) :
    Closes (n + 1) (.ofText t :: ks) := by
  rw [← JsonToken.isStructStart_ofText, ← JsonToken.isStructEnd_ofText] at h
  exact ⟨Nat.succ_ne_zero n, h⟩

mutual

/-- A value closes every container that it opens. -/
theorem closes_tokens : (t : Tree) → {n : Nat} → {ks : List JsonToken} → Closes (n + 1) ks →
    Closes (n + 1) (t.tokens.map JsonToken.ofText ++ ks)
  | .null, _, _, h => closes_cons_token h
  | .bool _, _, _, h => closes_cons_token h
  | .num _, _, _, h => closes_cons_token h
  | .str _, _, _, h => closes_cons_token h
  | .arr ts, n, ks, h => by
    have hend : Closes (n + 1 + 1) (.ofText .endArray :: ks) := closes_cons_token h
    have hinner := closes_elems ts hend
    simp only [Tree.tokens, Tree.inner, List.map_cons, List.map_append, List.cons_append,
      List.append_assoc, List.map_nil, List.nil_append]
    exact closes_cons_token hinner
  | .obj ms, n, ks, h => by
    have hend : Closes (n + 1 + 1) (.ofText .endObject :: ks) := closes_cons_token h
    have hinner := closes_members ms hend
    simp only [Tree.tokens, Tree.inner, List.map_cons, List.map_append, List.cons_append,
      List.append_assoc, List.map_nil, List.nil_append]
    exact closes_cons_token hinner

theorem closes_elems : (ts : List Tree) → {n : Nat} → {ks : List JsonToken} → Closes (n + 1) ks →
    Closes (n + 1) ((elemsTokens ts).map JsonToken.ofText ++ ks)
  | [], _, _, h => h
  | t :: ts, _, _, h => by
    have hfirst := closes_tokens t (closes_elems ts h)
    rwa [Tree.tokens, ← List.append_assoc, ← List.map_append, List.cons_append] at hfirst

theorem closes_members : (ms : List (List Item × Tree)) → {n : Nat} → {ks : List JsonToken} →
    Closes (n + 1) ks → Closes (n + 1) ((membersTokens ms).map JsonToken.ofText ++ ks)
  | [], _, _, h => h
  | (key, t) :: ms, n, _, h => by
    have hfirst := closes_tokens t (closes_members ms h)
    rw [Tree.tokens, ← List.append_assoc, ← List.map_append, List.cons_append] at hfirst
    have hname : Closes (n + 1) (.ofText (.fieldName key) :: _) := closes_cons_token hfirst
    exact hname

end

/-- What follows the first token of a container ends with its end. -/
theorem closes_inner {t : Tree} (h : t.token.opens = true) :
    Closes 1 (t.inner.map JsonToken.ofText) := by
  cases t with
  | arr ts =>
    have hend : Closes 1 [.ofText .endArray] := closes_cons_token rfl
    simpa [Tree.inner] using closes_elems ts hend
  | obj ms =>
    have hend : Closes 1 [.ofText .endObject] := closes_cons_token rfl
    simpa [Tree.inner] using closes_members ms hend
  | _ => cases h

/-- An open container that is not open in the end is closed on the way. -/
theorem exists_closes (above : List Frame) {base : List Frame} {ks : List JsonToken}
    (hks : ks.foldlM order (above ++ base) = some base) :
    ∃ ks₁ ks₂, ks = ks₁ ++ ks₂ ∧ Closes above.length ks₁ := by
  induction ks generalizing above with
  | nil =>
    have hnil : above = [] := List.append_left_eq_self.mp (Option.some.inj hks)
    exact ⟨[], [], rfl, congrArg List.length hnil⟩
  | cons k ks ih =>
    cases above with
    | nil => exact ⟨[], k :: ks, rfl, rfl⟩
    | cons f above =>
      rw [List.foldlM_cons, Option.bind_eq_bind] at hks
      obtain ⟨fs', horder, hks⟩ := Option.bind_eq_some_iff.mp hks
      obtain ⟨above', rfl, hlength⟩ := order_length horder
      obtain ⟨ks₁, ks₂, rfl, hcloses⟩ := ih above' hks
      rw [hlength] at hcloses
      exact ⟨k :: ks₁, ks₂, rfl, by simp, hcloses⟩

/-! ## One call -/

namespace JsonParser.Documented
variable {State : Type} {parser : JsonParser State} (hdoc : parser.Documented) {body : Bytes}
  {s₀ s s' : State} {ks : List JsonToken} {fs : List Frame}
  (hcreate : parser.createParser body = .ok s₀) (hreads : parser.Reads s₀ ks s)
include hdoc hcreate hreads

/-- **One call of `nextToken`**: a token that may come next, or none when no container is open. -/
theorem next {token : Option JsonToken} (hfs : ks.foldlM order [] = some fs)
    (hnext : parser.nextToken s = .ok (token, s')) : token = none ∧ fs = [] ∨
      ∃ k fs', token = some k ∧ order fs k = some fs' ∧ parser.Reads s₀ (ks ++ [k]) s' ∧
        (ks ++ [k]).foldlM order [] = some fs' := by
  cases token with
  | none =>
    have hnil := hdoc.endOfInput hcreate hreads hnext
    rw [hfs] at hnil
    exact .inl ⟨rfl, Option.some.inj hnil⟩
  | some k =>
    have hmore : parser.Reads s₀ (ks ++ [k]) s' :=
      hreads.snoc trivial (advance_eq_some.mpr hnext)
    obtain ⟨fs', hfs'⟩ := Option.isSome_iff_exists.mp (hdoc.ordered hcreate hmore)
    have horder := hfs'
    rw [order_foldlM_append, hfs, Option.bind_some, List.foldlM_cons] at horder
    obtain ⟨fs₁, hfs₁, he⟩ := Option.bind_eq_some_iff.mp horder
    cases he
    exact .inr ⟨k, fs', rfl, hfs₁, hmore, hfs'⟩

/-- **One call of `skipChildren`** at the start of a container: only what was open around it is
open. -/
theorem skip {s₁ : State} {f : Frame} {k : JsonToken} (hfs : ks.foldlM order [] = some (f :: fs))
    (hlast : parser.nextToken s₁ = .ok (some k, s)) (hopens : k.isStructStart = true)
    (hskip : parser.skipChildren s = .ok s') :
    ∃ ks', parser.Reads s₀ (ks ++ ks') s' ∧ (ks ++ ks').foldlM order [] = some fs := by
  obtain ⟨ks', hcloses, hskipped⟩ := (hdoc.skipsChildren hlast hopens).mp hskip
  have hmore := hreads.append hskipped
  obtain ⟨fs', hfs'⟩ := Option.isSome_iff_exists.mp (hdoc.ordered hcreate hmore)
  refine ⟨ks', hmore, ?_⟩
  have hinner := hfs'
  rw [order_foldlM_append, hfs, Option.bind_some] at hinner
  have hclosed : Closes [f].length ks' := hcloses
  rw [hfs', hclosed.base hinner]

end JsonParser.Documented

/-- The value of a member leaves the object open, under the container that it may open. -/
theorem order_member {fs : List Frame} {k : JsonToken} (h : order [.object true] k = some fs) :
    if k.isStructStart then ∃ f, fs = [f, .object false] else fs = [.object false] := by
  cases k with
  | startObject =>
    cases h
    exact ⟨_, rfl⟩
  | startArray =>
    cases h
    exact ⟨_, rfl⟩
  | endObject => cases h
  | endArray => cases h
  | fieldName => cases h
  | _ =>
    cases h
    rfl

end OppexSdk.Java
