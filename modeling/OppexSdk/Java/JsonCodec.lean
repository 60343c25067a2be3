import OppexSdk.Java.TokenParser

/-! # Reading a response in Java

`JsonCodec.parseResponse` of `java/sdk-http` over Jackson's streaming parser, with every
`IOException` turned into an `IncidentException`. -/
namespace OppexSdk.Java.JsonCodec
open OppexSdk.Lib OppexSdk.Lib.Json OppexSdk.Lib.Transition

/-- `String.trim`. -/
def trim (s : Bytes) : Bytes := (s.dropWhile (· ≤ 0x20)).rdropWhile (· ≤ 0x20)

/-! ## `parseResponse` -/

structure IncidentResponse where
  successful : Bool
  code : Int
  message : Option Bytes
  incidentId : Option Bytes
  deriving DecidableEq

/-- An `IncidentException`, without its cause. -/
structure IncidentException where
  message : Bytes
  statusCode : Int
  retryable : Bool

def malformed : IncidentException :=
  ⟨bytes "Oppex returned a malformed JSON response", -1, false⟩

/-- What the status says alone. -/
def ofStatus (httpStatus : Int) : IncidentResponse :=
  ⟨200 ≤ httpStatus && httpStatus < 300, httpStatus, none, none⟩

section
variable {State : Type} (parser : JsonParser State)

/-- The body of the loop, after the two tokens. -/
def readValue (fieldName : Option Bytes) (valueToken : Option JsonToken) (s : State)
    (r : IncidentResponse) : Except IOException (IncidentResponse × State) :=
  if fieldName = some (bytes "success") ∧ valueToken = some .valueTrue then
    .ok ({ r with successful := true }, s)
  else if fieldName = some (bytes "success") ∧ valueToken = some .valueFalse then
    .ok ({ r with successful := false }, s)
  else if fieldName = some (bytes "code") ∧ valueToken.any JsonToken.isNumeric then
    (parser.getIntValue s).map fun n => ({ r with code := n }, s)
  else if fieldName = some (bytes "message") ∧ valueToken = some .valueString then
    (parser.getText s).map fun text => ({ r with message := some text }, s)
  else if fieldName = some (bytes "data") ∧ valueToken = some .valueString then
    (parser.getText s).map fun text => ({ r with incidentId := some text }, s)
  else if valueToken = some .startArray ∨ valueToken = some .startObject then
    (parser.skipChildren s).map fun s => (r, s)
  else .ok (r, s)

/-- The loop, with nothing returned when `fuel` turns are not enough. -/
def readMembers : Nat → State → IncidentResponse → Except IOException (Option IncidentResponse)
  | 0, _, _ => .ok none
  | fuel + 1, s, r => do
    let (token, s) ← parser.nextToken s
    if token = some .endObject then return some r
    let fieldName ← parser.getCurrentName s
    let (valueToken, s) ← parser.nextToken s
    let (r, s) ← readValue parser fieldName valueToken s r
    readMembers fuel s r

/-- The `catch`. -/
def caught {α : Type} (result : Except IOException α) : Except IncidentException α :=
  result.mapError fun _ => malformed

/-- Nothing is returned when the loop takes more than `fuel` turns. -/
def parseResponse (fuel : Nat) (body : Option Bytes) (httpStatus : Int) :
    Except IncidentException (Option IncidentResponse) :=
  match body with
  | none => .ok (some (ofStatus httpStatus))
  | some body =>
    if trim body = [] then .ok (some (ofStatus httpStatus))
    else do
      let s ← caught (parser.createParser body)
      let (token, s) ← caught (parser.nextToken s)
      if token ≠ some .startObject then throw malformed
      caught (readMembers parser fuel s (ofStatus httpStatus))

/-- The call ends with the result. -/
def Ends (body : Option Bytes) (httpStatus : Int)
    (result : Except IncidentException IncidentResponse) : Prop :=
  ∃ n, ∀ fuel, n ≤ fuel → parseResponse parser fuel body httpStatus = result.map some

end

/-! ## What is promised -/

def asBool : Tree → Option Bool
  | .bool b => some b
  | _ => none

/-- A number, by how numbers are read. -/
def asNumber (read : Bytes → Option Int) : Tree → Option Int
  | .num lit => read lit
  | _ => none

def asString : Tree → Option Bytes
  | .str items => some (characters items)
  | _ => none

/-- The last member of the name that has the type. -/
def lastTyped {α : Type} (name : Bytes) (as : Tree → Option α) (ms : List (List Item × Tree)) :
    Option α :=
  ms.reverse.findSome? fun m => if characters m.1 = name then as m.2 else none

def codeBy (read : Bytes → Option Int) (httpStatus : Int) (ms : List (List Item × Tree)) : Int :=
  (lastTyped (bytes "code") (asNumber read) ms).getD httpStatus

/-- The response that the members of an object stand for. -/
def reading (read : Bytes → Option Int) (httpStatus : Int) (ms : List (List Item × Tree)) :
    IncidentResponse where
  successful := (lastTyped (bytes "success") asBool ms).getD (ofStatus httpStatus).successful
  code := codeBy read httpStatus ms
  message := lastTyped (bytes "message") asString ms
  incidentId := lastTyped (bytes "data") asString ms

/-- The body is read when it is one object and nothing else, and then by the members that have the
type of their field; an `int` is a number written as an integer. Every other body is refused. -/
structure ReadsObjects {State : Type} (parser : JsonParser State) (body : Bytes)
    (httpStatus : Int) : Prop where
  accepts : (∃ r, Ends parser (some body) httpStatus (.ok r)) ↔
    ∃ ms, Document JsonNumber (.obj ms) body
  refuses : (∃ e, Ends parser (some body) httpStatus (.error e)) ↔
    ¬ ∃ ms, Document JsonNumber (.obj ms) body
  reads : ∀ ms r, Document JsonNumber (.obj ms) body →
    Ends parser (some body) httpStatus (.ok r) → r = reading intLiteral httpStatus ms

/-- No number that is given as the code makes `getIntValue` throw. -/
def CodesFit (ms : List (List Item × Tree)) : Prop :=
  ∀ m ∈ ms, characters m.1 = bytes "code" → ∀ lit, m.2 = .num lit → (intValue lit).isSome = true

/-- What the loop makes of one member; `none` when `getIntValue` throws. -/
def assignMember (r : IncidentResponse) (m : List Item × Tree) : Option IncidentResponse :=
  match m.2 with
  | .bool b =>
    some (if characters m.1 = bytes "success" then { r with successful := b } else r)
  | .num lit =>
    if characters m.1 = bytes "code" then (intValue lit).map fun n => { r with code := n }
    else some r
  | .str items => some (
    if characters m.1 = bytes "message" then { r with message := some (characters items) }
    else if characters m.1 = bytes "data" then { r with incidentId := some (characters items) }
    else r)
  | _ => some r

/-! ## One value -/

section
variable {State : Type} {parser : JsonParser State}

/-- Where the parser is after the body of the loop: the children of a container are skipped. -/
theorem readValue_state {fieldName : Option Bytes} {k : JsonToken} {s s' : State}
    {r r' : IncidentResponse} (h : readValue parser fieldName (some k) s r = .ok (r', s')) :
    if k.isStructStart then parser.skipChildren s = .ok s' else s' = s := by
  have hmap : ∀ {α : Type} {x : Except IOException α} {f : α → IncidentResponse},
      (x.map fun a => (f a, s)) = .ok (r', s') → s' = s := by
    intro α x f hx
    cases x with
    | error e => cases hx
    | ok a =>
      cases hx
      rfl
  unfold readValue at h
  split_ifs at h with h₁ h₂ h₃ h₄ h₅ h₆
  · cases h
    cases h₁.2
    rfl
  · cases h
    cases h₂.2
    rfl
  · have hk : k.isStructStart = false := by
      cases k <;> first | rfl | cases h₃.2
    rw [hk]
    exact hmap h
  · cases h₄.2
    exact hmap h
  · cases h₅.2
    exact hmap h
  · have hk : k.isStructStart = true := by
      rcases h₆ with hk | hk <;> cases hk <;> rfl
    rw [if_pos hk]
    cases hskip : parser.skipChildren s with
    | error e =>
      rw [hskip] at h
      cases h
    | ok s₁ =>
      rw [hskip] at h
      cases h
      rfl
  · cases h
    have hk : k.isStructStart = false := by
      cases k <;> first | rfl | exact absurd (by simp) h₆
    rw [hk]
    rfl

theorem ofText_number (lit : Bytes) : JsonToken.ofText (.number lit) = .valueNumberInt ∨
    JsonToken.ofText (.number lit) = .valueNumberFloat := by
  simp only [JsonToken.ofText]
  split_ifs
  · exact .inl rfl
  · exact .inr rfl

/-- The loop's body on a number: under the name of the code it is read as an `int`. -/
theorem readValue_number {s : State} (key : List Item) (lit : Bytes) (r : IncidentResponse)
    (hint : parser.getIntValue s = orThrow (intValue lit)) :
    readValue parser (some (characters key)) (some (.ofText (.number lit))) s r =
      (orThrow (assignMember r (key, .num lit))).map fun r' => (r', s) := by
  by_cases hkey : characters key = bytes "code"
  · have hread : readValue parser (some (characters key)) (some (.ofText (.number lit))) s r =
        (orThrow (intValue lit)).map fun n => ({ r with code := n }, s) := by
      rcases ofText_number lit with hkind | hkind <;>
        simp [readValue, hkind, hkey, hint, JsonToken.isNumeric]
    simp only [hread, assignMember, if_pos hkey]
    cases intValue lit <;> rfl
  · have hread : readValue parser (some (characters key)) (some (.ofText (.number lit))) s r =
        .ok (r, s) := by
      rcases ofText_number lit with hkind | hkind <;> simp [readValue, hkind, hkey]
    simp only [hread, assignMember, if_neg hkey]
    rfl

/-- The loop's body on a value of the text. -/
theorem readValue_member (hdoc : parser.Documented) {s₁ s : State} (key : List Item) {t : Tree}
    {ts : List Token} (r : IncidentResponse)
    (hnext : parser.nextToken s₁ = .ok (some (.ofText t.token), s))
    (hshows : parser.Shows s t.token) (hrest : parser.Returns s (t.inner ++ ts)) :
    ∃ s', readValue parser (some (characters key)) (some (.ofText t.token)) s r =
        (orThrow (assignMember r (key, t))).map (fun r' => (r', s')) ∧ parser.Returns s' ts := by
  have hnames : bytes "message" ≠ bytes "data" := by decide
  have hskip : t.token.opens = true →
      ∃ s', parser.skipChildren s = .ok s' ∧ parser.Returns s' ts := by
    intro hopens
    obtain ⟨s', hreads, hreturns⟩ := hrest.reads
    rw [← JsonToken.isStructStart_ofText] at hopens
    exact ⟨s', (hdoc.skipsChildren hnext hopens).mpr
      ⟨_, closes_inner (by rwa [JsonToken.isStructStart_ofText] at hopens), hreads⟩, hreturns⟩
  cases t with
  | null =>
    refine ⟨s, ?_, hrest⟩
    simp [readValue, assignMember, orThrow, Tree.token, JsonToken.ofText, JsonToken.isNumeric,
      Except.map]
  | bool b =>
    refine ⟨s, ?_, hrest⟩
    cases b <;> by_cases hkey : characters key = bytes "success" <;>
      simp [readValue, assignMember, orThrow, Tree.token, JsonToken.ofText, JsonToken.isNumeric,
        hkey, Except.map]
  | num lit => exact ⟨s, readValue_number key lit r hshows, hrest⟩
  | str items =>
    refine ⟨s, ?_, hrest⟩
    have htext : parser.getText s = .ok (characters items) := hshows
    by_cases hmessage : characters key = bytes "message"
    · simp [readValue, assignMember, orThrow, Tree.token, JsonToken.ofText, JsonToken.isNumeric,
        hmessage, htext, Except.map]
    · by_cases hdata : characters key = bytes "data" <;>
        simp [readValue, assignMember, orThrow, Tree.token, JsonToken.ofText, JsonToken.isNumeric,
          hmessage, hdata, hnames.symm, htext, Except.map]
  | arr ts' =>
    obtain ⟨s', hs', hreturns⟩ := hskip rfl
    refine ⟨s', ?_, hreturns⟩
    simp [readValue, assignMember, orThrow, Tree.token, JsonToken.ofText, JsonToken.isNumeric, hs',
      Except.map]
  | obj ms =>
    obtain ⟨s', hs', hreturns⟩ := hskip rfl
    refine ⟨s', ?_, hreturns⟩
    simp [readValue, assignMember, orThrow, Tree.token, JsonToken.ofText, JsonToken.isNumeric, hs',
      Except.map]

/-! ## The loop and the members of the object -/

/-- The loop takes the members one after the other. -/
theorem readMembers_object (hdoc : parser.Documented) {ms : List (List Item × Tree)} {fuel : Nat}
    {s : State} {r : IncidentResponse} (hfuel : ms.length < fuel)
    (h : parser.Returns s (membersTokens ms ++ [.endObject])) :
    readMembers parser fuel s r = (orThrow (ms.foldlM assignMember r)).map some := by
  induction ms generalizing fuel s r with
  | nil =>
    obtain ⟨fuel, rfl⟩ := Nat.exists_eq_succ_of_ne_zero (Nat.ne_zero_of_lt hfuel)
    obtain ⟨s', hend, -⟩ := h
    simp only [readMembers, hend, JsonToken.ofText]
    rfl
  | cons m ms ih =>
    obtain ⟨key, t⟩ := m
    obtain ⟨fuel, rfl⟩ := Nat.exists_eq_succ_of_ne_zero (Nat.ne_zero_of_lt hfuel)
    rw [membersTokens, List.cons_append, List.cons_append, List.append_assoc] at h
    obtain ⟨s₁, hfirst, hkey, s₂, hvalue, hshows, hrest⟩ := h
    have hname : parser.nextToken s = .ok (some .fieldName, s₁) := hfirst
    have hcurrent : parser.getCurrentName s₁ = .ok (some (characters key)) := hkey
    obtain ⟨s', hread, hreturns⟩ := readValue_member hdoc key r hvalue hshows hrest
    rw [List.foldlM_cons]
    simp only [readMembers, hname, hvalue, hcurrent, hread, bind, Except.bind,
      Option.some.injEq, reduceCtorEq, if_false]
    cases assignMember r (key, t) with
    | none => rfl
    | some r' => exact ih (by simpa using hfuel) hreturns

section
variable (hdoc : parser.Documented) {body : Bytes} {s₀ s s₁ : State} {ks : List JsonToken}
  (hcreate : parser.createParser body = .ok s₀)
include hdoc hcreate

/-- A turn of the loop over a text without an object at its start begins with a name. -/
theorem token_name (hwithout : ¬ ∃ ms rest, StartsWithObject ms rest body)
    {token : Option JsonToken} (hreads : parser.Reads s₀ (.startObject :: ks) s)
    (hopen : (JsonToken.startObject :: ks).foldlM order [] = some [.object false])
    (hnext : parser.nextToken s = .ok (token, s₁)) : token = some .fieldName ∧
      parser.Reads s₀ (.startObject :: (ks ++ [.fieldName])) s₁ ∧
      (JsonToken.startObject :: (ks ++ [.fieldName])).foldlM order [] = some [.object true] := by
  rcases hdoc.next hcreate hreads hopen hnext with ⟨-, hnil⟩ | ⟨k, fs, rfl, horder, hreads₁, hfs⟩
  · cases hnil
  · cases k with
    | endObject =>
      cases horder
      exact absurd (hdoc.strict hcreate hreads₁ hfs) hwithout
    | fieldName =>
      cases horder
      exact ⟨rfl, hreads₁, hfs⟩
    | _ => cases horder

/-- The value of the member is read and skipped to its end. -/
theorem readValue_open {fieldName : Option Bytes} {valueToken : Option JsonToken} {s₂ s₃ : State}
    {r r' : IncidentResponse} (hreads : parser.Reads s₀ ks s₁)
    (hopen : ks.foldlM order [] = some [.object true])
    (hnext : parser.nextToken s₁ = .ok (valueToken, s₂))
    (hread : readValue parser fieldName valueToken s₂ r = .ok (r', s₃)) :
    ∃ ks', parser.Reads s₀ (ks ++ ks') s₃ ∧
      (ks ++ ks').foldlM order [] = some [.object false] := by
  rcases hdoc.next hcreate hreads hopen hnext with ⟨-, hnil⟩ | ⟨k, fs, rfl, horder, hreads₂, hfs⟩
  · cases hnil
  · have hstate := readValue_state hread
    have hmember := order_member horder
    cases hstart : k.isStructStart with
    | true =>
      rw [hstart, if_pos rfl] at hstate hmember
      obtain ⟨f, rfl⟩ := hmember
      obtain ⟨ks', hskipped, hfs'⟩ := hdoc.skip hcreate hreads₂ hfs hnext hstart hstate
      rw [List.append_assoc] at hskipped hfs'
      exact ⟨_, hskipped, hfs'⟩
    | false =>
      rw [hstart, if_neg Bool.false_ne_true] at hstate hmember
      subst hstate hmember
      exact ⟨[k], hreads₂, hfs⟩

/-- **Without an object at the start of the text the loop throws.** At every turn the parser is
between two members of the object that it has begun, and a turn takes one token at least. -/
theorem readMembers_throws (hwithout : ¬ ∃ ms rest, StartsWithObject ms rest body) {fuel : Nat}
    {r : IncidentResponse} (hreads : parser.Reads s₀ (.startObject :: ks) s)
    (hopen : (JsonToken.startObject :: ks).foldlM order [] = some [.object false])
    (hfuel : body.length < fuel + ks.length) : readMembers parser fuel s r = .error ⟨⟩ := by
  induction fuel generalizing s ks r with
  | zero =>
    have hlength := hdoc.finite hcreate hreads
    rw [List.length_cons] at hlength
    omega
  | succ fuel ih =>
    rw [readMembers]
    cases hname : parser.nextToken s with
    | error e => rfl
    | ok p =>
      obtain ⟨token, s₁⟩ := p
      obtain ⟨rfl, hreads₁, hopen₁⟩ := token_name hdoc hcreate hwithout hreads hopen hname
      show (do
        let fieldName ← parser.getCurrentName s₁
        let (valueToken, s) ← parser.nextToken s₁
        let (r, s) ← readValue parser fieldName valueToken s r
        readMembers parser fuel s r) = _
      cases parser.getCurrentName s₁ with
      | error e => rfl
      | ok fieldName =>
        cases hvalue : parser.nextToken s₁ with
        | error e => rfl
        | ok p =>
          obtain ⟨valueToken, s₂⟩ := p
          show (readValue parser fieldName valueToken s₂ r >>= fun p =>
            readMembers parser fuel p.2 p.1) = _
          cases hread : readValue parser fieldName valueToken s₂ r with
          | error e => rfl
          | ok p =>
            obtain ⟨r', s₃⟩ := p
            obtain ⟨ks', hreads', hopen'⟩ := readValue_open hdoc hcreate hreads₁ hopen₁ hvalue hread
            have hlength : body.length < fuel + (ks ++ [JsonToken.fieldName] ++ ks').length := by
              simp only [List.length_append, List.length_singleton]
              omega
            exact ih hreads' hopen' hlength

end

/-! ## How a call ends -/

theorem Ends.unique {body : Option Bytes} {httpStatus : Int}
    {result result' : Except IncidentException IncidentResponse}
    (h : Ends parser body httpStatus result) (h' : Ends parser body httpStatus result') :
    result' = result := by
  obtain ⟨n, hn⟩ := h
  obtain ⟨n', hn'⟩ := h'
  have heq := (hn' (max n n') (le_max_right n n')).symm.trans (hn (max n n') (le_max_left n n'))
  cases result <;> cases result' <;> cases heq <;> rfl

section
variable {body : Bytes} (hblank : trim body ≠ []) (httpStatus : Int)
include hblank

/-- The call after the first token. -/
theorem parseResponse_first {s s₁ : State} {token : Option JsonToken} (fuel : Nat)
    (hcreate : parser.createParser body = .ok s) (hfirst : parser.nextToken s = .ok (token, s₁)) :
    parseResponse parser fuel (some body) httpStatus =
      if token = some .startObject then caught (readMembers parser fuel s₁ (ofStatus httpStatus))
      else .error malformed := by
  simp only [parseResponse, if_neg hblank, hcreate, caught, Except.mapError, bind, Except.bind,
    hfirst, ne_eq, ite_not]
  rfl

variable (hdoc : parser.Documented)
include hdoc

/-- **A body that starts with an object is read by the members of the object**, whatever follows
it. -/
theorem ends_object {ms : List (List Item × Tree)} {rest : Bytes}
    (hstart : StartsWithObject ms rest body) :
    Ends parser (some body) httpStatus
      (caught (orThrow (ms.foldlM assignMember (ofStatus httpStatus)))) := by
  obtain ⟨s, hcreate, s₁, hfirst, -, hmembers⟩ := hdoc.lazy hstart
  have htoken : some (JsonToken.ofText (Tree.obj ms).token) = some .startObject := rfl
  refine ⟨ms.length + 1, ?_⟩
  intro fuel hfuel
  rw [parseResponse_first hblank httpStatus fuel hcreate hfirst, if_pos htoken,
    readMembers_object hdoc hfuel hmembers]
  cases ms.foldlM assignMember (ofStatus httpStatus) <;> rfl

/-- **Any other body is refused.** -/
theorem ends_malformed (hwithout : ¬ ∃ ms rest, StartsWithObject ms rest body) :
    Ends parser (some body) httpStatus (.error malformed) := by
  refine ⟨body.length + 1, ?_⟩
  intro fuel hfuel
  cases hcreate : parser.createParser body with
  | error e =>
    simp only [parseResponse, if_neg hblank, hcreate]
    rfl
  | ok s =>
    cases hfirst : parser.nextToken s with
    | error e =>
      simp only [parseResponse, if_neg hblank, hcreate, caught, Except.mapError, bind, Except.bind,
        hfirst]
      rfl
    | ok p =>
      obtain ⟨token, s₁⟩ := p
      rw [parseResponse_first hblank httpStatus fuel hcreate hfirst]
      split_ifs with hstart
      · subst hstart
        have hreads : parser.Reads s [.startObject] s₁ :=
          .cons trivial (JsonParser.advance_eq_some.mpr hfirst) (.nil _)
        have hlength : body.length < fuel + ([] : List JsonToken).length := hfuel
        rw [readMembers_throws hdoc hcreate hwithout hreads rfl hlength]
        rfl
      · rfl

end

/-- What is read is an object at the start of the body, member by member. -/
theorem ends_ok_iff {body : Bytes} (hblank : trim body ≠ []) (hdoc : parser.Documented)
    (httpStatus : Int) (r : IncidentResponse) : Ends parser (some body) httpStatus (.ok r) ↔
      ∃ ms rest, StartsWithObject ms rest body ∧
        ms.foldlM assignMember (ofStatus httpStatus) = some r := by
  constructor
  · intro h
    by_cases hstart : ∃ ms rest, StartsWithObject ms rest body
    · obtain ⟨ms, rest, hstart⟩ := hstart
      have heq := (ends_object hblank httpStatus hdoc hstart).unique h
      refine ⟨ms, rest, hstart, ?_⟩
      cases hfold : ms.foldlM assignMember (ofStatus httpStatus) with
      | none =>
        rw [hfold] at heq
        cases heq
      | some r' =>
        rw [hfold] at heq
        cases heq
        rfl
    · cases (ends_malformed hblank httpStatus hdoc hstart).unique h
  · intro hex
    obtain ⟨ms, rest, hstart, hfold⟩ := hex
    have hends := ends_object hblank httpStatus hdoc hstart
    rwa [hfold] at hends

/-- Every call ends. -/
theorem ends_total {body : Bytes} (hblank : trim body ≠ []) (hdoc : parser.Documented)
    (httpStatus : Int) : ∃ result, Ends parser (some body) httpStatus result := by
  by_cases hstart : ∃ ms rest, StartsWithObject ms rest body
  · obtain ⟨ms, rest, hstart⟩ := hstart
    exact ⟨_, ends_object hblank httpStatus hdoc hstart⟩
  · exact ⟨_, ends_malformed hblank httpStatus hdoc hstart⟩

theorem ends_error_iff {body : Bytes} (hblank : trim body ≠ []) (hdoc : parser.Documented)
    (httpStatus : Int) : (∃ e, Ends parser (some body) httpStatus (.error e)) ↔
      ¬ ∃ r, Ends parser (some body) httpStatus (.ok r) := by
  constructor
  · intro hex hex'
    obtain ⟨e, he⟩ := hex
    obtain ⟨r, hr⟩ := hex'
    cases he.unique hr
  · intro hnone
    obtain ⟨result, hends⟩ := ends_total hblank hdoc httpStatus
    cases result with
    | error e => exact ⟨e, hends⟩
    | ok r => exact absurd ⟨r, hends⟩ hnone

end

/-! ## The members taken one after the other -/

theorem lastTyped_concat {α : Type} (name : Bytes) (as : Tree → Option α)
    (ms : List (List Item × Tree)) (m : List Item × Tree) :
    lastTyped name as (ms ++ [m]) =
      (if characters m.1 = name then as m.2 else none).or (lastTyped name as ms) := by
  unfold lastTyped
  rw [List.reverse_append, List.reverse_singleton, List.singleton_append, List.findSome?_cons]
  split
  · rename_i h
    rw [h, Option.some_or]
  · rename_i h
    rw [h, Option.none_or]

theorem reading_concat (httpStatus : Int) (ms : List (List Item × Tree)) (key : List Item)
    (t : Tree) : reading intValue httpStatus (ms ++ [(key, t)]) =
      let r := reading intValue httpStatus ms
      let typed {α : Type} (name : Bytes) (as : Tree → Option α) : Option α :=
        if characters key = name then as t else none
      { successful := (typed (bytes "success") asBool).getD r.successful
        code := (typed (bytes "code") (asNumber intValue)).getD r.code
        message := (typed (bytes "message") asString).or r.message
        incidentId := (typed (bytes "data") asString).or r.incidentId } := by
  simp only [reading, codeBy, lastTyped_concat, Option.getD_or]

/-- One more member. -/
theorem assignMember_reading (httpStatus : Int) (ms : List (List Item × Tree)) (key : List Item)
    (t : Tree) (r : IncidentResponse) :
    assignMember (reading intValue httpStatus ms) (key, t) = some r ↔
      (characters key = bytes "code" → ∀ lit, t = .num lit → (intValue lit).isSome = true) ∧
        r = reading intValue httpStatus (ms ++ [(key, t)]) := by
  have hnames : bytes "message" ≠ bytes "data" := by decide
  have hiff : ∀ {p : Prop} {a : IncidentResponse}, p → (some a = some r ↔ p ∧ r = a) :=
    fun hp => by rw [and_iff_right hp, Option.some.injEq, eq_comm]
  rw [reading_concat]
  simp only [assignMember]
  generalize reading intValue httpStatus ms = r'
  cases t with
  | null => simpa [asBool, asNumber, asString] using hiff trivial
  | arr ts => simpa [asBool, asNumber, asString] using hiff trivial
  | obj ms' => simpa [asBool, asNumber, asString] using hiff trivial
  | bool b =>
    by_cases hkey : characters key = bytes "success"
    · simpa [asBool, asNumber, asString, hkey] using hiff trivial
    · simpa [asBool, asNumber, asString, hkey] using hiff trivial
  | num lit =>
    by_cases hkey : characters key = bytes "code"
    · cases hint : intValue lit with
      | none => simp [hkey, hint]
      | some n => simpa [asBool, asNumber, asString, hkey, hint] using hiff trivial
    · simpa [asBool, asNumber, asString, hkey] using hiff trivial
  | str items =>
    by_cases hmessage : characters key = bytes "message"
    · simpa [asBool, asNumber, asString, hmessage, hnames] using hiff trivial
    · by_cases hdata : characters key = bytes "data"
      · simpa [asBool, asNumber, asString, hdata, hnames.symm] using hiff trivial
      · simpa [asBool, asNumber, asString, hmessage, hdata] using hiff trivial

/-- What the loop has read is the reading of the members it has seen. -/
theorem foldlM_assignMember (httpStatus : Int) (ms : List (List Item × Tree))
    (r : IncidentResponse) : ms.foldlM assignMember (ofStatus httpStatus) = some r ↔
      CodesFit ms ∧ r = reading intValue httpStatus ms := by
  induction ms using List.reverseRecOn generalizing r with
  | nil =>
    have hfit : CodesFit [] := fun _ h => (List.not_mem_nil h).elim
    rw [and_iff_right hfit, List.foldlM_nil]
    exact ⟨fun h => (Option.some.inj h).symm, fun h => congrArg some h.symm⟩
  | append_singleton ms m ih =>
    obtain ⟨key, t⟩ := m
    have hsplit : CodesFit (ms ++ [(key, t)]) ↔ CodesFit ms ∧
        (characters key = bytes "code" → ∀ lit, t = .num lit → (intValue lit).isSome = true) := by
      unfold CodesFit
      rw [List.forall_mem_append, List.forall_mem_singleton]
    have hstep : (ms ++ [(key, t)]).foldlM assignMember (ofStatus httpStatus) = some r ↔
        CodesFit ms ∧ assignMember (reading intValue httpStatus ms) (key, t) = some r := by
      simp only [List.foldlM_append, List.foldlM_cons, List.foldlM_nil, bind_pure]
      rw [Option.bind_eq_bind, Option.bind_eq_some_iff]
      constructor
      · intro hex
        obtain ⟨r', hr', hassign⟩ := hex
        obtain ⟨hfit, rfl⟩ := (ih r').mp hr'
        exact ⟨hfit, hassign⟩
      · intro hboth
        obtain ⟨hfit, hassign⟩ := hboth
        exact ⟨_, (ih _).mpr ⟨hfit, rfl⟩, hassign⟩
    rw [hstep, hsplit, and_assoc]
    exact and_congr_right fun _ => assignMember_reading httpStatus ms key t r

/-! ## Bodies that start with an object -/

section
variable {State : Type} {parser : JsonParser State} (hdoc : parser.Documented) {body rest : Bytes}
  {ms : List (List Item × Tree)} (hstart : StartsWithObject ms rest body)
include hstart

theorem document_object : (∃ ms', Document JsonNumber (.obj ms') body) ↔ Ws rest := by
  constructor
  · intro hex
    obtain ⟨ms', hdocument⟩ := hex
    obtain ⟨rest', hstart', hws⟩ := document_obj_iff.mp hdocument
    obtain ⟨-, rfl⟩ := hstart.unique hstart'
    exact hws
  · intro hws
    exact ⟨ms, document_obj_iff.mpr ⟨rest, hstart, hws⟩⟩

include hdoc

theorem ends_reading (hblank : trim body ≠ []) (httpStatus : Int) (r : IncidentResponse) :
    Ends parser (some body) httpStatus (.ok r) ↔
      CodesFit ms ∧ r = reading intValue httpStatus ms := by
  rw [ends_ok_iff hblank hdoc, ← foldlM_assignMember]
  constructor
  · intro hex
    obtain ⟨ms', rest', hstart', hfold⟩ := hex
    obtain ⟨rfl, -⟩ := hstart.unique hstart'
    exact hfold
  · intro hfold
    exact ⟨ms, rest, hstart, hfold⟩

theorem accepts_object (hblank : trim body ≠ []) (httpStatus : Int) :
    (∃ r, Ends parser (some body) httpStatus (.ok r)) ↔ CodesFit ms := by
  constructor
  · intro hex
    obtain ⟨r, hr⟩ := hex
    exact ((ends_reading hdoc hstart hblank httpStatus r).mp hr).1
  · intro hfit
    exact ⟨_, (ends_reading hdoc hstart hblank httpStatus _).mpr ⟨hfit, rfl⟩⟩

end

/-- Reading by `getIntValue` differs from reading by the integers in the code alone. -/
theorem reading_congr {read read' : Bytes → Option Int} {httpStatus : Int}
    {ms : List (List Item × Tree)} (h : codeBy read httpStatus ms = codeBy read' httpStatus ms) :
    reading read httpStatus ms = reading read' httpStatus ms := by
  simp only [reading, h]

/-- **A body is read as one object exactly when the object it starts with decides it.** What follows
the object has to be white space unless a code makes `getIntValue` throw, in which case it has to be
something else, and a code that is not written as an integer has to change nothing. A body that does
not start with an object is always refused. -/
theorem readsObjects_iff {State : Type} {parser : JsonParser State} (hdoc : parser.Documented)
    {body : Bytes} (hblank : trim body ≠ []) (httpStatus : Int) :
    ReadsObjects parser body httpStatus ↔ ∀ ms rest, StartsWithObject ms rest body →
      (Ws rest ↔ CodesFit ms) ∧
        (Ws rest → codeBy intValue httpStatus ms = codeBy intLiteral httpStatus ms) := by
  constructor
  · intro h ms rest hstart
    have hiff : Ws rest ↔ CodesFit ms := by
      rw [← document_object hstart, ← accepts_object hdoc hstart hblank httpStatus]
      exact h.accepts.symm
    refine ⟨hiff, fun hws => ?_⟩
    have hread := (ends_reading hdoc hstart hblank httpStatus _).mpr ⟨hiff.mp hws, rfl⟩
    have hdocument := document_obj_iff.mpr ⟨rest, hstart, hws⟩
    exact congrArg IncidentResponse.code (h.reads ms _ hdocument hread)
  · intro h
    have haccepts : (∃ r, Ends parser (some body) httpStatus (.ok r)) ↔
        ∃ ms, Document JsonNumber (.obj ms) body := by
      constructor
      · intro hex
        obtain ⟨r, hr⟩ := hex
        obtain ⟨ms, rest, hstart, hfold⟩ := (ends_ok_iff hblank hdoc httpStatus r).mp hr
        have hfit := ((foldlM_assignMember httpStatus ms r).mp hfold).1
        exact (document_object hstart).mpr ((h ms rest hstart).1.mpr hfit)
      · intro hex
        obtain ⟨ms, hdocument⟩ := hex
        obtain ⟨rest, hstart, hws⟩ := document_obj_iff.mp hdocument
        exact (accepts_object hdoc hstart hblank httpStatus).mpr ((h ms rest hstart).1.mp hws)
    refine ⟨haccepts, (ends_error_iff hblank hdoc httpStatus).trans (not_congr haccepts), ?_⟩
    intro ms r hdocument hr
    obtain ⟨rest, hstart, hws⟩ := document_obj_iff.mp hdocument
    rw [((ends_reading hdoc hstart hblank httpStatus r).mp hr).2]
    exact reading_congr ((h ms rest hstart).2 hws)

/-- A body with a code that is an integer. -/
theorem readsObjects_iff_created : trim (bytes "\x7b\"code\":201\x7d") ≠ [] ∧
    ReadsObjects TokenParser.tokenParser (bytes "\x7b\"code\":201\x7d") 200 := by
  have hblank : trim (bytes "\x7b\"code\":201\x7d") ≠ [] := by decide +kernel
  refine ⟨hblank, (readsObjects_iff TokenParser.tokenParser_documented hblank 200).mpr ?_⟩
  intro ms rest hstart
  have hlit : JsonNumber (bytes "201") := by decide +kernel
  have hbody : singleText (bytes "code") (bytes "201") = bytes "\x7b\"code\":201\x7d" := by
    decide +kernel
  have hdocument := document_single (bytes "code") (.num hlit)
  rw [hbody] at hdocument
  obtain ⟨rest', hstart', hws⟩ := document_obj_iff.mp hdocument
  obtain ⟨rfl, rfl⟩ := hstart.unique hstart'
  refine ⟨iff_of_true hws ?_, fun _ => by decide +kernel⟩
  intro m hm _ lit hnum
  rw [List.mem_singleton] at hm
  subst hm
  cases hnum
  decide +kernel

/-- A complete object is read although other text follows it. -/
theorem trailing_text_is_accepted : trim (bytes "\x7b\x7d oops") ≠ [] ∧
    Ends TokenParser.tokenParser (some (bytes "\x7b\x7d oops")) 200 (.ok ⟨true, 200, none, none⟩) ∧
    ¬ ReadsObjects TokenParser.tokenParser (bytes "\x7b\x7d oops") 200 := by
  have hblank : trim (bytes "\x7b\x7d oops") ≠ [] := by decide +kernel
  have hstart : StartsWithObject [] (bytes " oops") (bytes "\x7b\x7d oops") :=
    ⟨[], bytes "\x7b\x7d", List.forall_mem_nil _, .objEmpty (w := []) (List.forall_mem_nil _), rfl⟩
  have hread : Ends TokenParser.tokenParser (some (bytes "\x7b\x7d oops")) 200
      (.ok ⟨true, 200, none, none⟩) :=
    (ends_reading TokenParser.tokenParser_documented hstart hblank 200 _).mpr
      ⟨List.forall_mem_nil _, by decide +kernel⟩
  refine ⟨hblank, hread, fun h => ?_⟩
  have hws := (document_object hstart).mp (h.accepts.mp ⟨_, hread⟩)
  exact absurd (hws 0x6F (by decide)) (by decide)

end OppexSdk.Java.JsonCodec
