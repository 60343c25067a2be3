import OppexSdk.Java.JsonParser

/-! # A parser as it is documented

The streaming reader of `Lib/JsonTokens` with the methods of a `JsonParser`. It shows that what is
documented can be had: `tokenParser_documented`. -/
namespace OppexSdk.Java.TokenParser
open OppexSdk.Lib OppexSdk.Lib.Json OppexSdk.Lib.Transition
open JsonToken (isStructStart_ofText isStructEnd_ofText)

/-- Where the reader is, and the token that it returned last unless that one ends a container. -/
structure State where
  cursor : Cursor
  token : Option Token

/-- The state once a token has been returned. -/
def State.after (t : Token) (c : Cursor) : State := ⟨c, if t.closes then none else some t⟩

def tokenParser : JsonParser State where
  createParser body := .ok ⟨⟨body, [], .first⟩, none⟩
  nextToken s := match Json.nextToken s.cursor with
    | some (some t, c) => .ok (some (.ofText t), .after t c)
    | some (none, c) => .ok (none, ⟨c, none⟩)
    | none => .error ⟨⟩
  getCurrentName s := match s.token with
    | some (.fieldName key) => .ok (some (characters key))
    | _ => .ok none
  getText s := match s.token with
    | some (.string items) => .ok (characters items)
    | _ => .error ⟨⟩
  getIntValue s := match s.token with
    | some (.number lit) => orThrow (intValue lit)
    | _ => .error ⟨⟩
  skipChildren s := match s.token with
    | some t => if t.opens then orThrow ((skipLoop 1 s.cursor).map fun c => ⟨c, none⟩) else .ok s
    | none => .ok s

theorem nextToken_iff {s s' : State} {k : JsonToken} :
    tokenParser.nextToken s = .ok (some k, s') ↔
      ∃ t c, nextToken s.cursor = some (some t, c) ∧ k = .ofText t ∧ s' = .after t c := by
  unfold tokenParser
  constructor
  · intro h
    dsimp only at h
    split at h
    · rename_i t c hnext
      cases h
      exact ⟨t, c, hnext, rfl, rfl⟩
    · cases h
    · cases h
  · intro hex
    obtain ⟨t, c, hnext, rfl, rfl⟩ := hex
    simp only [hnext]

theorem nextToken_none {s s' : State} (h : tokenParser.nextToken s = .ok (none, s')) :
    ∃ c, nextToken s.cursor = some (none, c) := by
  unfold tokenParser at h
  dsimp only at h
  split at h
  · cases h
  · rename_i c hnext
    exact ⟨c, hnext⟩
  · cases h

/-! ## The order of its tokens -/

def frameOf : Scope → Frame
  | .array => .array
  | .object => .object false

/-- The open containers. -/
def frames (c : Cursor) : List Frame :=
  match c.place, c.scopes with
  | .value, .object :: outer => .object true :: outer.map frameOf
  | _, scopes => scopes.map frameOf

theorem frames_length (c : Cursor) : (frames c).length = c.scopes.length := by
  unfold frames
  split
  · rename_i h
    rw [h, List.length_cons, List.length_cons, List.length_map]
  · rw [List.length_map]

theorem order_scalar {fs : List Frame} {t : Token} (h : t = .null ∨ (∃ b, t = .bool b) ∨
    (∃ lit, t = .number lit) ∨ ∃ items, t = .string items) :
    order fs (.ofText t) = beginValue fs := by
  rcases h with rfl | ⟨b, rfl⟩ | ⟨lit, rfl⟩ | ⟨items, rfl⟩
  · rfl
  · cases b <;> rfl
  · simp only [JsonToken.ofText]
    split_ifs <;> rfl
  · rfl

theorem order_value {scopes : List Scope} {s : Bytes} {t : Token} {c : Cursor} {fs : List Frame}
    (h : valueToken scopes s = some (t, c)) (hfs : beginValue fs = some (scopes.map frameOf)) :
    order fs (.ofText t) = some (frames c) := by
  unfold valueToken at h
  split at h
  · cases h
  · split_ifs at h
    · cases h
      simp only [JsonToken.ofText, order, hfs, Option.map_some]
      rfl
    · cases h
      simp only [JsonToken.ofText, order, hfs, Option.map_some]
      rfl
    · obtain ⟨r, -, he⟩ := Option.map_eq_some_iff.mp h
      cases he
      exact (order_scalar (by simp)).trans hfs
    · obtain ⟨r, -, he⟩ := Option.map_eq_some_iff.mp h
      cases he
      exact (order_scalar (by simp)).trans hfs
    · obtain ⟨r, -, he⟩ := Option.map_eq_some_iff.mp h
      cases he
      exact (order_scalar (by simp)).trans hfs
    · obtain ⟨r, -, he⟩ := Option.map_eq_some_iff.mp h
      cases he
      exact (order_scalar (by simp)).trans hfs
    · dsimp only at h
      split_ifs at h
      cases h
      exact (order_scalar (by simp)).trans hfs

theorem order_entry {scope : Scope} {outer : List Scope} {s : Bytes} {t : Token} {c : Cursor}
    (h : entryToken scope outer s = some (t, c)) :
    order ((scope :: outer).map frameOf) (.ofText t) = some (frames c) := by
  cases scope with
  | array => exact order_value h rfl
  | object =>
    obtain ⟨⟨k, s₁⟩, -, h⟩ := Option.bind_eq_some_iff.mp h
    obtain ⟨s₂, -, h⟩ := Option.bind_eq_some_iff.mp h
    cases h
    rfl

theorem order_next {c c' : Cursor} {t : Token} (h : nextToken c = some (some t, c')) :
    order (frames c) (.ofText t) = some (frames c') := by
  obtain ⟨rest, scopes, place⟩ := c
  have hmap : ∀ {r : Option (Token × Cursor)},
      r.map (fun r => (some r.1, r.2)) = some (some t, c') → r = some (t, c') := by
    intro r hr
    obtain ⟨v, rfl, he⟩ := Option.map_eq_some_iff.mp hr
    cases he
    rfl
  unfold nextToken at h
  dsimp only at h
  split at h
  · refine order_value (hmap h) ?_
    rcases scopes with _ | ⟨scope, outer⟩
    · rfl
    · cases scope <;> rfl
  · split_ifs at h
    · cases h
    · rename_i hplace _
      have hframes : frames ⟨rest, [], place⟩ = [] := by cases place <;> rfl
      rw [hframes]
      exact order_value (hmap h) rfl
  · rename_i scope outer hplace
    have hframes : frames ⟨rest, scope :: outer, place⟩ = (scope :: outer).map frameOf := by
      cases place with
      | value => exact (hplace rfl).elim
      | first => rfl
      | next => rfl
    rw [hframes]
    split at h
    · cases h
      cases scope <;> rfl
    · split_ifs at h
      · exact order_entry (hmap h)
      · obtain ⟨s, -, h⟩ := Option.bind_eq_some_iff.mp h
        exact order_entry (hmap h)

theorem reads_order {s s' : State} {ks : List JsonToken} (h : tokenParser.Reads s ks s') :
    ks.foldlM order (frames s.cursor) = some (frames s'.cursor) := by
  induction h with
  | nil s => rfl
  | cons _ hstep _ ih =>
    obtain ⟨t, c, hnext, rfl, rfl⟩ := nextToken_iff.mp (JsonParser.advance_eq_some.mp hstep)
    rw [List.foldlM_cons, order_next hnext]
    exact ih

theorem reads_length {s s' : State} {ks : List JsonToken} (h : tokenParser.Reads s ks s') :
    ks.length + s'.cursor.rest.length ≤ s.cursor.rest.length := by
  induction h with
  | nil s => simp
  | cons _ hstep _ ih =>
    obtain ⟨t, c, hnext, rfl, rfl⟩ := nextToken_iff.mp (JsonParser.advance_eq_some.mp hstep)
    have hlt := nextToken_length hnext
    rw [List.length_cons]
    simp only [State.after] at ih
    omega

/-! ## Skipping -/

/-- The number of open containers after one more token. -/
theorem scopes_length {c c' : Cursor} {t : Token} (h : nextToken c = some (some t, c'))
    (hopen : c.scopes ≠ []) : c'.scopes.length =
      if t.opens then c.scopes.length + 1 else if t.closes then c.scopes.length - 1
      else c.scopes.length := by
  obtain ⟨f, above, hframes⟩ : ∃ f above, frames c = f :: above := by
    refine List.exists_cons_of_ne_nil (List.ne_nil_of_length_pos ?_)
    rw [frames_length]
    exact List.length_pos_of_ne_nil hopen
  have horder := order_next h
  have hlength := frames_length c
  rw [hframes, ← List.append_nil above, ← List.cons_append] at horder
  obtain ⟨above', habove, hcount⟩ := order_length horder
  rw [List.append_nil] at habove
  rw [isStructStart_ofText, isStructEnd_ofText, ← habove, frames_length] at hcount
  rw [hframes, List.length_cons] at hlength
  rw [hcount, hlength]

theorem opens_not_closes {t : Token} (h : t.opens = true) : t.closes = false := by
  cases t <;> first | rfl | cases h

/-- A container that a token has opened is open. -/
theorem scopes_pos {c c' : Cursor} {t : Token} (h : nextToken c = some (some t, c'))
    (hopens : t.opens = true) : 1 ≤ c'.scopes.length := by
  have horder := order_next h
  rw [← frames_length]
  have hbegins : ∀ {f : Frame}, (beginValue (frames c)).map (f :: ·) = some (frames c') →
      1 ≤ (frames c').length := by
    intro f hf
    obtain ⟨fs, -, he⟩ := Option.map_eq_some_iff.mp hf
    rw [← he]
    exact Nat.succ_pos _
  cases t with
  | startObject => exact hbegins horder
  | startArray => exact hbegins horder
  | _ => cases hopens

theorem closes_of_skipLoop {n : Nat} {c c' : Cursor} (h : skipLoop n c = some c') (hpos : n ≠ 0)
    (hopen : n ≤ c.scopes.length) (token : Option Token) :
    ∃ ks, Closes n ks ∧ tokenParser.Reads ⟨c, token⟩ ks ⟨c', none⟩ := by
  fun_induction skipLoop n c generalizing token with
  | case1 => cases h
  | case2 n c c'' hnext =>
    have hnil := (nextToken_end hnext).1
    rw [hnil, List.length_nil] at hopen
    omega
  | case3 n c t c'' hnext hopens ih =>
    have hscopes := scopes_length hnext (List.ne_nil_of_length_pos (by omega))
    rw [if_pos hopens] at hscopes
    obtain ⟨ks, hcloses, hreads⟩ := ih h (by omega) (by omega) (State.after t c'').token
    refine ⟨.ofText t :: ks, ⟨hpos, ?_⟩, .cons trivial (JsonParser.advance_eq_some.mpr
      (nextToken_iff.mpr ⟨t, c'', hnext, rfl, rfl⟩)) hreads⟩
    rw [isStructStart_ofText, if_pos hopens]
    exact hcloses
  | case4 n c t c'' hnext hopens hcloses hlast =>
    cases h
    refine ⟨[.ofText t], ⟨hpos, ?_⟩, .cons trivial (JsonParser.advance_eq_some.mpr
      (nextToken_iff.mpr ⟨t, _, hnext, rfl, ?_⟩)) (.nil _)⟩
    · rw [isStructStart_ofText, isStructEnd_ofText, if_neg hopens, if_pos hcloses]
      exact hlast
    · rw [State.after, if_pos hcloses]
  | case5 n c t c'' hnext hopens hcloses hmore ih =>
    have hscopes := scopes_length hnext (List.ne_nil_of_length_pos (by omega))
    rw [if_neg hopens, if_pos hcloses] at hscopes
    obtain ⟨ks, hks, hreads⟩ := ih h hmore (by omega) (State.after t c'').token
    refine ⟨.ofText t :: ks, ⟨hpos, ?_⟩, .cons trivial (JsonParser.advance_eq_some.mpr
      (nextToken_iff.mpr ⟨t, c'', hnext, rfl, rfl⟩)) hreads⟩
    rw [isStructStart_ofText, isStructEnd_ofText, if_neg hopens, if_pos hcloses]
    exact hks
  | case6 n c t c'' hnext hopens hcloses ih =>
    have hscopes := scopes_length hnext (List.ne_nil_of_length_pos (by omega))
    rw [if_neg hopens, if_neg hcloses] at hscopes
    obtain ⟨ks, hks, hreads⟩ := ih h hpos (by omega) (State.after t c'').token
    refine ⟨.ofText t :: ks, ⟨hpos, ?_⟩, .cons trivial (JsonParser.advance_eq_some.mpr
      (nextToken_iff.mpr ⟨t, c'', hnext, rfl, rfl⟩)) hreads⟩
    rw [isStructStart_ofText, isStructEnd_ofText, if_neg hopens, if_neg hcloses]
    exact hks

theorem skipLoop_of_closes {n : Nat} {s s' : State} {ks : List JsonToken} (hcloses : Closes n ks)
    (hpos : n ≠ 0) (h : tokenParser.Reads s ks s') :
    skipLoop n s.cursor = some s'.cursor ∧ s'.token = none := by
  induction h generalizing n with
  | nil s => exact absurd hcloses hpos
  | @cons s s₁ s' k ks _ hstep hrest ih =>
    obtain ⟨t, c, hnext, rfl, rfl⟩ := nextToken_iff.mp (JsonParser.advance_eq_some.mp hstep)
    obtain ⟨-, hks⟩ := hcloses
    rw [isStructStart_ofText, isStructEnd_ofText] at hks
    rw [skipLoop_some n hnext]
    by_cases hopens : t.opens = true
    · rw [if_pos hopens] at hks ⊢
      exact ih hks (by omega)
    · rw [if_neg hopens] at hks ⊢
      by_cases hends : t.closes = true
      · rw [if_pos hends] at hks ⊢
        by_cases hlast : n - 1 = 0
        · rw [hlast] at hks
          cases ks with
          | nil =>
            cases hrest
            rw [if_pos hlast, State.after, if_pos hends]
            exact ⟨rfl, rfl⟩
          | cons => exact (hks.1 rfl).elim
        · rw [if_neg hlast]
          exact ih hks hlast
      · rw [if_neg hends] at hks ⊢
        exact ih hks hpos

/-! ## What is documented -/

theorem shows_after {t : Token} (c : Cursor) : tokenParser.Shows (.after t c) t := by
  cases t with
  | fieldName key => rfl
  | string items => rfl
  | number lit => rfl
  | _ => trivial

theorem returns_of_emits {s : State} {ts : List Token} {c : Cursor} (h : Emits s.cursor ts c) :
    tokenParser.Returns s ts := by
  induction ts generalizing s with
  | nil => trivial
  | cons t ts ih =>
    obtain ⟨c₁, hnext, hrest⟩ := h
    exact ⟨.after t c₁, nextToken_iff.mpr ⟨t, c₁, hnext, rfl, rfl⟩, shows_after c₁, ih hrest⟩

/-- An object that is closed is an object at the start of the text. -/
theorem startsWithObject_of_reads {body : Bytes} {s : State} {ks : List JsonToken}
    (h : tokenParser.Reads ⟨⟨body, [], .first⟩, none⟩ (.startObject :: ks) s)
    (hclosed : (JsonToken.startObject :: ks).foldlM order [] = some []) :
    ∃ ms rest, StartsWithObject ms rest body := by
  cases h with
  | cons _ hstep hrest =>
    obtain ⟨t, c, hnext, htoken, rfl⟩ := nextToken_iff.mp (JsonParser.advance_eq_some.mp hstep)
    have hstart : t = .startObject := by
      cases t with
      | startObject => rfl
      | number lit =>
        simp only [JsonToken.ofText] at htoken
        split_ifs at htoken
      | bool b => cases b <;> cases htoken
      | _ => cases htoken
    subst hstart
    obtain ⟨s₁, -, rfl⟩ := firstToken_object hnext
    obtain ⟨ks₁, ks₂, rfl, hcloses⟩ : ∃ ks₁ ks₂, ks = ks₁ ++ ks₂ ∧ Closes 1 ks₁ := by
      exact exists_closes [.object false] hclosed
    obtain ⟨s₂, hfirst, -⟩ := hrest.split
    exact startsWithObject_of_skip hnext (skipLoop_of_closes hcloses one_ne_zero hfirst).1

/-- After the start of a container `skipChildren` reads on to the matching end. -/
theorem skipChildren_iff {t : Token} {s : State} {c : Cursor} {s₂ : State}
    (hnext : nextToken s.cursor = some (some t, c)) (hopens : t.opens = true) :
    tokenParser.skipChildren ⟨c, some t⟩ = .ok s₂ ↔
      ∃ ks, Closes 1 ks ∧ tokenParser.Reads ⟨c, some t⟩ ks s₂ := by
  have hskip : tokenParser.skipChildren ⟨c, some t⟩ =
      orThrow ((skipLoop 1 c).map fun c => ⟨c, none⟩) := by
    simp [tokenParser, hopens]
  rw [hskip]
  constructor
  · intro h
    cases hc : skipLoop 1 c with
    | none =>
      rw [hc] at h
      cases h
    | some c' =>
      rw [hc] at h
      cases h
      exact closes_of_skipLoop hc one_ne_zero (scopes_pos hnext hopens) (some t)
  · intro hex
    obtain ⟨ks, hcloses, hreads⟩ := hex
    obtain ⟨hc, htoken⟩ := skipLoop_of_closes hcloses one_ne_zero hreads
    obtain ⟨c', token⟩ := s₂
    cases htoken
    rw [hc]
    rfl

/-- **The reader does what is documented.** -/
theorem tokenParser_documented : tokenParser.Documented where
  lazy := by
    intro ms rest body hstart
    obtain ⟨c, hemits⟩ := hstart.emits
    exact ⟨_, rfl, returns_of_emits hemits⟩
  ordered := by
    intro body s₀ ks s hcreate hreads
    cases hcreate
    exact Option.isSome_of_eq_some (reads_order hreads)
  strict := by
    intro body s₀ ks s hcreate hreads hclosed
    cases hcreate
    exact startsWithObject_of_reads hreads hclosed
  endOfInput := by
    intro body s₀ ks s s' hcreate hreads hend
    cases hcreate
    obtain ⟨c, hnext⟩ := nextToken_none hend
    have hnil : frames s.cursor = [] :=
      List.length_eq_zero_iff.mp (by rw [frames_length, (nextToken_end hnext).1]; rfl)
    exact (reads_order hreads).trans (congrArg some hnil)
  finite := by
    intro body s₀ ks s hcreate hreads
    cases hcreate
    exact le_trans (Nat.le_add_right _ _) (reads_length hreads)
  skipsChildren := by
    intro s k s₁ s₂ hreturned hopens
    obtain ⟨t, c, hnext, rfl, rfl⟩ := nextToken_iff.mp hreturned
    rw [isStructStart_ofText] at hopens
    have htoken : State.after t c = ⟨c, some t⟩ := by
      rw [State.after, if_neg (by rw [opens_not_closes hopens]; simp)]
    rw [htoken]
    exact skipChildren_iff hnext hopens

end OppexSdk.Java.TokenParser
