import OppexSdk.Cpp.JsonRefinement

/-! # What the C++ parser accepts and returns

The parser accepts every JSON text of at most `kMaxDepth` levels and returns what it denotes. It
also accepts texts that are not JSON: `std::from_chars` has a wider idea of a number. -/
namespace OppexSdk.Cpp.Json
open OppexSdk.Lib OppexSdk.Lib.FromChars
open OppexSdk.Lib.Json (Item Tree decode Document JsonNumber IsJsonText Digits Minus Exponent
  isDigit)

theorem parse_eq_some_iff {text : Bytes} {v : Value} :
    parse text = some v ↔
      ∃ t, Document StrtodNumber t text ∧ t.height ≤ kMaxDepth ∧ treeValue t = v := by
  rw [parse_eq_reference, Option.map_eq_some_iff]
  simp only [Lib.Json.parse_eq_some strtodNumber_numberBytes, Nat.lt_succ_iff, and_assoc]

/-! ## What a tree denotes -/

/-- The value of the last member with the name. -/
def lastMember (ms : List (List Item × Tree)) (key : Bytes) : Option Tree :=
  (ms.reverse.find? fun m => decode m.1 == key).map Prod.snd

/-- The value is what the tree denotes. Nothing is said of the size of a number. -/
inductive Denotes : Tree → Value → Prop
  | null : Denotes .null .null
  | bool (b) : Denotes (.bool b) (.bool b)
  | num (lit d) : Denotes (.num lit) (.number d)
  | str (items) : Denotes (.str items) (.string (decode items))
  | arr {ts vs} : ts.length = vs.length →
      (∀ i (h₁ : i < ts.length) (h₂ : i < vs.length), Denotes ts[i] vs[i]) →
      Denotes (.arr ts) (.array vs)
  | obj {ms} {o : Object} : (o.map Prod.fst).Nodup →
      (∀ key, o.find key = none ↔ lastMember ms key = none) →
      (∀ key t v, lastMember ms key = some t → o.find key = some v → Denotes t v) →
      Denotes (.obj ms) (.object o)

@[simp] theorem find_nil (key : Bytes) : Object.find [] key = none := rfl

theorem find_cons (k : Bytes) (v : Value) (rest : Object) (key : Bytes) :
    Object.find ((k, v) :: rest) key = if key = k then some v else Object.find rest key := by
  unfold Object.find
  by_cases hk : key = k
  · simp [hk]
  · rw [if_neg hk, List.lookup_cons, beq_eq_false_iff_ne.mpr hk]

theorem find_insertOrAssign (o : Object) (key : Bytes) (v : Value) (k : Bytes) :
    (o.insertOrAssign key v).find k = if k = key then some v else o.find k := by
  induction o with
  | nil => rw [Object.insertOrAssign, find_cons]
  | cons m rest ih =>
    obtain ⟨k', v'⟩ := m
    unfold Object.insertOrAssign
    by_cases hkey : k' = key
    · subst hkey
      simp only [if_true, find_cons]
      split <;> rfl
    · rw [if_neg hkey, find_cons, find_cons, ih]
      by_cases hk : k = k'
      · rw [if_pos hk, if_pos hk, if_neg (hk ▸ hkey)]
      · rw [if_neg hk, if_neg hk]

theorem keys_insertOrAssign (o : Object) (key : Bytes) (v : Value) :
    (o.insertOrAssign key v).map Prod.fst =
      if key ∈ o.map Prod.fst then o.map Prod.fst else o.map Prod.fst ++ [key] := by
  induction o with
  | nil => rfl
  | cons m rest ih =>
    obtain ⟨k, w⟩ := m
    unfold Object.insertOrAssign
    by_cases hk : k = key
    · simp [hk]
    · rw [if_neg hk, List.map_cons, ih]
      by_cases hmem : key ∈ rest.map Prod.fst
      · simp [hmem]
      · simp [hmem, Ne.symm hk]

theorem nodup_memberValues {o : Object} (h : (o.map Prod.fst).Nodup)
    (ms : List (List Item × Tree)) : ((memberValues o ms).map Prod.fst).Nodup := by
  induction ms generalizing o with
  | nil => exact h
  | cons m ms ih =>
    obtain ⟨k, t⟩ := m
    refine ih ?_
    rw [keys_insertOrAssign]
    split
    · exact h
    · rename_i hmem
      exact List.nodup_append.mpr ⟨h, by simp, fun a ha b hb => by
        rw [List.mem_singleton.mp hb]; rintro rfl; exact hmem ha⟩

theorem lastMember_cons (k : List Item) (t : Tree) (ms : List (List Item × Tree)) (key : Bytes) :
    lastMember ((k, t) :: ms) key =
      (lastMember ms key).or (if decode k = key then some t else none) := by
  unfold lastMember
  rw [List.reverse_cons, List.find?_append]
  cases ms.reverse.find? fun m => decode m.1 == key with
  | none => by_cases hk : decode k = key <;> simp [hk]
  | some m => rfl

/-- Entering the members one after the other leaves the last of each name. -/
theorem find_memberValues (o : Object) (ms : List (List Item × Tree)) (key : Bytes) :
    (memberValues o ms).find key = ((lastMember ms key).map treeValue).or (o.find key) := by
  induction ms generalizing o with
  | nil => rfl
  | cons m ms ih =>
    obtain ⟨k, t⟩ := m
    rw [memberValues, ih, find_insertOrAssign, lastMember_cons]
    cases lastMember ms key with
    | some t' => rfl
    | none =>
      by_cases hk : decode k = key
      · simp [hk]
      · simp [hk, Ne.symm hk]

theorem length_elemValues (ts : List Tree) : (elemValues ts).length = ts.length := by
  induction ts with
  | nil => rfl
  | cons t ts ih => simp [elemValues, ih]

theorem lastMember_mem {ms : List (List Item × Tree)} {key : Bytes} {t : Tree}
    (h : lastMember ms key = some t) : ∃ k, (k, t) ∈ ms := by
  obtain ⟨⟨k, t'⟩, hm, rfl⟩ := Option.map_eq_some_iff.mp h
  exact ⟨k, List.mem_reverse.mp (List.mem_of_find?_eq_some hm)⟩

mutual

theorem denotes_treeValue : (t : Tree) → Denotes t (treeValue t)
  | .null => .null
  | .bool b => .bool b
  | .num lit => .num lit _
  | .str items => .str items
  | .arr ts => .arr (length_elemValues ts).symm (denotes_elemValues ts)
  | .obj ms => by
    have hfind := find_memberValues [] ms
    refine .obj (nodup_memberValues (o := []) List.nodup_nil ms) ?_ ?_
    · intro key
      rw [hfind key]
      simp
    · intro key t v ht hv
      rw [hfind key, ht] at hv
      cases hv
      obtain ⟨k, hk⟩ := lastMember_mem ht
      exact denotes_memberValues ms (k, t) hk

theorem denotes_elemValues : (ts : List Tree) → ∀ i (h₁ : i < ts.length)
    (h₂ : i < (elemValues ts).length), Denotes ts[i] (elemValues ts)[i]
  | [], i, h₁, _ => absurd h₁ (Nat.not_lt_zero i)
  | t :: _, 0, _, _ => denotes_treeValue t
  | _ :: ts, i + 1, h₁, h₂ =>
    denotes_elemValues ts i (Nat.lt_of_succ_lt_succ h₁) (Nat.lt_of_succ_lt_succ h₂)

theorem denotes_memberValues : (ms : List (List Item × Tree)) → ∀ m ∈ ms,
    Denotes m.2 (treeValue m.2)
  | [], _, hm => absurd hm List.not_mem_nil
  | (_, t) :: ms, m, hm =>
    (List.mem_cons.mp hm).elim (fun he => he ▸ denotes_treeValue t)
      fun hm => denotes_memberValues ms m hm

end

/-- **The parser is complete and returns what the text denotes.** -/
theorem json_texts_parse_to_their_meaning {t : Tree} {text : Bytes}
    (h : Document JsonNumber t text) :
    (t.height ≤ kMaxDepth → ∃ v, parse text = some v ∧ Denotes t v) ∧
      (kMaxDepth < t.height → parse text = none) := by
  have hdoc : Document StrtodNumber t text := h.mono fun _ => JsonNumber.strtod
  constructor
  · intro hle
    exact ⟨treeValue t, parse_eq_some_iff.mpr ⟨t, hdoc, hle, rfl⟩, denotes_treeValue t⟩
  · intro hlt
    cases hp : parse text with
    | none => rfl
    | some v =>
      obtain ⟨t', hdoc', hle, -⟩ := parse_eq_some_iff.mp hp
      obtain rfl := hdoc.unique strtodNumber_numberBytes hdoc'
      exact absurd hle (Nat.not_le.mpr hlt)

/-- A text whose two members have one name. -/
def twiceNamed : Tree := .obj [([.raw 0x61 rfl], .num [0x31]), ([.raw 0x61 rfl], .null)]

theorem jsonNumber_one : JsonNumber [0x31] :=
  ⟨[], [0x31], [], [], rfl, .inl rfl,
    .inr ⟨0x31, [], rfl, by decide, by decide, List.forall_mem_nil _⟩, .inl rfl, .inl rfl⟩

theorem twiceNamed_document :
    Document JsonNumber twiceNamed (bytes "\x7b\"a\":1, \"a\":null\x7d ") := by
  have hws : Lib.Json.Ws [] := List.forall_mem_nil _
  have hsp : Lib.Json.Ws [0x20] := by simp [Lib.Json.Ws, Lib.Json.isWs]
  exact ⟨[], _, [0x20], hws,
    .obj (.membersCons hws hws hws (.num jsonNumber_one) hws
      (.membersOne hsp hws hws .nullLit hws)), hsp, by decide⟩

theorem json_texts_parse_to_their_meaning_twice :
    ∃ v, parse (bytes "\x7b\"a\":1, \"a\":null\x7d ") = some v ∧ Denotes twiceNamed v :=
  (json_texts_parse_to_their_meaning twiceNamed_document).1 (by decide)

/-! ## What it accepts beyond JSON -/

/-- **Exactly the texts with a loose number are wrongly accepted.** What the parser accepts is a
JSON text unless the text is, within `kMaxDepth` levels, a document of the grammar with
`strtod`'s numbers in which some number is loose. -/
theorem accepted_texts_are_json_iff (text : Bytes) :
    ((∃ v, parse text = some v) → IsJsonText text) ↔
      ¬ ∃ t, Document StrtodNumber t text ∧ t.height ≤ kMaxDepth ∧
        ¬ t.AllNumbers fun lit => ¬ LooseNumber lit := by
  constructor
  · rintro himp ⟨t, hdoc, hle, hloose⟩
    obtain ⟨t', hjson⟩ := himp ⟨_, parse_eq_some_iff.mpr ⟨t, hdoc, hle, rfl⟩⟩
    have hstrtod := hjson.mono fun _ => JsonNumber.strtod
    obtain rfl := hdoc.unique strtodNumber_numberBytes hstrtod
    exact hloose (hjson.allNumbers.mono fun lit hn =>
      (jsonNumber_iff_not_loose (JsonNumber.strtod hn)).mp hn)
  · rintro hno ⟨v, hv⟩
    obtain ⟨t, hdoc, hle, -⟩ := parse_eq_some_iff.mp hv
    have hall : t.AllNumbers fun lit => ¬ LooseNumber lit := by
      by_contra hloose
      exact hno ⟨t, hdoc, hle, hloose⟩
    refine ⟨t, hdoc.of_allNumbers ?_⟩
    exact (hdoc.allNumbers.and hall).mono fun lit hn => (jsonNumber_iff_not_loose hn.1).mpr hn.2

/-- `01` is accepted and is not JSON. -/
theorem leading_zero_is_accepted :
    (∃ v, parse (bytes "01") = some v) ∧ ¬ IsJsonText (bytes "01") := by
  have hsplit : Split [0x30, 0x31] [] [0x30, 0x31] [] [] :=
    ⟨rfl, .inl rfl, by simp [Digits, isDigit], .inl rfl, .inl rfl⟩
  have hnum : StrtodNumber [0x30, 0x31] := ⟨_, _, _, _, hsplit, .inl (by decide)⟩
  have hdoc : Document StrtodNumber (.num [0x30, 0x31]) (bytes "01") :=
    ⟨[], _, [], List.forall_mem_nil _, .num hnum, List.forall_mem_nil _, by decide⟩
  refine ⟨⟨_, parse_eq_some_iff.mpr ⟨_, hdoc, by decide, rfl⟩⟩, ?_⟩
  intro hex
  obtain ⟨t, hjson⟩ := hex
  obtain rfl := hdoc.unique strtodNumber_numberBytes (hjson.mono fun _ => JsonNumber.strtod)
  exact (jsonNumber_iff_not_loose hnum).mp hjson.allNumbers
    ⟨_, _, _, _, hsplit, .inr (.inl ⟨0x31, [], rfl⟩)⟩

end OppexSdk.Cpp.Json
