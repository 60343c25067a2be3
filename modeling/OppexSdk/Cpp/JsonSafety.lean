import OppexSdk.Cpp.JsonMachine

/-! # The C++ JSON parser is safe on every input

Every run of the parser returns what `json::Parse` is specified to return, keeps inside the text
and makes progress. Each function of the machine is shown to do what the function of the same name
on texts and positions does, whose results carry their bounds. -/
namespace OppexSdk.Cpp.JsonMachine
open OppexSdk.Lib OppexSdk.Lib.Binary64 OppexSdk.Lib.FromChars OppexSdk.Lib.Tracing
open OppexSdk.Lib.Json (isWs isNumberByte)
open OppexSdk.Cpp.Json (Value Object compareAt appendUtf8 kMaxDepth Parsed)

/-- A loop over the members or elements of a container. -/
def Loop.container : Loop → Bool
  | .parseObject | .parseArray => true
  | .skipWhitespace | .parseNumber | .parseString => false

/-- What an event has to keep to. An iteration that ends the loop of a container with `nullopt` is
the only one that need not advance. -/
def Safe (text : Bytes) : Event → Prop
  | .moved position => position ≤ text.length
  | .read position => position < text.length
  | .compared position => position ≤ text.length
  | .scanned first last => first ≤ last ∧ last ≤ text.length
  | .iterated loop before after failed =>
    before < after ∨ loop.container = true ∧ failed = true ∧ before ≤ after
  | .restored began saved => began < saved
  | .entered frames => frames ≤ kMaxDepth + 2

/-- What a function on texts and positions returns, without its bounds. -/
def ends {text : Bytes} {p : Nat} {α : Type} (f : Option (Parsed text p α)) : Option (α × Nat) :=
  f.map fun q => (q.value, q.next)

/-- The machine has returned what it should, and `position_` has not gone back. -/
structure Ends {α : Type} (text : Bytes) (s : State) (f : Option (α × Nat)) (r : Option α)
    (s' : State) : Prop where
  value : r = f.map Prod.fst
  next : ∀ q ∈ f, s'.position = q.2
  back : s.position ≤ s'.position
  inside : s'.position ≤ text.length
  frames : s'.frames = s.frames

variable {text : Bytes} {α β : Type} {s : State}

/-! ## Single statements -/

theorem does_position : Does (Safe text) position s s.position s :=
  does_get.bind does_pure

theorem does_moveTo {p : Nat} (hp : p ≤ text.length) :
    Does (Safe text) (moveTo p) s () { s with position := p } :=
  does_modify.bind (does_emit hp)

theorem does_peek (hp : s.position < text.length) :
    Does (Safe text) (peek text) s text[s.position] s := by
  have hread : Safe text (.read s.position) := hp
  refine does_position.bind ((does_emit hread).bind ?_)
  rw [List.getD_eq_getElem?_getD, List.getElem?_eq_getElem hp, Option.getD_some]
  exact does_pure

theorem does_more : Does (Safe text) (more text) s (s.position < text.length) s :=
  does_position.bind does_pure

theorem does_readNext (hp : s.position < text.length) :
    Does (Safe text) (readNext text) s text[s.position] { s with position := s.position + 1 } :=
  (does_peek hp).bind (does_position.bind ((does_moveTo hp).bind does_pure))

theorem does_compare {expected : Bytes} (hp : s.position ≤ text.length) :
    Does (Safe text) (compare text expected) s (compareAt text s.position expected) s := by
  have hcompared : Safe text (.compared s.position) := hp
  exact does_position.bind ((does_emit hcompared).bind does_pure)

/-! ## Loops -/

/-- The loop rule for loops whose iterations are reported: they advance, unless they end the loop of
a container with `nullopt`. -/
theorem safely_whileLoop {kind : Loop} {cond : Machine Bool}
    {body : β → Machine (Turn β (Option α))} {rest : β → Machine (Option α)}
    {Q : Option α → State → Prop} (I : β → State → Prop)
    (hcond : ∀ b s, I b s → Safely (Safe text) cond s fun more s' => s' = s ∧
      if more then
        Safely (Safe text) (body b) s fun turn s'' => s''.position ≤ text.length ∧
          match turn with
          | .again b' => s.position < s''.position ∧ I b' s''
          | .leave (some a) => s.position < s''.position ∧ Q (some a) s''
          | .leave none => (s.position < s''.position ∨
              kind.container = true ∧ s.position ≤ s''.position) ∧ Q none s''
      else Safely (Safe text) (rest b) s Q)
    {fuel : Nat} {b : β} (hs : I b s) (hfuel : text.length - s.position < fuel) :
    Safely (Safe text) (whileLoop kind cond body rest fuel b) s Q := by
  refine safely_loop I (fun s => text.length - s.position) ?_ hs hfuel
  intro b s hb
  refine (hcond b s hb).mono ?_
  rintro more s' ⟨rfl, hmore⟩
  cases more with
  | false => exact hmore
  | true =>
    rw [if_pos rfl] at hmore ⊢
    refine does_position.bind (hmore.bind ?_)
    rintro turn s'' ⟨hinside, hturn⟩
    refine does_position.bind ?_
    cases turn with
    | again b' =>
      refine (does_emit (.inl hturn.1)).bind (safely_pure ⟨hturn.2, ?_⟩)
      have hlt := hturn.1
      omega
    | leave a =>
      cases a with
      | some a => exact (does_emit (.inl hturn.1)).bind (safely_pure hturn.2)
      | none =>
        refine (does_emit ?_).bind (safely_pure hturn.2)
        exact hturn.1.imp id fun ⟨hkind, hle⟩ => ⟨hkind, rfl, hle⟩

/-- A scan ends where the scan on texts and positions ends. -/
theorem does_scanWhile {kind : Loop} {accept : UInt8 → Bool} {fuel : Nat}
    (hp : s.position ≤ text.length) (hfuel : text.length - s.position < fuel) :
    Does (Safe text) (scanWhile text kind accept fuel) s (some ())
      { s with position := Json.scanWhile accept text s.position } := by
  refine safely_whileLoop (fun _ t => t.frames = s.frames ∧ t.position ≤ text.length ∧
    Json.scanWhile accept text t.position = Json.scanWhile accept text s.position) ?_
    ⟨rfl, hp, rfl⟩ hfuel
  rintro _ t ⟨hframes, ht, hscan⟩
  rw [Json.scanWhile] at hscan
  refine does_more.bind ?_
  by_cases hlt : t.position < text.length
  · rw [dif_pos hlt] at hscan
    rw [decide_eq_true hlt, if_pos rfl]
    refine (does_peek hlt).bind (does_pure.safely ⟨rfl, ?_⟩)
    by_cases haccept : accept text[t.position] = true
    · rw [if_pos haccept] at hscan ⊢
      exact does_position.bind ((does_moveTo hlt).bind
        (safely_pure ⟨hlt, Nat.lt_succ_self _, hframes, hlt, hscan⟩))
    · rw [if_neg haccept] at hscan ⊢
      refine safely_pure ⟨rfl, ?_⟩
      rw [← hscan, ← hframes]
  · rw [dif_neg hlt] at hscan
    rw [decide_eq_false hlt, if_neg Bool.false_ne_true]
    refine does_pure.safely ⟨rfl, ?_⟩
    rw [if_neg Bool.false_ne_true]
    refine safely_pure ⟨rfl, ?_⟩
    rw [← hscan, ← hframes]

theorem does_skipWhitespace {fuel : Nat} (hp : s.position ≤ text.length)
    (hfuel : text.length - s.position < fuel) :
    Does (Safe text) (skipWhitespace text fuel) s ()
      { s with position := Json.skipWhitespace text s.position } :=
  (does_scanWhile hp hfuel).bind does_pure

/-! ## Tokens -/

/-- What follows a `Consume`, by whether the character was there. -/
theorem safely_consume {expected : UInt8} {f : Bool → Machine α} {Q : α → State → Prop}
    (hsome : ∀ q, Json.consume expected text s.position = some q →
      Safely (Safe text) (f true) { s with position := q.next } Q)
    (hnone : Json.consume expected text s.position = none → Safely (Safe text) (f false) s Q) :
    Safely (Safe text) (consume text expected >>= f) s Q := by
  suffices h : Safely (Safe text) (consume text expected) s fun b s' =>
      Safely (Safe text) (f b) s' Q from h.bind fun _ _ => id
  unfold Json.consume at hsome hnone
  refine does_more.bind ?_
  by_cases hlt : s.position < text.length
  · rw [dif_pos hlt] at hsome hnone
    rw [decide_eq_true hlt, if_pos rfl]
    refine (does_peek hlt).bind ?_
    by_cases heq : text[s.position] = expected
    · rw [if_pos heq] at hsome ⊢
      exact does_position.bind ((does_moveTo hlt).bind (safely_pure (hsome _ rfl)))
    · rw [if_neg heq] at hnone ⊢
      exact safely_pure (hnone rfl)
  · rw [dif_neg hlt] at hnone
    rw [decide_eq_false hlt, if_neg Bool.false_ne_true]
    exact safely_pure (hnone rfl)

/-- Nothing was consumed and the result is `nullopt`. -/
theorem ends_none (hp : s.position ≤ text.length) : Ends (α := α) text s none none s :=
  ⟨rfl, fun _ h => (nomatch h), le_rfl, hp, rfl⟩

theorem parseLiteral_ends {literal : Bytes} {value : Value} (hne : literal ≠ [])
    (hp : s.position ≤ text.length) :
    Safely (Safe text) (parseLiteral text literal value) s
      (Ends text s (ends (Json.parseLiteral text s.position literal value hne))) := by
  unfold Json.parseLiteral
  refine (does_compare hp).bind ?_
  by_cases h : compareAt text s.position literal = true
  · rw [dif_pos h, if_pos h]
    have hinside := Json.compareAt_inside hne h
    refine does_position.bind ((does_moveTo hinside.2).bind (safely_pure ?_))
    exact ⟨rfl, fun _ h => by cases h; rfl, hinside.1.le, hinside.2, rfl⟩
  · rw [dif_neg h, if_neg h]
    exact safely_pure (ends_none hp)

theorem does_skipMinus (hp : s.position < text.length) :
    Does (Safe text) (skipMinus text) s () { s with
      position := if text[s.position] = 0x2D then s.position + 1 else s.position } := by
  refine does_more.bind ?_
  rw [decide_eq_true hp, if_pos rfl]
  refine (does_peek hp).bind ?_
  split_ifs
  · exact does_position.bind (does_moveTo hp)
  · exact does_pure

theorem ends_parseNumber {p : Nat} (hp : p < text.length) :
    ends (Json.parseNumber text p hp) =
      (fun last =>
        if last = p then none
        else if (fromChars ((text.drop p).take (last - p)) (.finite zero)).1 ≠ [] then none
        else some (.number (fromChars ((text.drop p).take (last - p)) (.finite zero)).2, last))
      (Json.scanWhile isNumberByte text (if text[p] = 0x2D then p + 1 else p)) := by
  unfold Json.parseNumber
  dsimp only
  split_ifs <;> rfl

theorem parseNumber_ends {fuel : Nat} (hp : s.position < text.length)
    (hfuel : text.length - s.position < fuel) :
    Safely (Safe text) (parseNumber text fuel) s
      (Ends text s (ends (Json.parseNumber text s.position hp))) := by
  rw [ends_parseNumber]
  refine does_position.bind ((does_skipMinus hp).bind ?_)
  generalize hstart : (if text[s.position] = 0x2D then s.position + 1 else s.position) = start
  have hstarts : s.position ≤ start ∧ start ≤ text.length := by
    rw [← hstart]
    split_ifs <;> omega
  refine (does_scanWhile (s := { s with position := start }) hstarts.2
    (by dsimp only; omega)).bind ?_
  have hle := hstarts.1.trans (Json.le_scanWhile isNumberByte text start)
  have hinside := Json.scanWhile_le isNumberByte hstarts.2
  generalize Json.scanWhile isNumberByte text start = last at hle hinside ⊢
  refine does_position.bind ?_
  dsimp only
  have hnone : Ends (α := Value) text s none none { s with position := last } :=
    ⟨rfl, fun _ h => (nomatch h), hle, hinside, rfl⟩
  by_cases hlast : last = s.position
  · rw [if_pos hlast, if_pos hlast]
    exact safely_pure hnone
  · have hscanned : Safe text (.scanned s.position last) := ⟨hle, hinside⟩
    rw [if_neg hlast, if_neg hlast]
    refine (does_emit hscanned).bind ?_
    split_ifs
    · exact safely_pure hnone
    · exact safely_pure ⟨rfl, fun _ h => by cases h; rfl, hle, hinside, rfl⟩

theorem readHexQuad_ends (hp : s.position ≤ text.length) :
    Safely (Safe text) (readHexQuad text) s
      (Ends text s (ends (Json.readHexQuad text s.position))) := by
  unfold Json.readHexQuad
  refine does_position.bind ?_
  by_cases h : s.position + 4 ≤ text.length
  · have hscanned : Safe text (.scanned s.position (s.position + 4)) := ⟨Nat.le_add_right _ 4, h⟩
    rw [dif_pos h, if_neg (Nat.not_lt.mpr h)]
    refine (does_emit hscanned).bind ?_
    dsimp only
    split_ifs
    · exact safely_pure (ends_none hp)
    · refine (does_moveTo h).bind (safely_pure ?_)
      exact ⟨rfl, fun _ h => by cases h; rfl, Nat.le_add_right _ 4, h, rfl⟩
  · rw [dif_neg h, if_pos (Nat.not_le.mp h)]
    exact safely_pure (ends_none hp)

/-! ## Strings -/

/-- The bytes behind those that are there already. -/
def appended (out : Bytes) (f : Option (Bytes × Nat)) : Option (Bytes × Nat) :=
  f.map fun q => (out ++ q.1, q.2)

/-- The first half of `ParseUnicodeEscape` has been read. -/
theorem ends_parseUnicodeEscape {p : Nat} {first : Parsed text p Nat}
    (h : Json.readHexQuad text p = some first) :
    ends (Json.parseUnicodeEscape text p) =
      if 0xD800 ≤ first.value ∧ first.value ≤ 0xDBFF ∧
          compareAt text first.next (bytes "\\u") = true then
        match ends (Json.readHexQuad text (first.next + 2)) with
        | some (low, next) =>
          if 0xDC00 ≤ low ∧ low ≤ 0xDFFF then
            some (appendUtf8 (0x10000 + ((first.value - 0xD800) <<< 10) + (low - 0xDC00)), next)
          else some (appendUtf8 0xFFFD, first.next)
        | none => some (appendUtf8 0xFFFD, first.next)
      else if 0xD800 ≤ first.value ∧ first.value ≤ 0xDFFF then
        some (appendUtf8 0xFFFD, first.next)
      else some (appendUtf8 first.value, first.next) := by
  unfold Json.parseUnicodeEscape
  rw [h, Option.bind_eq_bind, Option.bind_some]
  dsimp only
  split_ifs
  · cases Json.readHexQuad text (first.next + 2) with
    | none => rfl
    | some low =>
      simp only [ends, Option.map_some]
      split_ifs <;> simp only [Option.map_some, Parsed.since, Parsed.map]
  · rfl
  · rfl

theorem ends_appended (out b : Bytes) {n : Nat} {s' : State} (hpos : s'.position = n)
    (hback : s.position ≤ n) (hinside : n ≤ text.length) (hframes : s'.frames = s.frames) :
    Ends text s (appended out (some (b, n))) (some (out ++ b)) s' :=
  ⟨rfl, fun _ h => by cases h; exact hpos, hpos ▸ hback, hpos ▸ hinside, hframes⟩

theorem parseUnicodeEscape_ends {began : Nat} {out : Bytes} (hbegan : began < s.position)
    (hp : s.position ≤ text.length) :
    Safely (Safe text) (parseUnicodeEscape text began out) s
      (Ends text s (appended out (ends (Json.parseUnicodeEscape text s.position)))) := by
  refine (readHexQuad_ends hp).bind ?_
  intro r s₁ hr
  cases hquad : Json.readHexQuad text s.position with
  | none =>
    have hnone : Json.parseUnicodeEscape text s.position = none := by
      rw [Json.parseUnicodeEscape, hquad]; rfl
    have hvalue := hr.value
    rw [hquad] at hvalue
    subst hvalue
    rw [hnone]
    exact safely_pure ⟨rfl, fun _ h => (nomatch h), hr.back, hr.inside, hr.frames⟩
  | some first =>
    have hvalue := hr.value
    have hnext := hr.next
    rw [hquad] at hvalue hnext
    replace hvalue : r = some first.value := hvalue
    replace hnext : s₁.position = first.next := hnext _ rfl
    subst hvalue
    rw [ends_parseUnicodeEscape hquad]
    dsimp only
    have hback : s.position ≤ first.next := first.advances.le
    have hdone : ∀ b : Bytes, ∀ s' : State, s'.position = first.next → s'.frames = s₁.frames →
        Ends text s (appended out (some (b, first.next))) (some (out ++ b)) s' :=
      fun b s' hpos hframes => ends_appended out b hpos hback first.inside (hframes.trans hr.frames)
    by_cases hhigh : 0xD800 ≤ first.value ∧ first.value ≤ 0xDBFF
    · rw [if_pos hhigh]
      simp only [hhigh.1, hhigh.2, true_and]
      refine (does_compare hr.inside).bind ?_
      rw [hnext]
      by_cases hcompare : compareAt text first.next (bytes "\\u") = true
      · rw [if_pos hcompare, if_pos hcompare]
        have hinside := Json.compareAt_inside (by decide) hcompare
        have hlength : (bytes "\\u").length = 2 := by decide
        rw [hlength] at hinside
        refine does_position.bind ?_
        rw [hnext]
        refine (does_moveTo hinside.2).bind
          ((readHexQuad_ends (s := { s₁ with position := first.next + 2 }) hinside.2).bind ?_)
        intro r s₂ hlow
        have hbegins : Safe text (.restored began first.next) :=
          Nat.lt_of_lt_of_le hbegan hback
        have hrestore : Safely (Safe text) (do
            moveTo first.next
            Prog.emit (.restored began first.next)
            return some (out ++ appendUtf8 0xFFFD)) s₂
            (Ends text s (appended out (some (appendUtf8 0xFFFD, first.next)))) :=
          (does_moveTo first.inside).bind ((does_emit hbegins).bind
            (safely_pure (hdone _ _ rfl hlow.frames)))
        have hvalue := hlow.value
        have hnext' := hlow.next
        dsimp only at hvalue hnext'
        cases hends : ends (Json.readHexQuad text (first.next + 2)) with
        | none =>
          rw [hends] at hvalue
          subst hvalue
          exact hrestore
        | some low =>
          rw [hends] at hvalue hnext'
          subst hvalue
          dsimp only [Option.map_some]
          by_cases hpair : 0xDC00 ≤ low.1 ∧ low.1 ≤ 0xDFFF
          · rw [if_pos hpair, if_pos hpair]
            have hpos : s₂.position = low.2 := hnext' _ rfl
            exact safely_pure (ends_appended out _ hpos
              (hpos ▸ (hback.trans (Nat.le_add_right _ 2)).trans hlow.back)
              (hpos ▸ hlow.inside) (hlow.frames.trans hr.frames))
          · rw [if_neg hpair, if_neg hpair]
            exact hrestore
      · rw [if_neg hcompare, if_neg hcompare, if_pos (hhigh.2.trans (by decide))]
        exact safely_pure (hdone _ _ hnext rfl)
    · have hpair : ¬ (0xD800 ≤ first.value ∧ first.value ≤ 0xDBFF ∧
          compareAt text first.next (bytes "\\u") = true) := fun h => hhigh ⟨h.1, h.2.1⟩
      rw [if_neg hhigh, if_neg hpair]
      split_ifs
      · exact safely_pure (hdone _ _ hnext rfl)
      · exact safely_pure (hdone _ _ hnext rfl)

theorem ends_since {p q : Nat} {h : p ≤ q} (f : Option (Parsed text q α)) :
    ends (f.map (·.since h)) = ends f := by
  cases f <;> rfl

/-- The machine has gone on from a later state. -/
theorem Ends.since {s₁ s' : State} {f : Option (α × Nat)} {r : Option α} (h : Ends text s₁ f r s')
    (hback : s.position ≤ s₁.position) (hframes : s₁.frames = s.frames) : Ends text s f r s' :=
  ⟨h.value, h.next, hback.trans h.back, h.inside, h.frames.trans hframes⟩

theorem parseEscape_ends {began : Nat} {out : Bytes} (hbegan : began < s.position)
    (hp : s.position ≤ text.length) :
    Safely (Safe text) (parseEscape text began out) s
      (Ends text s (appended out (ends (Json.parseEscape text s.position)))) := by
  unfold Json.parseEscape
  refine does_more.bind ?_
  by_cases hlt : s.position < text.length
  · rw [decide_eq_true hlt, if_pos rfl, dif_pos hlt]
    refine (does_readNext hlt).bind ?_
    dsimp only
    have hone : ∀ b : UInt8, Ends text s (appended out (some ([b], s.position + 1)))
        (some (out ++ [b])) { s with position := s.position + 1 } :=
      fun b => ends_appended out [b] rfl (Nat.le_succ _) hlt rfl
    split_ifs
    · exact safely_pure (hone _)
    · exact safely_pure (hone _)
    · exact safely_pure (hone _)
    · exact safely_pure (hone _)
    · exact safely_pure (hone _)
    · exact safely_pure (hone _)
    · rw [ends_since]
      refine (parseUnicodeEscape_ends (s := { s with position := s.position + 1 })
        (Nat.lt_succ_of_lt hbegan) hlt).mono ?_
      intro r s' h
      exact h.since (Nat.le_succ _) rfl
    · exact safely_pure ⟨rfl, fun _ h => (nomatch h), Nat.le_succ _, hlt, rfl⟩
  · rw [decide_eq_false hlt, if_neg Bool.false_ne_true, dif_neg hlt]
    exact safely_pure (ends_none hp)

theorem stringLoop_ends {fuel : Nat} (hp : s.position ≤ text.length)
    (hfuel : text.length - s.position < fuel) :
    Safely (Safe text)
      (whileLoop .parseString (more text) (stringTurn text) (fun _ => return none) fuel []) s
      (Ends text s (ends (Json.parseStringLoop text s.position []))) := by
  refine safely_whileLoop (fun out t => t.frames = s.frames ∧ s.position ≤ t.position ∧
    t.position ≤ text.length ∧ ends (Json.parseStringLoop text t.position out) =
      ends (Json.parseStringLoop text s.position [])) ?_ ⟨rfl, le_rfl, hp, rfl⟩ hfuel
  rintro out t ⟨hframes, hback, ht, hloop⟩
  rw [Json.parseStringLoop] at hloop
  refine does_more.safely ⟨rfl, ?_⟩
  by_cases hlt : t.position < text.length
  · rw [decide_eq_true hlt, if_pos rfl]
    rw [dif_pos hlt] at hloop
    refine does_position.bind ((does_readNext hlt).bind ?_)
    have hnone : ∀ t' : State, ends (Json.parseStringLoop text s.position []) = none →
        t.position ≤ t'.position → t'.position ≤ text.length → t'.frames = t.frames →
        Ends text s (ends (Json.parseStringLoop text s.position [])) none t' := by
      intro t' he hle hin hfr
      rw [he]
      exact ⟨rfl, fun _ h => (nomatch h), hback.trans hle, hin, hfr.trans hframes⟩
    dsimp only at hloop ⊢
    split_ifs at hloop ⊢ with hquote hraw hcontrol
    · refine safely_pure ⟨hlt, Nat.lt_succ_self _, ?_⟩
      rw [← hloop]
      exact ⟨rfl, fun _ h => by cases h; rfl, hback.trans (Nat.le_succ _), hlt, hframes⟩
    · exact safely_pure ⟨hlt, .inl (Nat.lt_succ_self _), hnone _ hloop.symm (Nat.le_succ _) hlt rfl⟩
    · rw [ends_since] at hloop
      exact safely_pure ⟨hlt, Nat.lt_succ_self _, hframes, hback.trans (Nat.le_succ _), hlt, hloop⟩
    · refine (parseEscape_ends (s := { t with position := t.position + 1 }) (Nat.lt_succ_self _)
        hlt).bind ?_
      intro r t' hr
      have hstep : t.position < t'.position := hr.back
      have hvalue := hr.value
      have hnext := hr.next
      dsimp only at hvalue hnext
      cases hescape : Json.parseEscape text (t.position + 1) with
      | none =>
        rw [hescape] at hvalue hloop
        subst hvalue
        exact safely_pure ⟨hr.inside, .inl hstep, hnone _ hloop.symm hstep.le hr.inside hr.frames⟩
      | some escape =>
        rw [hescape] at hvalue hnext hloop
        rw [Option.bind_some, ends_since] at hloop
        replace hvalue : r = some (out ++ escape.value) := hvalue
        replace hnext : t'.position = escape.next := hnext _ rfl
        subst hvalue
        refine safely_pure ⟨hr.inside, hstep, hr.frames.trans hframes, hback.trans hstep.le,
          hr.inside, ?_⟩
        rwa [hnext]
  · rw [decide_eq_false hlt, if_neg Bool.false_ne_true]
    rw [dif_neg hlt] at hloop
    refine safely_pure ?_
    rw [← hloop]
    exact ⟨rfl, fun _ h => (nomatch h), hback, ht, hframes⟩

theorem parseString_ends {fuel : Nat} (hp : s.position ≤ text.length)
    (hfuel : text.length - s.position < fuel) :
    Safely (Safe text) (parseString text fuel) s
      (Ends text s (ends (Json.parseString text s.position))) := by
  unfold Json.parseString
  refine safely_consume ?_ ?_
  · intro quote hquote
    rw [hquote, Option.bind_some, ends_since, if_pos rfl]
    have hlt := quote.advances
    refine (stringLoop_ends (s := { s with position := quote.next }) quote.inside
      (by dsimp only; omega)).mono ?_
    intro r s' h
    exact h.since hlt.le rfl
  · intro hnone
    rw [hnone]
    exact safely_pure (ends_none hp)

/-! ## Containers -/

section
variable {pv : Machine (Option Value)} {F : (p : Nat) → Option (Parsed text p Value)}
  {fuel frames : Nat}

/-- The machine's `ParseValue` does what the function on positions does, called with this many
frames active. -/
def Parses (text : Bytes) (pv : Machine (Option Value))
    (F : (p : Nat) → Option (Parsed text p Value)) (frames : Nat) : Prop :=
  ∀ s : State, s.position ≤ text.length → s.frames = frames →
    Safely (Safe text) pv s (Ends text s (ends (F s.position)))

/-- One iteration does the part of the loop `G` that lies before the next one. -/
def Turns {α β : Type} (text : Bytes) (frames : Nat) (G : Nat → β → Option (α × Nat)) (b : β)
    (t : State) (turn : Turn β (Option α)) (t' : State) : Prop :=
  t'.position ≤ text.length ∧ t'.frames = frames ∧
  match turn with
  | .again b' => t.position < t'.position ∧ G t.position b = G t'.position b'
  | .leave (some a) => t.position < t'.position ∧ G t.position b = some (a, t'.position)
  | .leave none => t.position ≤ t'.position ∧ G t.position b = none

/-- The loop of a container does what its iterations do. -/
theorem containerLoop_ends {kind : Loop} {turn : β → Machine (Turn β (Option α))}
    {G : Nat → β → Option (α × Nat)} (hkind : kind.container = true)
    (hturn : ∀ b t, t.frames = s.frames → t.position ≤ text.length →
      Safely (Safe text) (turn b) t (Turns text s.frames G b t))
    (hp : s.position ≤ text.length) (hfuel : text.length < fuel) (b : β) :
    Safely (Safe text) (whileLoop kind (return true) turn (fun _ => return none) fuel b) s
      (Ends text s (G s.position b)) := by
  refine safely_whileLoop (fun b' t => t.frames = s.frames ∧ s.position ≤ t.position ∧
    t.position ≤ text.length ∧ G t.position b' = G s.position b) ?_ ⟨rfl, le_rfl, hp, rfl⟩ (by omega)
  rintro b' t ⟨hframes, hback, ht, hG⟩
  refine does_pure.safely ⟨rfl, ?_⟩
  rw [if_pos rfl]
  refine (hturn b' t hframes ht).mono ?_
  rintro turn t' ⟨hinside, hframes', hspec⟩
  refine ⟨hinside, ?_⟩
  cases turn with
  | again b'' =>
    obtain ⟨hlt, hsame⟩ := hspec
    exact ⟨hlt, hframes', hback.trans hlt.le, hinside, hsame.symm.trans hG⟩
  | leave result =>
    cases result with
    | some a =>
      obtain ⟨hlt, hsome⟩ := hspec
      rw [← hG, hsome]
      exact ⟨hlt, rfl, fun _ h => by cases h; rfl, hback.trans hlt.le, hinside, hframes'⟩
    | none =>
      obtain ⟨hle, hnone⟩ := hspec
      rw [← hG, hnone]
      exact ⟨.inr ⟨hkind, hle⟩, rfl, fun _ h => (nomatch h), hback.trans hle, hinside, hframes'⟩

theorem turns_none {G : Nat → β → Option (α × Nat)} {b : β} {t t' : State}
    (hinside : t'.position ≤ text.length) (hframes : t'.frames = frames)
    (hback : t.position ≤ t'.position) (hG : G t.position b = none) :
    Turns text frames G b t (.leave none) t' :=
  ⟨hinside, hframes, hback, hG⟩

/-- The end of an iteration: a comma, the closing bracket, or neither. -/
theorem separator_turns {G : Nat → β → Option (α × Nat)} {b b' : β} {a : α} {close : UInt8}
    {t t' : State} {p : Nat} (hpos : t'.position = p) (hinside : t'.position ≤ text.length)
    (hframes : t'.frames = frames) (hlt : t.position < t'.position) (hfuel : text.length < fuel)
    (hG : G t.position b =
      match Json.consume 0x2C text (Json.skipWhitespace text p) with
      | some comma => G comma.next b'
      | none => (Json.consume close text (Json.skipWhitespace text p)).map fun q => (a, q.next)) :
    Safely (Safe text) (do
        skipWhitespace text fuel
        if ← consume text 0x2C then return .again b'
        else if ← consume text close then return .leave (some a)
        else return .leave none) t' (Turns text frames G b t) := by
  subst hpos
  have hskip := Json.le_skipWhitespace text t'.position
  have hin : Json.skipWhitespace text t'.position ≤ text.length := Json.scanWhile_le isWs hinside
  refine (does_skipWhitespace hinside (by omega)).bind ?_
  refine safely_consume ?_ ?_
  · intro comma hcomma
    have hadvances := comma.advances
    dsimp only at hcomma hadvances
    rw [hcomma] at hG
    exact safely_pure ⟨comma.inside, hframes, by dsimp only; omega, hG⟩
  · intro hcomma
    dsimp only at hcomma
    rw [hcomma] at hG
    refine safely_consume ?_ ?_
    · intro q hclose
      have hadvances := q.advances
      dsimp only at hclose hadvances
      rw [hclose] at hG
      exact safely_pure ⟨q.inside, hframes, by dsimp only; omega, hG⟩
    · intro hclose
      dsimp only at hclose
      rw [hclose] at hG
      exact safely_pure (turns_none hin hframes (by dsimp only; omega) hG)

/-- What a function has returned when the one on positions returns this. -/
theorem Ends.none_inv {f : Option (Parsed text s.position α)} {r : Option α} {s' : State}
    (h : Ends text s (ends f) r s') (hf : f = none) : r = none := by
  rw [h.value, hf]
  rfl

theorem Ends.some_inv {f : Option (Parsed text s.position α)} {r : Option α} {s' : State}
    (h : Ends text s (ends f) r s') {q : Parsed text s.position α} (hf : f = some q) :
    r = some q.value ∧ s'.position = q.next := by
  subst hf
  exact ⟨h.value, h.next _ rfl⟩

theorem elementTurn_turns (hpv : Parses text pv F frames) (hfuel : text.length < fuel)
    {t : State} {array : List Value} (hframes : t.frames = frames) (ht : t.position ≤ text.length) :
    Safely (Safe text) (elementTurn text pv fuel array) t
      (Turns text frames (fun p array => ends (Json.parseElements text F p array)) array t) := by
  have hskip := Json.le_skipWhitespace text t.position
  refine (does_skipWhitespace ht (by omega)).bind ?_
  refine (hpv { t with position := Json.skipWhitespace text t.position }
    (Json.scanWhile_le isWs ht) hframes).bind ?_
  intro r t₁ hr
  have hback : Json.skipWhitespace text t.position ≤ t₁.position := hr.back
  cases hF : F (Json.skipWhitespace text t.position) with
  | none =>
    obtain rfl := hr.none_inv hF
    refine safely_pure (turns_none hr.inside (hr.frames.trans hframes) (hskip.trans hback) ?_)
    rw [Json.parseElements, hF]
    rfl
  | some value =>
    obtain ⟨rfl, hnext⟩ := hr.some_inv hF
    have hadvances := value.advances
    refine separator_turns hnext hr.inside (hr.frames.trans hframes) (by omega) hfuel ?_
    dsimp only
    rw [Json.parseElements, hF]
    dsimp only [Option.bind_some]
    cases Json.consume 0x2C text (Json.skipWhitespace text value.next) with
    | some comma => exact ends_since _
    | none =>
      cases Json.consume 0x5D text (Json.skipWhitespace text value.next) <;> rfl

theorem memberTurn_turns (hpv : Parses text pv F frames) (hfuel : text.length < fuel)
    {t : State} {object : Object} (hframes : t.frames = frames) (ht : t.position ≤ text.length) :
    Safely (Safe text) (memberTurn text pv fuel object) t
      (Turns text frames (fun p object => ends (Json.parseMembers text F p object)) object t) := by
  have hskip := Json.le_skipWhitespace text t.position
  refine (does_skipWhitespace ht (by omega)).bind ?_
  refine (parseString_ends (s := { t with position := Json.skipWhitespace text t.position })
    (Json.scanWhile_le isWs ht) (by omega)).bind ?_
  intro r t₁ hr
  have hback : Json.skipWhitespace text t.position ≤ t₁.position := hr.back
  cases hkey : Json.parseString text (Json.skipWhitespace text t.position) with
  | none =>
    obtain rfl := hr.none_inv hkey
    refine safely_pure (turns_none hr.inside (hr.frames.trans hframes) (hskip.trans hback) ?_)
    rw [Json.parseMembers, hkey]
    rfl
  | some key =>
    obtain ⟨rfl, hnext⟩ := hr.some_inv hkey
    have hkeyAdvances := key.advances
    have hskip₁ := Json.le_skipWhitespace text key.next
    have hin₁ : Json.skipWhitespace text key.next ≤ text.length :=
      Json.scanWhile_le isWs key.inside
    refine (does_skipWhitespace hr.inside (by omega)).bind ?_
    rw [hnext]
    refine safely_consume ?_ ?_
    · intro colon hcolon
      have hcolonAdvances := colon.advances
      have hskip₂ := Json.le_skipWhitespace text colon.next
      dsimp only at hcolon hcolonAdvances
      refine (does_skipWhitespace (s := { t₁ with position := colon.next }) colon.inside
        (by dsimp only; omega)).bind ?_
      refine (hpv { t₁ with position := Json.skipWhitespace text colon.next }
        (Json.scanWhile_le isWs colon.inside) (hr.frames.trans hframes)).bind ?_
      intro r' t₂ hr'
      have hback' : Json.skipWhitespace text colon.next ≤ t₂.position := hr'.back
      have hframes' : t₂.frames = frames := (hr'.frames.trans hr.frames).trans hframes
      cases hF : F (Json.skipWhitespace text colon.next) with
      | none =>
        obtain rfl := hr'.none_inv hF
        refine safely_pure (turns_none hr'.inside hframes' (by omega) ?_)
        rw [Json.parseMembers, hkey, Option.bind_some, hcolon, Option.bind_some, hF]
        rfl
      | some value =>
        obtain ⟨rfl, hnext'⟩ := hr'.some_inv hF
        have hadvances := value.advances
        refine separator_turns hnext' hr'.inside hframes' (by omega) hfuel ?_
        dsimp only
        rw [Json.parseMembers, hkey, Option.bind_some, hcolon, Option.bind_some, hF]
        dsimp only [Option.bind_some]
        cases Json.consume 0x2C text (Json.skipWhitespace text value.next) with
        | some comma => exact ends_since _
        | none =>
          cases Json.consume 0x7D text (Json.skipWhitespace text value.next) <;> rfl
    · intro hcolon
      dsimp only at hcolon
      refine safely_pure (turns_none hin₁ (hr.frames.trans hframes) (by dsimp only; omega) ?_)
      rw [Json.parseMembers, hkey, Option.bind_some, hcolon]
      rfl

/-- A container up to its loop: the opening bracket, and the closing one right behind it. -/
theorem container_ends {kind : Loop} {turn : β → Machine (Turn β (Option Value))}
    {G : Nat → β → Option (Value × Nat)} {close : UInt8} {empty : Value}
    (hkind : kind.container = true)
    (hturn : ∀ b t, t.frames = s.frames → t.position ≤ text.length →
      Safely (Safe text) (turn b) t (Turns text s.frames G b t))
    (hp : s.position < text.length) (hfuel : text.length < fuel) (b : β) :
    Safely (Safe text) (do
        moveTo ((← position) + 1)
        skipWhitespace text fuel
        if ← consume text close then return some empty
        else whileLoop kind (return true) turn (fun _ => return none) fuel b) s
      (Ends text s (match Json.consume close text (Json.skipWhitespace text (s.position + 1)) with
        | some q => some (empty, q.next)
        | none => G (Json.skipWhitespace text (s.position + 1)) b)) := by
  have hskip := Json.le_skipWhitespace text (s.position + 1)
  have hin : Json.skipWhitespace text (s.position + 1) ≤ text.length := Json.scanWhile_le isWs hp
  refine does_position.bind ((does_moveTo hp).bind ?_)
  refine (does_skipWhitespace (s := { s with position := s.position + 1 }) hp
    (by dsimp only; omega)).bind ?_
  dsimp only
  refine safely_consume ?_ ?_
  · intro q hclose
    have hlt := q.advances
    dsimp only at hclose hlt
    rw [hclose, if_pos rfl]
    exact safely_pure ⟨rfl, fun _ h => by cases h; rfl, by dsimp only; omega, q.inside, rfl⟩
  · intro hclose
    dsimp only at hclose
    rw [hclose, if_neg Bool.false_ne_true]
    refine (containerLoop_ends (s := { s with
      position := Json.skipWhitespace text (s.position + 1) }) hkind hturn hin hfuel b).mono ?_
    intro r s' h
    exact h.since (by dsimp only; omega) rfl

theorem parseArray_ends (hpv : Parses text pv F s.frames) (hfuel : text.length < fuel)
    (hp : s.position < text.length) :
    Safely (Safe text) (parseArray text pv fuel) s
      (Ends text s (ends (Json.parseArray text F s.position))) := by
  refine (container_ends rfl (fun array t hframes ht => elementTurn_turns hpv hfuel hframes ht) hp
    hfuel []).mono ?_
  intro r s' h
  unfold Json.parseArray
  cases hclose : Json.consume 0x5D text (Json.skipWhitespace text (s.position + 1)) with
  | some q => rw [hclose] at h; exact h
  | none =>
    rw [hclose] at h
    dsimp only
    rw [ends_since]
    exact h

theorem parseObject_ends (hpv : Parses text pv F s.frames) (hfuel : text.length < fuel)
    (hp : s.position < text.length) :
    Safely (Safe text) (parseObject text pv fuel) s
      (Ends text s (ends (Json.parseObject text F s.position))) := by
  refine (container_ends rfl (fun object t hframes ht => memberTurn_turns hpv hfuel hframes ht) hp
    hfuel []).mono ?_
  intro r s' h
  unfold Json.parseObject
  cases hclose : Json.consume 0x7D text (Json.skipWhitespace text (s.position + 1)) with
  | some q => rw [hclose] at h; exact h
  | none =>
    rw [hclose] at h
    dsimp only
    rw [ends_since]
    exact h

end

/-! ## Values -/

theorem framed_ends {body : Machine (Option α)} {f : Option (α × Nat)}
    (hframes : s.frames ≤ kMaxDepth + 1)
    (h : Safely (Safe text) body { s with frames := s.frames + 1 }
      (Ends text { s with frames := s.frames + 1 } f)) :
    Safely (Safe text) (framed body) s (Ends text s f) := by
  have hentered : Safe text (.entered (s.frames + 1)) := Nat.succ_le_succ hframes
  refine does_modify.bind (does_get.bind ((does_emit hentered).bind (h.bind ?_)))
  intro r s' hr
  refine does_modify.bind (safely_pure ⟨hr.value, hr.next, hr.back, hr.inside, ?_⟩)
  have hsame := hr.frames
  dsimp only at hsame ⊢
  omega

/-- `ParseValue` at a depth that its callers can have reached, with fuel for the depth that is left
and for the loops. -/
theorem parseValue_ends (fuel depth : Nat) (hdepth : depth ≤ kMaxDepth + 1)
    (hfuel : text.length + (kMaxDepth + 2 - depth) < fuel) :
    Parses text (parseValue text fuel depth) (Json.parseValue text (kMaxDepth + 1 - depth))
      depth := by
  induction fuel generalizing depth with
  | zero => omega
  | succ fuel ih =>
    intro s hp hframes
    rw [parseValue]
    refine framed_ends (hframes ▸ hdepth) ?_
    by_cases hdeep : depth > kMaxDepth
    · have hlevels : kMaxDepth + 1 - depth = 0 := by omega
      rw [hlevels, Json.parseValue, if_pos hdeep]
      exact safely_pure (ends_none hp)
    · have hlevels : kMaxDepth + 1 - depth = kMaxDepth + 1 - (depth + 1) + 1 := by omega
      rw [hlevels, Json.parseValue, if_neg hdeep]
      have hloops : text.length < fuel := by omega
      have hpv := ih (depth + 1) (by omega) (by omega)
      refine does_more.bind ?_
      dsimp only
      by_cases hlt : s.position < text.length
      · rw [decide_eq_true hlt, if_pos rfl, dif_pos hlt]
        refine (does_peek (s := { s with frames := s.frames + 1 }) hlt).bind ?_
        dsimp only
        split_ifs
        · exact parseObject_ends (s := { s with frames := s.frames + 1 })
            (by rw [hframes]; exact hpv) hloops hlt
        · exact parseArray_ends (s := { s with frames := s.frames + 1 })
            (by rw [hframes]; exact hpv) hloops hlt
        · refine (parseString_ends (s := { s with frames := s.frames + 1 }) hp (by omega)).bind ?_
          intro r s' hr
          refine safely_pure ⟨?_, ?_, hr.back, hr.inside, hr.frames⟩
          · rw [hr.value]
            cases Json.parseString text s.position <;> rfl
          · have hnext := hr.next
            dsimp only at hnext
            intro q hq
            cases hs : Json.parseString text s.position with
            | none => rw [hs] at hq; cases hq
            | some str =>
              rw [hs] at hq hnext
              cases hq
              exact hnext _ rfl
        · exact parseLiteral_ends (s := { s with frames := s.frames + 1 }) (by decide) hp
        · exact parseLiteral_ends (s := { s with frames := s.frames + 1 }) (by decide) hp
        · exact parseLiteral_ends (s := { s with frames := s.frames + 1 }) (by decide) hp
        · exact parseNumber_ends (s := { s with frames := s.frames + 1 }) hlt (by dsimp only; omega)
      · rw [decide_eq_false hlt, if_neg Bool.false_ne_true, dif_neg hlt]
        exact safely_pure (ends_none hp)

theorem parseDocument_returns {fuel : Nat} (hfuel : text.length + (kMaxDepth + 2) < fuel) :
    Safely (Safe text) (parseDocument text fuel) ⟨0, 0⟩ fun r _ => r = Json.parseDocument text := by
  unfold Json.parseDocument
  have hin : Json.skipWhitespace text 0 ≤ text.length := Json.scanWhile_le isWs (Nat.zero_le _)
  refine (does_skipWhitespace (Nat.zero_le _) (by omega)).bind ?_
  refine (parseValue_ends fuel 0 (Nat.zero_le _) (by omega) ⟨Json.skipWhitespace text 0, 0⟩ hin
    rfl).bind ?_
  intro r s hr
  cases hvalue : Json.parseValue text (kMaxDepth + 1) (Json.skipWhitespace text 0) with
  | none =>
    obtain rfl := hr.none_inv hvalue
    exact safely_pure rfl
  | some value =>
    obtain ⟨rfl, hnext⟩ := hr.some_inv hvalue
    refine (does_skipWhitespace hr.inside (by omega)).bind (does_position.bind ?_)
    rw [hnext, Option.bind_some]
    dsimp only
    split_ifs
    · exact safely_pure rfl
    · exact safely_pure rfl

/-- **The parser is safe on every input.** With enough fuel, and so without any bound, it returns
what `json::Parse` is specified to return; `position_` and all it reads, compares and hands to
`std::from_chars` stay inside the text; every iteration advances, except for one that ends the loop
of a container with `nullopt`; an escape is left behind even when its second half is given back; and
no more than 66 calls of `ParseValue` are active. -/
theorem parse_is_safe (text : Bytes) {fuel : Nat} (hfuel : text.length + (kMaxDepth + 2) < fuel) :
    ∃ r, run fuel text = some r ∧ r.value = Json.parse text ∧ ∀ e ∈ r.events, Safe text e := by
  obtain ⟨r, hr, hevents, hvalue⟩ := parseDocument_returns hfuel
  exact ⟨r, hr, hvalue, hevents⟩

/-- A text that ends in the middle of the second half of a surrogate pair. -/
theorem parse_is_safe_truncated : ∃ r, run 100 (bytes "[\"\\ud83d\\u12") = some r ∧
    r.value = Json.parse (bytes "[\"\\ud83d\\u12") ∧
    ∀ e ∈ r.events, Safe (bytes "[\"\\ud83d\\u12") e :=
  parse_is_safe (bytes "[\"\\ud83d\\u12") (by decide)

/-- The only iteration over the elements of `[` ends where it began. -/
theorem failed_iteration_stays : ∃ r, run 100 (bytes "[") = some r ∧
    ∃ before after, .iterated .parseArray before after true ∈ r.events ∧ ¬ before < after := by
  have h : (run 100 (bytes "[")).any
      (fun r => decide (Event.iterated .parseArray 1 1 true ∈ r.events)) = true := by
    decide +kernel
  cases hr : run 100 (bytes "[") with
  | none => rw [hr] at h; cases h
  | some r =>
    rw [hr, Option.any_some] at h
    exact ⟨r, rfl, 1, 1, of_decide_eq_true h, Nat.lt_irrefl 1⟩

end OppexSdk.Cpp.JsonMachine
