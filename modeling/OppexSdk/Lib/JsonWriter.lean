import OppexSdk.Lib.FromChars

/-! # Objects written field by field

An encoder that builds an object by hand writes a brace, then each field with a comma before all
but the first, then the other brace. Whatever renders its strings, the text is a JSON object with
exactly these fields in this order, provided that a rendered string is a literal that denotes it.

`τ` is the encoder's type of texts and `denotes` the bytes a text stands for. -/
namespace OppexSdk.Lib.Json

/-- What is written after a name. -/
inductive Scalar (τ : Type)
  | text (s : τ)
  | number (i : Int)

variable {τ : Type}

section
variable (denotes render : τ → Bytes)

/-- Every text is rendered as a string literal that denotes it. -/
def Renders : Prop := ∀ s, ∃ items, stringText items = render s ∧ decode items = denotes s

def Scalar.written : Scalar τ → Bytes
  | .text s => render s
  | .number i => signedDecimal i

def memberText (f : τ × Scalar τ) : Bytes := render f.1 ++ 0x3A :: f.2.written render

/-- The object up to its last field, before the closing brace. -/
def openObject (fs : List (τ × Scalar τ)) : Bytes :=
  0x7B :: [0x2C].intercalate (fs.map (memberText render))

/-- The tree holds this value. -/
def Tree.Holds : Tree → Scalar τ → Prop
  | .str items, .text s => decode items = denotes s
  | .num lit, .number i => lit = signedDecimal i
  | _, _ => False

/-- The member has the name and the value of the field. -/
def Reads (m : List Item × Tree) (f : τ × Scalar τ) : Prop :=
  decode m.1 = denotes f.1 ∧ m.2.Holds denotes f.2

/-- The text is one JSON object whose members are these fields, in this order and no others. -/
def IsObjectOf (fs : List (τ × Scalar τ)) (text : Bytes) : Prop :=
  ∃ ms, Document JsonNumber (.obj ms) text ∧ List.Forall₂ (Reads denotes) ms fs

end

/-- The fields that are there. -/
def present (fs : List (τ × Option (Scalar τ))) : List (τ × Scalar τ) :=
  fs.filterMap fun f => f.2.map (Prod.mk f.1)

theorem intercalate_concat (x : UInt8) (ms : List Bytes) (m : Bytes) :
    [x].intercalate (ms ++ [m]) =
      if ms.isEmpty then m else [x].intercalate ms ++ x :: m := by
  induction ms with
  | nil => rw [List.nil_append, List.intercalate_singleton]; rfl
  | cons m₀ ms ih =>
    cases ms with
    | nil => simp
    | cons m₁ ms => simpa using ih

theorem openObject_concat (render : τ → Bytes) (fs : List (τ × Scalar τ)) (f : τ × Scalar τ) :
    openObject render (fs ++ [f]) =
      openObject render fs ++ (if fs.isEmpty then [] else [0x2C]) ++ memberText render f := by
  unfold openObject
  rw [List.map_append, List.map_singleton, intercalate_concat]
  cases fs with
  | nil => simp
  | cons f₀ fs => simp

/-! ## The text is an object -/

section
variable {denotes render : τ → Bytes}

theorem exists_tree (hr : Renders denotes render) (v : Scalar τ) :
    ∃ t : Tree, Derives JsonNumber (.value t) (v.written render) ∧ t.Holds denotes v := by
  cases v with
  | text s =>
    obtain ⟨items, htext, hdecode⟩ := hr s
    refine ⟨.str items, ?_, hdecode⟩
    rw [Scalar.written, ← htext]
    exact .str items
  | number i => exact ⟨.num _, .num (FromChars.jsonNumber_signedDecimal i), rfl⟩

/-- **What is written field by field is the object of these fields.** -/
theorem isObjectOf_written (hr : Renders denotes render) (fs : List (τ × Scalar τ)) :
    IsObjectOf denotes fs (openObject render fs ++ [0x7D]) := by
  have hws : Ws [] := List.forall_mem_nil _
  cases fs with
  | nil => exact ⟨[], ⟨[], _, [], hws, .objEmpty hws, hws, rfl⟩, .nil⟩
  | cons f fs =>
    have hfields : List.Forall₂ (fun text f => ∃ k t s, Derives JsonNumber (.value t) s ∧
        text = stringText k ++ 0x3A :: s ∧ Reads denotes (k, t) f)
        ((f :: fs).map (memberText render)) (f :: fs) := by
      refine List.forall₂_map_left_iff.mpr (List.forall₂_same.mpr fun f _ => ?_)
      obtain ⟨k, hkey, hk⟩ := hr f.1
      obtain ⟨t, hd, ht⟩ := exists_tree hr f.2
      exact ⟨k, t, _, hd, by rw [memberText, hkey], hk, ht⟩
    obtain ⟨ms, hms, hread⟩ := exists_members hfields (List.cons_ne_nil _ _)
    exact ⟨ms, ⟨[], _, [], hws, .obj hms, hws, by simp [openObject]⟩, hread⟩

end

end OppexSdk.Lib.Json
