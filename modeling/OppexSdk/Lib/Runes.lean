import Mathlib.Data.List.DropRight
import OppexSdk.Lib.Utf8

/-! # Byte strings read as runes

A string that is only conventionally UTF-8 is read character by character; a byte at which no
character starts is an invalid rune of its own, and reading goes on behind it. Lengths, white space
and encoders are then defined over the runes. -/
namespace OppexSdk.Lib.Runes
open OppexSdk.Lib.Utf8

inductive Rune
  | char (c : Char)
  | invalid (b : UInt8)
  deriving DecidableEq

/-- The bytes that were read. -/
def Rune.bytes : Rune → Bytes
  | .char c => String.utf8EncodeChar c
  | .invalid b => [b]

/-- The character it is taken for: U+FFFD stands for what is invalid. -/
def Rune.toChar : Rune → Char
  | .char c => c
  | .invalid _ => Char.ofNat 0xFFFD

def text (rs : List Rune) : Bytes := rs.flatMap Rune.bytes

/-- The character that starts the string. -/
def decodeRune (s : Bytes) : Option Char := s.toByteArray.utf8DecodeChar? 0

/-- The runes behind the first `skip` bytes. -/
def runesFrom : Nat → Bytes → List Rune
  | _, [] => []
  | skip + 1, _ :: s => runesFrom skip s
  | 0, b :: s =>
    match decodeRune (b :: s) with
    | some c => .char c :: runesFrom (c.utf8Size - 1) s
    | none => .invalid b :: runesFrom 0 s

def runes (s : Bytes) : List Rune := runesFrom 0 s

/-- The string with what is invalid in it replaced. -/
def toValid (s : Bytes) : Bytes := encode ((runes s).map Rune.toChar)

/-! ## Reading -/

theorem decodeRune_encode (c : Char) (s : Bytes) :
    decodeRune (String.utf8EncodeChar c ++ s) = some c := by
  unfold decodeRune
  rw [List.toByteArray_append, ByteArray.utf8DecodeChar?_utf8EncodeChar_append]

theorem exists_of_decodeRune {s : Bytes} {c : Char} (h : decodeRune s = some c) :
    ∃ t, s = String.utf8EncodeChar c ++ t := by
  obtain ⟨l, hl⟩ := ByteArray.exists_of_utf8DecodeChar?_eq_some h
  have hlist := congrArg (fun b => b.data.toList) hl
  exact ⟨l.data.toList, by simpa using hlist⟩

theorem encodeChar_ne_nil (c : Char) : String.utf8EncodeChar c ≠ [] := by
  intro h
  have hlen := congrArg List.length h
  have hpos := c.utf8Size_pos
  simp at hlen
  omega

theorem runesFrom_eq (skip : Nat) (s : Bytes) : runesFrom skip s = runes (s.drop skip) := by
  induction skip generalizing s with
  | zero => rfl
  | succ skip ih =>
    cases s with
    | nil => rfl
    | cons b s => simpa [runesFrom] using ih s

@[simp] theorem runes_nil : runes [] = [] := rfl

@[simp] theorem runes_encode (c : Char) (s : Bytes) :
    runes (String.utf8EncodeChar c ++ s) = .char c :: runes s := by
  obtain ⟨b, t, ht⟩ := List.exists_cons_of_ne_nil (encodeChar_ne_nil c)
  have hlen : t.length = c.utf8Size - 1 := by
    have hlength := congrArg List.length ht
    simp at hlength
    omega
  have hdecode := decodeRune_encode c s
  rw [ht, List.cons_append] at hdecode ⊢
  rw [runes, runesFrom, hdecode]
  dsimp only
  rw [runesFrom_eq, ← hlen, List.drop_left]

theorem runes_invalid {b : UInt8} {s : Bytes} (h : decodeRune (b :: s) = none) :
    runes (b :: s) = .invalid b :: runes s := by
  rw [runes, runesFrom, h]
  rfl

/-- **Induction over the runes of a string.** -/
theorem rune_induction {p : Bytes → Prop} (nil : p [])
    (char : ∀ c s, p s → p (String.utf8EncodeChar c ++ s))
    (invalid : ∀ b s, decodeRune (b :: s) = none → p s → p (b :: s)) (s : Bytes) : p s := by
  induction hn : s.length using Nat.strong_induction_on generalizing s with
  | _ n ih =>
    cases s with
    | nil => exact nil
    | cons b s =>
      cases hd : decodeRune (b :: s) with
      | none => exact invalid b s hd (ih s.length (by rw [← hn]; simp) s rfl)
      | some c =>
        obtain ⟨t, ht⟩ := exists_of_decodeRune hd
        rw [ht]
        refine char c t (ih t.length ?_ t rfl)
        have hlen := congrArg List.length ht
        have hpos := c.utf8Size_pos
        simp at hlen hn
        omega

theorem text_runes (s : Bytes) : text (runes s) = s := by
  induction s using rune_induction with
  | nil => rfl
  | char c s ih => rw [runes_encode, text, List.flatMap_cons]; exact congrArg _ ih
  | invalid b s hb ih => rw [runes_invalid hb, text, List.flatMap_cons]; exact congrArg _ ih

/-! ## Lists of runes that can be read -/

/-- No character starts at an invalid rune. -/
def Readable : List Rune → Prop
  | [] => True
  | .char _ :: rs => Readable rs
  | .invalid b :: rs => decodeRune (b :: text rs) = none ∧ Readable rs

theorem readable_runes (s : Bytes) : Readable (runes s) := by
  induction s using rune_induction with
  | nil => trivial
  | char c s ih => rw [runes_encode]; exact ih
  | invalid b s hb ih =>
    rw [runes_invalid hb]
    exact ⟨by rw [text_runes]; exact hb, ih⟩

theorem runes_text {rs : List Rune} (h : Readable rs) : runes (text rs) = rs := by
  induction rs with
  | nil => rfl
  | cons r rs ih =>
    rw [text, List.flatMap_cons]
    cases r with
    | char c => exact (runes_encode c _).trans (congrArg _ (ih h))
    | invalid b => exact (runes_invalid h.1).trans (congrArg _ (ih h.2))

theorem Readable.right {rs rs' : List Rune} (h : Readable (rs ++ rs')) : Readable rs' := by
  induction rs with
  | nil => exact h
  | cons r rs ih =>
    cases r with
    | char c => exact ih h
    | invalid b => exact ih h.2

/-- Less text behind an invalid rune does not make a character of it. -/
theorem decodeRune_none_of_append {b : UInt8} {s t : Bytes}
    (h : decodeRune (b :: (s ++ t)) = none) : decodeRune (b :: s) = none := by
  cases hs : decodeRune (b :: s) with
  | none => rfl
  | some c =>
    obtain ⟨u, hu⟩ := exists_of_decodeRune hs
    rw [← List.cons_append, hu, List.append_assoc, decodeRune_encode] at h
    cases h

theorem Readable.left {rs rs' : List Rune} (h : Readable (rs ++ rs')) : Readable rs := by
  induction rs with
  | nil => trivial
  | cons r rs ih =>
    cases r with
    | char c => exact ih h
    | invalid b =>
      obtain ⟨hb, hrest⟩ := h
      have htext : text (rs ++ rs') = text rs ++ text rs' := List.flatMap_append
      exact ⟨decodeRune_none_of_append (htext ▸ hb), ih hrest⟩

/-! ## White space -/

/-- The Unicode property White_Space. -/
def isSpace (c : Char) : Bool :=
  let n := c.toNat
  (0x09 ≤ n && n ≤ 0x0D) || n == 0x20 || n == 0x85 || n == 0xA0 || n == 0x1680 ||
    (0x2000 ≤ n && n ≤ 0x200A) || n == 0x2028 || n == 0x2029 || n == 0x202F || n == 0x205F ||
    n == 0x3000

def Rune.isSpace (r : Rune) : Bool := Runes.isSpace r.toChar

/-- The string without the white space at its two ends. -/
def trimSpace (s : Bytes) : Bytes :=
  text (((runes s).dropWhile Rune.isSpace).rdropWhile Rune.isSpace)

theorem trimSpace_eq_nil_iff (s : Bytes) :
    trimSpace s = [] ↔ ∀ r ∈ runes s, r.isSpace = true := by
  have htext : ∀ rs, text rs = [] ↔ rs = [] := by
    intro rs
    constructor
    · intro h
      cases rs with
      | nil => rfl
      | cons r rs =>
        rw [text, List.flatMap_cons] at h
        cases r with
        | char c => exact absurd (List.append_eq_nil_iff.mp h).1 (encodeChar_ne_nil c)
        | invalid b => cases h
    · rintro rfl; rfl
  rw [trimSpace, htext, List.rdropWhile_eq_nil_iff]
  constructor
  · intro h
    by_contra hne
    rw [← List.dropWhile_eq_nil_iff] at hne
    -- the first rune that is left is no white space
    have hhead := List.head_dropWhile_not _ hne
    rw [h _ (List.head_mem hne)] at hhead
    cases hhead
  · intro h
    rw [List.dropWhile_eq_nil_iff.mpr h]
    exact fun r hr => (List.not_mem_nil hr).elim

/-- A string with an ASCII character that is no white space is not blank. -/
theorem trimSpace_ne_nil {b : UInt8} {s : Bytes} (hmem : b ∈ s) (hascii : IsAscii b)
    (hb : isSpace (Char.ofNat b.toNat) = false) : trimSpace s ≠ [] := by
  intro h
  rw [trimSpace_eq_nil_iff] at h
  rw [← text_runes s] at hmem
  obtain ⟨r, hr, hbr⟩ := List.mem_flatMap.mp hmem
  have hspace := h r hr
  cases r with
  | invalid _ => cases hspace
  | char c =>
    have hc : c = Char.ofNat b.toNat := by
      have hsame := (encodeChar_of_ascii hbr hascii).trans (encodeChar_ascii hascii).symm
      have hdecode := congrArg (fun t => decodeRune (t ++ [])) hsame
      simpa only [decodeRune_encode, Option.some.injEq] using hdecode
    rw [Rune.isSpace, Rune.toChar, hc, hb] at hspace
    cases hspace

theorem readable_trimmed (s : Bytes) :
    Readable (((runes s).dropWhile Rune.isSpace).rdropWhile Rune.isSpace) := by
  have hall : Readable ((runes s).takeWhile Rune.isSpace ++ (runes s).dropWhile Rune.isSpace) := by
    rw [List.takeWhile_append_dropWhile]
    exact readable_runes s
  have hdrop := hall.right
  obtain ⟨t, ht⟩ := List.rdropWhile_prefix Rune.isSpace ((runes s).dropWhile Rune.isSpace)
  rw [← ht] at hdrop
  exact hdrop.left

/-- What is trimmed is not blank, unless nothing is left of it. -/
theorem eq_nil_of_trimSpace_trimSpace {s : Bytes} (h : trimSpace (trimSpace s) = []) :
    trimSpace s = [] := by
  rw [trimSpace_eq_nil_iff] at h
  rw [trimSpace] at h ⊢
  rw [runes_text (readable_trimmed s)] at h
  by_cases hne : ((runes s).dropWhile Rune.isSpace).rdropWhile Rune.isSpace = []
  · rw [hne]; rfl
  · exact absurd (h _ (List.getLast_mem hne)) (List.rdropWhile_last_not _ _ hne)

/-! ## Replacing what is invalid -/

theorem runes_encode_all (cs : List Char) : runes (encode cs) = cs.map .char := by
  induction cs with
  | nil => rfl
  | cons c cs ih => rw [encode_cons, runes_encode, ih, List.map_cons]

theorem encode_injective {cs cs' : List Char} (h : encode cs = encode cs') : cs = cs' := by
  have hrunes := congrArg runes h
  rw [runes_encode_all, runes_encode_all] at hrunes
  exact List.map_injective_iff.mpr (fun _ _ hc => Rune.char.inj hc) hrunes

theorem toValid_encode (cs : List Char) : toValid (encode cs) = encode cs := by
  rw [toValid, runes_encode_all, List.map_map]
  exact congrArg encode (List.map_id cs)

theorem toValid_bytes (s : String) : toValid (bytes s) = bytes s := by
  rw [bytes_eq_encode, toValid_encode]

theorem toValid_eq_iff (s t : Bytes) :
    toValid s = toValid t ↔ (runes s).map Rune.toChar = (runes t).map Rune.toChar :=
  ⟨encode_injective, congrArg encode⟩

/-- Replacing does not make a string blank, nor a blank one not. -/
theorem trimSpace_eq_nil_of_toValid {s t : Bytes} (h : toValid s = toValid t)
    (hs : trimSpace s = []) : trimSpace t = [] := by
  rw [toValid_eq_iff] at h
  rw [trimSpace_eq_nil_iff] at hs ⊢
  intro r hr
  have hmem : r.toChar ∈ (runes s).map Rune.toChar := h ▸ List.mem_map_of_mem hr
  obtain ⟨r', hr', he⟩ := List.mem_map.mp hmem
  have hspace := hs r' hr'
  rwa [Rune.isSpace, he] at hspace

end OppexSdk.Lib.Runes
