import Mathlib.Data.Nat.Digits.Defs

/-! # Byte strings

`std::string` and the texts on the wire, as lists of bytes. -/
namespace OppexSdk.Lib

abbrev Bytes := List UInt8

/-- A decidable fact about bytes is a fact about 256 numbers. -/
theorem byte_cases {p : UInt8 → Prop} (h : ∀ n : Fin 256, p (UInt8.ofFin n)) (b : UInt8) : p b :=
  h b.toFin

section
variable {p : UInt8 → Bool} {s r : Bytes}

/-- A byte of a class is none of those outside of it. -/
theorem ne_of_class {b c : UInt8} (hb : p b = true) (hc : p c = false) : b ≠ c := by
  rintro rfl
  rw [hb] at hc
  cases hc

/-- A run of bytes ends where the next byte is not one of them. -/
theorem takeWhile_run (hs : ∀ b ∈ s, p b = true) (hr : ∀ b ∈ r.head?, p b = false) :
    (s ++ r).takeWhile p = s := by
  rw [List.takeWhile_append_of_pos hs]
  cases r with
  | nil => simp
  | cons b r => simp [hr b rfl]

theorem dropWhile_run (hs : ∀ b ∈ s, p b = true) (hr : ∀ b ∈ r.head?, p b = false) :
    (s ++ r).dropWhile p = r := by
  rw [List.dropWhile_append_of_pos hs]
  cases r with
  | nil => rfl
  | cons b r => exact List.dropWhile_cons_of_neg (by simp [hr b rfl])

end

/-- The UTF-8 bytes of a literal. -/
def bytes (s : String) : Bytes := s.toUTF8.data.toList

/-- The ASCII digit of a number below ten. -/
def digitByte (d : Nat) : UInt8 := UInt8.ofNat (48 + d)

/-- A natural number in decimal, without leading zeros. -/
def decimal (n : Nat) : Bytes :=
  if n = 0 then [digitByte 0] else (Nat.digits 10 n).reverse.map digitByte

theorem mem_decimal {b : UInt8} {n : Nat} (h : b ∈ decimal n) : ∃ d < 10, b = digitByte d := by
  unfold decimal at h
  split at h
  · exact ⟨0, by decide, List.mem_singleton.mp h⟩
  · obtain ⟨d, hd, rfl⟩ := List.mem_map.mp h
    exact ⟨d, Nat.digits_lt_base (by decide) (List.mem_reverse.mp hd), rfl⟩

theorem zero_notMem_decimal (n : Nat) : 0 ∉ decimal n := fun h => by
  obtain ⟨d, hd, he⟩ := mem_decimal h
  have hbytes : ∀ d < 10, (0 : UInt8) ≠ digitByte d := by decide
  exact hbytes d hd he

/-- `std::to_string` of a signed integer. -/
def signedDecimal (i : Int) : Bytes :=
  if i < 0 then 45 :: decimal i.natAbs else decimal i.natAbs

end OppexSdk.Lib
