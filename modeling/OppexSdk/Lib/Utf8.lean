import OppexSdk.Lib.Bytes

/-! # UTF-8

A byte string is valid when it is a concatenation of encodings of scalar values. An ASCII byte is
the whole encoding of its character, so that validity can be decided between any two of them. -/
namespace OppexSdk.Lib.Utf8

/-- The encoding of a text. -/
def encode (cs : List Char) : Bytes := cs.flatMap String.utf8EncodeChar

theorem bytes_eq_encode (s : String) : bytes s = encode s.toList := by
  have hlist : s.toByteArray = s.toList.utf8Encode := by
    rw [← String.toByteArray_ofList, String.ofList_toList]
  rw [bytes, String.toUTF8_eq_toByteArray, hlist, List.utf8Encode]
  simp [encode]

def Valid (s : Bytes) : Prop := ∃ cs, s = encode cs

@[simp] theorem encode_nil : encode [] = [] := rfl

@[simp] theorem encode_cons (c : Char) (cs : List Char) :
    encode (c :: cs) = String.utf8EncodeChar c ++ encode cs := rfl

@[simp] theorem encode_append (cs cs' : List Char) :
    encode (cs ++ cs') = encode cs ++ encode cs' := List.flatMap_append

theorem valid_nil : Valid [] := ⟨[], rfl⟩

theorem valid_char (c : Char) : Valid (String.utf8EncodeChar c) := ⟨[c], by simp⟩

theorem Valid.append {s s' : Bytes} (h : Valid s) (h' : Valid s') : Valid (s ++ s') := by
  obtain ⟨cs, rfl⟩ := h
  obtain ⟨cs', rfl⟩ := h'
  exact ⟨cs ++ cs', (encode_append cs cs').symm⟩

/-- What is valid starts with a byte that starts a character. -/
theorem Valid.head_first {b : UInt8} {s : Bytes} (h : Valid (b :: s)) : b.IsUTF8FirstByte := by
  obtain ⟨cs, hcs⟩ := h
  cases cs with
  | nil => cases hcs
  | cons c cs =>
    have hlen : 0 < (String.utf8EncodeChar c).length := by simp [c.utf8Size_pos]
    have hhead : (String.utf8EncodeChar c)[0] = b := by
      have hget := congrArg (·[0]?) hcs
      rw [encode_cons, List.getElem?_append_left hlen, List.getElem?_eq_getElem hlen] at hget
      exact (Option.some.inj hget).symm
    rw [← hhead]
    exact UInt8.isUTF8FirstByte_getElem_zero_utf8EncodeChar

/-! ## ASCII -/

def IsAscii (b : UInt8) : Prop := b.toNat < 0x80

instance (b : UInt8) : Decidable (IsAscii b) := inferInstanceAs (Decidable (_ < _))

/-- An ASCII byte stands only in the encoding of its own character. -/
theorem encodeChar_of_ascii {c : Char} {b : UInt8} (hb : b ∈ String.utf8EncodeChar c)
    (hascii : IsAscii b) : String.utf8EncodeChar c = [b] := by
  unfold IsAscii at hascii
  revert hb
  fun_cases String.utf8EncodeChar c with
  | case1 v h =>
    intro hb
    rw [List.mem_singleton.mp hb]
  | case2 v h₁ h₂ =>
    intro hb
    simp only [List.mem_cons, List.not_mem_nil, or_false] at hb
    rcases hb with rfl | rfl <;> simp at hascii <;> omega
  | case3 v h₁ h₂ h₃ =>
    intro hb
    simp only [List.mem_cons, List.not_mem_nil, or_false] at hb
    rcases hb with rfl | rfl | rfl <;> simp at hascii <;> omega
  | case4 v h₁ h₂ h₃ =>
    intro hb
    simp only [List.mem_cons, List.not_mem_nil, or_false] at hb
    rcases hb with rfl | rfl | rfl | rfl <;> simp at hascii <;> omega

theorem val_ofNat {n : Nat} (h : n.isValidChar) : (Char.ofNat n).val.toNat = n := by
  rw [Char.ofNat, dif_pos h]
  rfl

theorem encodeChar_ascii {b : UInt8} (hascii : IsAscii b) :
    String.utf8EncodeChar (Char.ofNat b.toNat) = [b] := by
  unfold IsAscii at hascii
  have hval : (Char.ofNat b.toNat).val.toNat = b.toNat := val_ofNat (.inl (by omega))
  simp only [String.utf8EncodeChar, hval, if_pos (Nat.le_of_lt_succ hascii)]
  simp

theorem valid_ascii {b : UInt8} (hascii : IsAscii b) : Valid [b] :=
  encodeChar_ascii hascii ▸ valid_char _

/-- Validity on both sides of an ASCII byte. -/
theorem valid_around_ascii {b : UInt8} (hascii : IsAscii b) (s t : Bytes) :
    Valid (s ++ b :: t) ↔ Valid s ∧ Valid t := by
  constructor
  · intro hex
    obtain ⟨cs, hcs⟩ := hex
    induction cs generalizing s with
    | nil => simp at hcs
    | cons c cs ih =>
      rw [encode_cons] at hcs
      rcases List.append_eq_append_iff.mp hcs with ⟨r, hr, hrest⟩ | ⟨r, hr, hrest⟩
      · cases r with
        | nil =>
          obtain ⟨-, ht⟩ := ih [] (by simpa using hrest)
          rw [List.append_nil] at hr
          exact ⟨hr ▸ valid_char c, ht⟩
        | cons b' r =>
          -- the byte lies within the character, so that it is all of it
          obtain ⟨rfl, ht⟩ := List.cons.inj hrest
          have hsingle := encodeChar_of_ascii (c := c) (b := b) (by rw [hr]; simp) hascii
          have hlen := congrArg List.length (hr.symm.trans hsingle)
          simp only [List.length_append, List.length_cons, List.length_nil] at hlen
          have hs : s = [] := List.length_eq_zero_iff.mp (by omega)
          have hrnil : r = [] := List.length_eq_zero_iff.mp (by omega)
          subst hs hrnil
          exact ⟨valid_nil, cs, by simpa using ht⟩
      · obtain ⟨hs', ht⟩ := ih r hrest.symm
        rw [hr]
        exact ⟨(valid_char c).append hs', ht⟩
  · intro hboth
    obtain ⟨hs, ht⟩ := hboth
    simpa using (hs.append (valid_ascii hascii)).append ht

end OppexSdk.Lib.Utf8
