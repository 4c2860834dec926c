import ApiDiagrams.Text.Base64
import Mathlib.Tactic

/-!
# Bytes as text and back

Three bytes make four digits below sixty-four, and four digits give the three bytes back. What is
left over at the end is told by the padding, which is no digit.

* `toList_eq`, `ofList_toList`: arrays of bytes as lists;
* `base64Value?_digit`: digits have their values, and none is a padding or a line break;
* `decodeBase64?_encode`: written bytes are read back.
-/

namespace ApiDiagrams
namespace Text

/-! ### Arrays of bytes as lists -/

theorem toList_loop_eq (bytes : ByteArray) (i : ℕ) (done : List UInt8) :
    ByteArray.toList.loop bytes i done = done.reverse ++ bytes.data.toList.drop i := by
  fun_induction ByteArray.toList.loop bytes i done with
  | case1 i done hlt ih =>
    have hi : i < bytes.data.toList.length := by simpa using hlt
    have hget : bytes.get! i = bytes.data.toList[i] := by
      change bytes.data[i]! = _
      rw [getElem!_pos bytes.data i hlt, Array.getElem_toList]
    rw [ih, List.drop_eq_getElem_cons hi, hget]
    simp
  | case2 i done hge =>
    have hnil : bytes.data.toList.drop i = [] := List.drop_eq_nil_of_le (by simpa using hge)
    rw [hnil, List.append_nil]

/-- The bytes of an array. -/
theorem toList_eq (bytes : ByteArray) : bytes.toList = bytes.data.toList := by
  rw [ByteArray.toList, toList_loop_eq]
  rfl

theorem ofList_toList (bytes : ByteArray) : ByteArray.mk bytes.toList.toArray = bytes := by
  rw [toList_eq]

/-! ### Digits -/

theorem base64Value?_digit {n : ℕ} (h : n < 64) : base64Value? (base64Digit n) = some n := by
  have hall : ∀ n < 64, base64Value? (base64Digit n) = some n := by decide
  exact hall n h

/-- A digit is no padding and breaks no line. -/
theorem base64Digit_ne {n : ℕ} (h : n < 64) :
    base64Digit n ≠ '=' ∧ base64Digit n ≠ '\n' ∧ base64Digit n ≠ '\r' := by
  have hall : ∀ n < 64, base64Digit n ≠ '=' ∧ base64Digit n ≠ '\n' ∧ base64Digit n ≠ '\r' := by
    decide
  exact hall n h

/-- Bytes are written with digits and padding. -/
theorem mem_base64Digits {bs : List UInt8} {c : Char} (h : c ∈ base64Digits bs) :
    c = '=' ∨ ∃ n < 64, c = base64Digit n := by
  fun_induction base64Digits bs with
  | case1 => cases h
  | case2 a n =>
    have ha := a.toNat_lt
    simp only [List.mem_cons, List.not_mem_nil, or_false] at h
    rcases h with rfl | rfl | rfl | rfl
    · exact Or.inr ⟨_, by omega, rfl⟩
    · exact Or.inr ⟨_, by omega, rfl⟩
    · exact Or.inl rfl
    · exact Or.inl rfl
  | case3 a b n =>
    have ha := a.toNat_lt
    have hb := b.toNat_lt
    simp only [List.mem_cons, List.not_mem_nil, or_false] at h
    rcases h with rfl | rfl | rfl | rfl
    · exact Or.inr ⟨_, by omega, rfl⟩
    · exact Or.inr ⟨_, by omega, rfl⟩
    · exact Or.inr ⟨_, by omega, rfl⟩
    · exact Or.inl rfl
  | case4 a b c' rest n ih =>
    have ha := a.toNat_lt
    have hb := b.toNat_lt
    have hc := c'.toNat_lt
    simp only [List.mem_cons] at h
    rcases h with rfl | rfl | rfl | rfl | h
    · exact Or.inr ⟨_, by omega, rfl⟩
    · exact Or.inr ⟨_, by omega, rfl⟩
    · exact Or.inr ⟨_, by omega, rfl⟩
    · exact Or.inr ⟨_, by omega, rfl⟩
    · exact ih h

/-- Written bytes have no line breaks. -/
theorem filter_base64Digits (bs : List UInt8) :
    ((base64Digits bs).filter fun c => c ≠ '\n' && c ≠ '\r') = base64Digits bs := by
  refine List.filter_eq_self.2 fun c hc => ?_
  rcases mem_base64Digits hc with rfl | ⟨n, hn, rfl⟩
  · decide
  · obtain ⟨-, h1, h2⟩ := base64Digit_ne hn
    simp [h1, h2]

/-! ### Groups of digits -/

theorem toUInt8_of_eq {n : ℕ} {a : UInt8} (h : n = a.toNat) : n.toUInt8 = a := by
  subst h
  exact UInt8.ofNat_toNat

/-- Written bytes are read back, three at a time. -/
theorem base64Bytes?_digits (bs : List UInt8) : base64Bytes? (base64Digits bs) = some bs := by
  fun_induction base64Digits bs with
  | case1 => rfl
  | case2 a n =>
    have ha := a.toNat_lt
    have h1 := base64Value?_digit (n := n / 4) (by omega)
    have h2 := base64Value?_digit (n := n % 4 * 16) (by omega)
    have hbyte : ((n / 4 * 64 + n % 4 * 16) / 16).toUInt8 = a := toUInt8_of_eq (by omega)
    simp [base64Bytes?, h1, h2, hbyte]
  | case3 a b n =>
    have ha := a.toNat_lt
    have hb := b.toNat_lt
    have h1 := base64Value?_digit (n := n / 1024) (by omega)
    have h2 := base64Value?_digit (n := n / 16 % 64) (by omega)
    have h3 := base64Value?_digit (n := n % 16 * 4) (by omega)
    obtain ⟨hne, -⟩ := base64Digit_ne (n := n % 16 * 4) (by omega)
    have hlow : ((n / 1024 * 4096 + n / 16 % 64 * 64 + n % 16 * 4) / 1024).toUInt8 = a :=
      toUInt8_of_eq (by omega)
    have hhigh : ((n / 1024 * 4096 + n / 16 % 64 * 64 + n % 16 * 4) / 4 % 256).toUInt8 = b :=
      toUInt8_of_eq (by omega)
    simp [base64Bytes?, h1, h2, h3, hne, hlow, hhigh]
  | case4 a b c rest n ih =>
    have ha := a.toNat_lt
    have hb := b.toNat_lt
    have hc := c.toNat_lt
    have h1 := base64Value?_digit (n := n / 262144) (by omega)
    have h2 := base64Value?_digit (n := n / 4096 % 64) (by omega)
    have h3 := base64Value?_digit (n := n / 64 % 64) (by omega)
    have h4 := base64Value?_digit (n := n % 64) (by omega)
    obtain ⟨hne, -⟩ := base64Digit_ne (n := n % 64) (by omega)
    have hsum : n / 262144 * 262144 + n / 4096 % 64 * 4096 + n / 64 % 64 * 64 + n % 64 = n := by
      omega
    have hfirst : (n / 65536).toUInt8 = a := toUInt8_of_eq (by omega)
    have hsecond : (n / 256 % 256).toUInt8 = b := toUInt8_of_eq (by omega)
    have hthird : (n % 256).toUInt8 = c := toUInt8_of_eq (by omega)
    rw [base64Bytes?]
    · simp [h1, h2, h3, h4, hne, hsum, hfirst, hsecond, hthird, ih]
    · exact fun _ h => absurd h hne

/-- Written bytes are read back. -/
theorem decodeBase64?_encode (bytes : ByteArray) :
    decodeBase64? (encodeBase64 bytes).toList = some bytes := by
  rw [decodeBase64?, encodeBase64, String.toList_ofList, filter_base64Digits,
    base64Bytes?_digits, Option.map_some, ofList_toList]

end Text
end ApiDiagrams
