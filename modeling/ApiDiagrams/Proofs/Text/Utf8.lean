import ApiDiagrams.Proofs.Text.Ascii
import ApiDiagrams.Proofs.Text.Base64
import ApiDiagrams.Text.Raw
import Mathlib.Data.List.Infix
import Mathlib.Tactic

/-!
# Plain bytes among others

A byte below 0x80 is a character of its own wherever it stands, since the further bytes of a longer
sequence are all at least 0x80. So plain text that stands somewhere among bytes, well formed or not,
also stands among their characters.

* `spread`: one character per byte, so that a rule about characters can be read as one about bytes;
* `unitsFrom_ascii`: a plain byte is read as itself;
* `infix_units`, `infix_lossy`, `prefix_lossy`: so is plain text.
-/

namespace ApiDiagrams
namespace Text

/-! ### Parts of a text -/

theorem startsWith_iff {head text : List Char} : startsWith head text = true ↔ head <+: text := by
  constructor
  · intro h
    obtain ⟨rest, hrest⟩ := Option.isSome_iff_exists.1 h
    exact ⟨rest, (append_of_startsWith? hrest).symm⟩
  · rintro ⟨rest, rfl⟩
    simp [startsWith]

theorem contains_iff {piece text : List Char} : contains piece text = true ↔ piece <:+: text := by
  induction text with
  | nil => rw [contains, startsWith_iff, List.prefix_nil, List.infix_nil]
  | cons c text ih => rw [contains, Bool.or_eq_true, startsWith_iff, ih, List.infix_cons_iff]

theorem infix_intercalate {sep piece : List Char} {pieces : List (List Char)} (h : piece ∈ pieces) :
    piece <:+: intercalate sep pieces := by
  induction pieces with
  | nil => cases h
  | cons first pieces ih =>
    cases pieces with
    | nil =>
      obtain rfl := List.mem_singleton.1 h
      exact List.infix_rfl
    | cons second pieces =>
      change piece <:+: first ++ sep ++ intercalate sep (second :: pieces)
      rcases List.mem_cons.1 h with rfl | h
      · rw [List.append_assoc]
        exact (List.prefix_append _ _).isInfix
      · exact (ih h).trans (List.suffix_append _ _).isInfix

/-- A piece between separators is a part of the text. -/
theorem infix_of_mem_splitOn {sep : Char} {piece text : List Char} (h : piece ∈ splitOn sep text) :
    piece <:+: text := by
  rw [← intercalate_splitOn sep text]
  exact infix_intercalate h

/-! ### Bytes as characters -/

/-- One character per byte. -/
def spread (bytes : ByteArray) : String :=
  String.ofList (bytes.toList.map fun b => Char.ofNat b.toNat)

theorem toNat_ofNat_byte (b : UInt8) : (Char.ofNat b.toNat).toNat = b.toNat := by
  have hvalid : b.toNat.isValidChar := Or.inl (lt_trans b.toNat_lt (by decide))
  rw [Char.ofNat, dif_pos hvalid]
  rfl

/-! ### Units of bytes -/

/-- A plain byte continues no sequence. -/
theorem isContinuation_of_lt {b : UInt8} (h : b < 0x80) : isContinuation b = false := by
  have hall : ∀ n < 128, isContinuation (UInt8.ofNat n) = false := by decide
  simpa using hall b.toNat h

/-- The further bytes that a unit takes all continue its sequence. -/
theorem isContinuation_of_headUnit {b c : UInt8} {rest : List UInt8} {unit : ByteUnit} {more : ℕ}
    (h : headUnit b rest = (unit, more)) (hc : c ∈ rest.take more) : isContinuation c = true := by
  unfold headUnit at h
  split_ifs at h with hplain
  · cases h
    simp at hc
  rcases rest with - | ⟨b1, rest⟩
  · simp at hc
  dsimp only at h
  split_ifs at h with h1
  · cases h
    simp_all
  rcases rest with - | ⟨b2, rest⟩
  · cases h
    simp at hc
  dsimp only at h
  split_ifs at h with h2
  · cases h
    simp only [Bool.and_eq_true] at h2
    simp only [List.take_succ_cons, List.take_zero, List.mem_cons, List.not_mem_nil, or_false] at hc
    rcases hc with rfl | rfl <;> tauto
  rcases rest with - | ⟨b3, rest⟩
  · cases h
    simp at hc
  dsimp only at h
  split_ifs at h with h3
  · cases h
    simp only [Bool.and_eq_true] at h3
    simp only [List.take_succ_cons, List.take_zero, List.mem_cons, List.not_mem_nil, or_false] at hc
    rcases hc with rfl | rfl | rfl <;> tauto
  · cases h
    simp at hc

theorem headUnit_of_lt {b : UInt8} (h : b < 0x80) (rest : List UInt8) :
    headUnit b rest = (.char (Char.ofNat b.toNat), 0) := if_pos h

/-- A plain byte is read as itself, whatever stands before it: no unit that starts before it reaches
further than to it. -/
theorem unitsFrom_ascii {b : UInt8} (h : b < 0x80) (before after : List UInt8) {skip : ℕ}
    (hskip : skip ≤ before.length) :
    ∃ us, unitsFrom skip (before ++ b :: after) =
      us ++ .char (Char.ofNat b.toNat) :: unitsFrom 0 after := by
  induction before generalizing skip with
  | nil =>
    obtain rfl : skip = 0 := Nat.le_zero.1 hskip
    exact ⟨[], by simp [unitsFrom, headUnit_of_lt h]⟩
  | cons a before ih =>
    cases skip with
    | succ skip => exact ih (Nat.le_of_succ_le_succ hskip)
    | zero =>
      rcases hunit : headUnit a (before ++ b :: after) with ⟨unit, more⟩
      have hmore : more ≤ before.length := by
        by_contra hlt
        have hb : b ∈ (before ++ b :: after).take more := by
          obtain ⟨k, rfl⟩ := Nat.exists_eq_add_of_lt (not_le.1 hlt)
          rw [Nat.add_assoc, List.take_length_add_append, List.take_succ_cons]
          simp
        simpa [isContinuation_of_lt h] using isContinuation_of_headUnit hunit hb
      obtain ⟨us, hus⟩ := ih hmore
      exact ⟨unit :: us, by simp [unitsFrom, hunit, hus]⟩

/-- Plain bytes at the front are read one by one. -/
theorem unitsFrom_ascii_append {bs : List UInt8} (h : ∀ b ∈ bs, b < 0x80) (after : List UInt8) :
    unitsFrom 0 (bs ++ after) =
      bs.map (fun b => .char (Char.ofNat b.toNat)) ++ unitsFrom 0 after := by
  induction bs with
  | nil => rfl
  | cons b bs ih =>
    have hb := headUnit_of_lt (h b List.mem_cons_self) (bs ++ after)
    simp [unitsFrom, hb, ih fun c hc => h c (List.mem_cons_of_mem _ hc)]

/-- Plain bytes anywhere are read one by one. -/
theorem infix_unitsFrom {bs bytes : List UInt8} (h : ∀ b ∈ bs, b < 0x80) (hbs : bs <:+: bytes) :
    bs.map (fun b => .char (Char.ofNat b.toNat)) <:+: unitsFrom 0 bytes := by
  obtain ⟨before, after, rfl⟩ := hbs
  cases bs with
  | nil => exact List.nil_infix
  | cons b bs =>
    obtain ⟨us, hus⟩ :=
      unitsFrom_ascii (h b List.mem_cons_self) before (bs ++ after) (Nat.zero_le _)
    have hmore := unitsFrom_ascii_append (fun c hc => h c (List.mem_cons_of_mem _ hc)) after
    refine ⟨us, unitsFrom 0 after, ?_⟩
    rw [List.append_assoc before, List.cons_append, hus, hmore]
    simp

/-- The bytes of plain text are plain. -/
theorem lt_of_ascii {bs : List UInt8}
    (h : ∀ c ∈ bs.map fun b => Char.ofNat b.toNat, c.toNat < 0x80) : ∀ b ∈ bs, b < 0x80 := by
  intro b hb
  have hc := h _ (List.mem_map_of_mem hb)
  rw [toNat_ofNat_byte] at hc
  exact UInt8.lt_iff_toNat_lt.2 hc

variable {w : List Char} {bytes : ByteArray}

/-- Plain text that stands among bytes stands among their units. -/
theorem infix_units (h : ∀ c ∈ w, c.toNat < 0x80) (hw : w <:+: (spread bytes).toList) :
    w.map .char <:+: (Raw.ofBytes bytes).units := by
  rw [spread, String.toList_ofList] at hw
  obtain ⟨bs, hbs, rfl⟩ := List.infix_map_iff.1 hw
  rw [List.map_map]
  exact infix_unitsFrom (lt_of_ascii h) hbs

/-- Plain text that bytes start with is what their units start with. -/
theorem prefix_units (h : ∀ c ∈ w, c.toNat < 0x80) (hw : w <+: (spread bytes).toList) :
    w.map .char <+: (Raw.ofBytes bytes).units := by
  rw [spread, String.toList_ofList] at hw
  obtain ⟨bs, ⟨after, hafter⟩, rfl⟩ := List.prefix_map_iff.1 hw
  have hunits := unitsFrom_ascii_append (lt_of_ascii h) after
  rw [hafter] at hunits
  rw [List.map_map]
  exact ⟨unitsFrom 0 after, hunits.symm⟩

theorem lossy_map_char (w : List Char) : (w.map ByteUnit.char).map ByteUnit.lossy = w := by
  simp [Function.comp_def, ByteUnit.lossy]

/-- Plain text that stands among bytes stands among their characters. -/
theorem infix_lossy (h : ∀ c ∈ w, c.toNat < 0x80) (hw : w <:+: (spread bytes).toList) :
    w <:+: (Raw.ofBytes bytes).lossy.toList := by
  rw [Raw.lossy, String.toList_ofList, ← lossy_map_char w]
  exact (infix_units h hw).map _

/-- Plain text that bytes start with is what their characters start with. -/
theorem prefix_lossy (h : ∀ c ∈ w, c.toNat < 0x80) (hw : w <+: (spread bytes).toList) :
    w <+: (Raw.ofBytes bytes).lossy.toList := by
  rw [Raw.lossy, String.toList_ofList, ← lossy_map_char w]
  exact (prefix_units h hw).map _

/-- Without bytes there are no characters. -/
theorem lossy_eq_empty (h : spread bytes = "") : (Raw.ofBytes bytes).lossy = "" := by
  have hbytes : bytes.toList = [] := by
    rw [spread, ← String.toList_inj, String.toList_ofList] at h
    simpa using h
  simp [Raw.lossy, Raw.ofBytes, units, hbytes, unitsFrom]

end Text
end ApiDiagrams
