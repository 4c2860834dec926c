import ApiDiagrams.Json.Value
import ApiDiagrams.Json.Write
import Mathlib.Tactic

/-!
# Written objects are read back

A written string ends at the first quote that no escape holds, and each character is written in a
way that reads back as this one character. An object whose values are strings is therefore read
back with all of them, whatever follows.

* `characters?_quote`: strings are read back;
* `objectText`, `value?_objectText`: objects of strings;
* `parse?_objectText`: the bytes of such an object.
-/

namespace ApiDiagrams
namespace Json

/-! ### Characters -/

theorem characters?_quote_end (fuel : ℕ) (rest : List Char) :
    characters? (fuel + 1) ('"' :: rest) = some ([], rest) := by
  rw [characters?]

theorem characters?_plain {c : Char} (h : 0x20 ≤ c.toNat) (hquote : c ≠ '"') (hslash : c ≠ '\\')
    (fuel : ℕ) (rest : List Char) : characters? (fuel + 1) (c :: rest) =
      (characters? fuel rest).map fun p => (c :: p.1, p.2) := by
  have hno : ¬ (decide (c.toNat < 0x20) || c == '\\') = true := by simp [h, hslash]
  rw [characters?]
  · rw [if_neg hno]
  · exact fun hc => absurd hc hquote
  · exact fun _ hc => absurd hc hslash
  · exact fun _ _ hc => absurd hc hslash

theorem characters?_escape {e c : Char} (he : e ≠ 'u') (h : simpleEscape? e = some c) (fuel : ℕ)
    (rest : List Char) : characters? (fuel + 1) ('\\' :: e :: rest) =
      (characters? fuel rest).map fun p => (c :: p.1, p.2) := by
  rw [characters?]
  · rw [h]
    cases characters? fuel rest <;> rfl
  · exact fun hu => absurd hu he

theorem characters?_number {n : ℕ} {digits rest : List Char}
    (h : unit? (digits ++ rest) = some (n, rest)) (hn : n < 0xD800) (fuel : ℕ) :
    characters? (fuel + 1) ('\\' :: 'u' :: (digits ++ rest)) =
      (characters? fuel rest).map fun p => (Char.ofNat n :: p.1, p.2) := by
  have hchar : escapedUnit n rest = (Char.ofNat n, rest) := by
    rw [escapedUnit, if_neg (by simp; omega), if_neg (by simp; omega)]
  rw [characters?, h]
  simp only [Option.bind_eq_bind, Option.bind_some, hchar]
  cases characters? fuel rest <;> rfl

/-- A letter stands for the character that it was written for. -/
theorem simpleEscape?_of_letterOf? {c e : Char} (h : letterOf? c = some e) :
    e ≠ 'u' ∧ simpleEscape? e = some c := by
  unfold letterOf? at h
  simp only [beq_iff_eq] at h
  split_ifs at h <;> subst_vars <;> cases h <;> decide

/-- The characters that are written by their numbers, by code. -/
theorem isNumbered_iff {c : Char} : isNumbered c = true ↔
    c.toNat < 0x20 ∨ c.toNat ∈ [0x3C, 0x3E, 0x26, 0x2028, 0x2029] := by
  have hmark : ∀ d : Char, c = d ↔ c.toNat = d.toNat := fun d => Char.toNat_inj.symm
  simp [isNumbered, hmark, or_assoc]

/-- Four digits are read as one number. -/
theorem unit?_hexDigits {c : Char} (h : isNumbered c = true) (rest : List Char) :
    unit? (Text.hexDigits 4 c.toNat ++ rest) = some (c.toNat, rest) := by
  have hsmall : ∀ n < 0x20, ∀ rest, unit? (Text.hexDigits 4 n ++ rest) = some (n, rest) := by
    intro n hn rest
    interval_cases n <;> rfl
  have hmarks : ∀ n ∈ [0x3C, 0x3E, 0x26, 0x2028, 0x2029], ∀ rest,
      unit? (Text.hexDigits 4 n ++ rest) = some (n, rest) := by
    intro n hn rest
    fin_cases hn <;> rfl
  rcases isNumbered_iff.1 h with hn | hn
  · exact hsmall _ hn rest
  · exact hmarks _ hn rest

/-- A written character reads back as itself, and the text goes on behind it. -/
theorem characters?_quoteChar (c : Char) (fuel : ℕ) (rest : List Char) :
    characters? (fuel + 1) (quoteChar c ++ rest) =
      (characters? fuel rest).map fun p => (c :: p.1, p.2) := by
  unfold quoteChar
  cases hletter : letterOf? c with
  | some e =>
    obtain ⟨hne, hescape⟩ := simpleEscape?_of_letterOf? hletter
    exact characters?_escape hne hescape fuel rest
  | none =>
    dsimp only
    split_ifs with hnumbered
    · have hn : c.toNat < 0xD800 := by
        have hcode := isNumbered_iff.1 hnumbered
        simp only [List.mem_cons, List.not_mem_nil, or_false] at hcode
        omega
      rw [List.cons_append, List.cons_append,
        characters?_number (unit?_hexDigits hnumbered rest) hn fuel, Char.ofNat_toNat]
    · refine characters?_plain ?_ ?_ ?_ fuel rest
      · rw [isNumbered_iff] at hnumbered
        omega
      · rintro rfl
        cases hletter
      · rintro rfl
        cases hletter

/-! ### Strings -/

/-- A written string is read back, whatever follows it. -/
theorem characters?_quote {s : List Char} {fuel : ℕ} (h : s.length < fuel) (rest : List Char) :
    characters? fuel (s.flatMap quoteChar ++ '"' :: rest) = some (s, rest) := by
  induction s generalizing fuel with
  | nil =>
    obtain ⟨fuel, rfl⟩ := Nat.exists_eq_add_of_lt h
    exact characters?_quote_end _ rest
  | cons c s ih =>
    rw [List.length_cons] at h
    obtain ⟨fuel, rfl⟩ : ∃ k, fuel = k + 1 := ⟨fuel - 1, by omega⟩
    rw [List.flatMap_cons, List.append_assoc, characters?_quoteChar, ih (by omega),
      Option.map_some]

theorem length_le_quoted (s : List Char) : s.length ≤ (s.flatMap quoteChar).length := by
  induction s with
  | nil => exact le_rfl
  | cons c s ih =>
    have hc : 1 ≤ (quoteChar c).length := by
      unfold quoteChar
      cases letterOf? c with
      | some e => simp
      | none =>
        dsimp only
        split_ifs <;> simp
    rw [List.flatMap_cons, List.length_append, List.length_cons]
    omega

/-- The string that a text writes, remembering whether it has escapes. -/
def stringOf (s : List Char) : Value :=
  .text (String.ofList s) ((s.flatMap quoteChar).contains '\\')

theorem skipBlanks_cons {c : Char} (h : isBlank c = false) (rest : List Char) :
    skipBlanks (c :: rest) = c :: rest := by
  simp [skipBlanks, h]

/-- A written string is read as a value. -/
theorem value?_quote (s : List Char) (fuel : ℕ) (rest : List Char) :
    value? (fuel + 1) (quote s ++ rest) = some (stringOf s, rest) := by
  have hlen := length_le_quoted s
  have hread : characters? ((s.flatMap quoteChar ++ '"' :: rest).length + 1)
      (s.flatMap quoteChar ++ '"' :: rest) = some (s, rest) :=
    characters?_quote (by rw [List.length_append]; omega) rest
  have hwritten : (s.flatMap quoteChar ++ '"' :: rest).take
      ((s.flatMap quoteChar ++ '"' :: rest).length - rest.length) =
        s.flatMap quoteChar ++ ['"'] := by
    rw [List.append_cons (s.flatMap quoteChar) '"' rest]
    refine List.take_left' ?_
    simp only [List.length_append, List.length_cons, List.length_nil]
    omega
  have htext : quote s ++ rest = '"' :: (s.flatMap quoteChar ++ '"' :: rest) := by simp [quote]
  have hescaped : (s.flatMap quoteChar ++ ['"']).contains '\\' =
      (s.flatMap quoteChar).contains '\\' := by simp
  rw [value?, htext, skipBlanks_cons (by decide)]
  simp only [hread, Option.map_some, hwritten, hescaped]
  rfl

/-! ### Objects -/

/-- The members of an object whose values are strings, as they are written. -/
def membersText (members : List (List Char × List Char)) : List Char :=
  Text.intercalate [','] (members.map fun m => quote m.1 ++ ':' :: quote m.2)

/-- The members of an object whose values are strings. -/
def membersOf (members : List (List Char × List Char)) : List (String × Value) :=
  members.map fun m => (String.ofList m.1, stringOf m.2)

/-- What is read after a member: more members after a comma, or the end of the object. -/
def afterMember? (fuel : ℕ) (member : String × Value) (next : List Char) :
    Option (List (String × Value) × List Char) :=
  match skipBlanks next with
  | ',' :: rest => do
    let (ms, rest) ← members? fuel rest
    return (member :: ms, rest)
  | '\x7d' :: rest => return ([member], rest)
  | _ => none

/-- One written member is read, and then what follows it is looked at. -/
theorem members?_member (m : List Char × List Char) (fuel : ℕ) (next : List Char) :
    members? (fuel + 2) (quote m.1 ++ ':' :: (quote m.2 ++ next)) =
      afterMember? (fuel + 1) (String.ofList m.1, stringOf m.2) next := by
  have htext : quote m.1 ++ ':' :: (quote m.2 ++ next) =
      '"' :: (m.1.flatMap quoteChar ++ '"' :: (':' :: (quote m.2 ++ next))) := by simp [quote]
  have hlen := length_le_quoted m.1
  have hread : characters?
      ((m.1.flatMap quoteChar ++ '"' :: (':' :: (quote m.2 ++ next))).length + 1)
      (m.1.flatMap quoteChar ++ '"' :: (':' :: (quote m.2 ++ next))) =
        some (m.1, ':' :: (quote m.2 ++ next)) :=
    characters?_quote (by rw [List.length_append]; omega) _
  have hcolon : isBlank ':' = false := by decide
  rw [members?, htext, skipBlanks_cons (by decide)]
  simp only [hread, Option.bind_eq_bind, Option.bind_some, skipBlanks_cons hcolon, value?_quote]
  rfl

/-- Written members are read back, whatever follows the object. -/
theorem members?_membersText {m : List Char × List Char} {members : List (List Char × List Char)}
    {fuel : ℕ} (h : members.length + 1 < fuel) (rest : List Char) :
    members? fuel (membersText (m :: members) ++ '\x7d' :: rest) =
      some (membersOf (m :: members), rest) := by
  obtain ⟨fuel, rfl⟩ : ∃ k, fuel = k + 2 := ⟨fuel - 2, by omega⟩
  induction members generalizing m fuel with
  | nil =>
    have htext : membersText [m] ++ '\x7d' :: rest =
        quote m.1 ++ ':' :: (quote m.2 ++ '\x7d' :: rest) := by
      simp [membersText, Text.intercalate]
    rw [htext, members?_member, afterMember?, skipBlanks_cons (by decide)]
    rfl
  | cons n members ih =>
    have htext : membersText (m :: n :: members) ++ '\x7d' :: rest = quote m.1 ++ ':' ::
        (quote m.2 ++ ',' :: (membersText (n :: members) ++ '\x7d' :: rest)) := by
      simp [membersText, Text.intercalate]
    rw [List.length_cons] at h
    obtain ⟨fuel, rfl⟩ : ∃ k, fuel = k + 1 := ⟨fuel - 1, by omega⟩
    rw [htext, members?_member, afterMember?, skipBlanks_cons (by decide)]
    change ((members? (fuel + 2) (membersText (n :: members) ++ '\x7d' :: rest)).bind fun r =>
      some ((String.ofList m.1, stringOf m.2) :: r.1, r.2)) = _
    rw [ih fuel (by omega)]
    rfl

/-- The text of an object whose values are strings. -/
def objectText (members : List (List Char × List Char)) : List Char :=
  '\x7b' :: membersText members ++ ['\x7d']

theorem value?_objectText {m : List Char × List Char} {members : List (List Char × List Char)}
    {fuel : ℕ} (h : members.length + 2 < fuel) (rest : List Char) :
    value? fuel (objectText (m :: members) ++ rest) =
      some (.object (membersOf (m :: members)), rest) := by
  obtain ⟨fuel, rfl⟩ : ∃ k, fuel = k + 1 := ⟨fuel - 1, by omega⟩
  obtain ⟨after, hafter⟩ : ∃ after, membersText (m :: members) = '"' :: after := by
    cases members <;> simp [membersText, Text.intercalate, quote]
  have hfuel : members.length + 1 < fuel := by omega
  have hread := members?_membersText (m := m) hfuel rest
  have htext : objectText (m :: members) ++ rest =
      '\x7b' :: (membersText (m :: members) ++ '\x7d' :: rest) := by simp [objectText]
  rw [hafter] at hread htext
  have hquote : isBlank '"' = false := by decide
  rw [value?, htext, skipBlanks_cons (by decide)]
  simp only [List.cons_append, skipBlanks_cons hquote] at hread ⊢
  exact congrArg (Option.map fun p => (Value.object p.1, p.2)) hread

theorem length_le_membersText (members : List (List Char × List Char)) :
    members.length ≤ (membersText members).length := by
  unfold membersText
  induction members with
  | nil => exact le_rfl
  | cons m members ih =>
    cases members with
    | nil => simp [Text.intercalate, quote]
    | cons n members =>
      simp only [List.map_cons, Text.intercalate, List.length_append, List.length_cons] at ih ⊢
      omega

theorem depth_membersOf (members : List (List Char × List Char)) :
    membersDepth (membersOf members) = 0 := by
  induction members with
  | nil => rfl
  | cons m members ih => simpa [membersOf, membersDepth, stringOf, Value.depth] using ih

theorem charsLossy_toUTF8 (s : String) : Text.charsLossy s.toUTF8 = s.toList := by
  have htext : Text.toText? s.toUTF8 = some s := by
    rw [Text.toText?, String.fromUTF8?, String.toUTF8_eq_toByteArray, dif_pos s.isValidUTF8]
    rfl
  rw [Text.charsLossy, htext]

/-- The bytes of an object whose values are strings are read back. -/
theorem parse?_objectText (m : List Char × List Char) (members : List (List Char × List Char)) :
    parse? (String.ofList (objectText (m :: members))).toUTF8 =
      some (.object (membersOf (m :: members))) := by
  have hlen : members.length + 2 < (objectText (m :: members)).length + 1 := by
    have hmembers := length_le_membersText (m :: members)
    simp only [objectText, List.length_append, List.length_cons, List.length_nil] at hmembers ⊢
    omega
  have hread := value?_objectText (m := m) hlen []
  rw [List.append_nil] at hread
  have hdepth : (Value.object (membersOf (m :: members))).depth ≤ depthBound := by
    rw [Value.depth, depth_membersOf]
    decide
  have hfront : front? (objectText (m :: members)) =
      some (.object (membersOf (m :: members)), []) := by
    rw [front?, hread]
    simp [hdepth]
  rw [parse?, charsLossy_toUTF8, String.toList_ofList, hfront]
  rfl

end Json
end ApiDiagrams
