import ApiDiagrams.Text.Quoted
import ApiDiagrams.Text.Utf8

/-!
# Text that may hold stray bytes

A model file can smuggle bytes that are no UTF-8 into a name. Such a name is refused, but the
refusal must show it, byte by byte. What is read character by character sees U+FFFD in place of such
a byte.

* `Raw`: characters and stray bytes; every `String` is one;
* `Raw.text?`: the text, when there is no stray byte; `Raw.lossy`: the text with U+FFFD for each;
* `Raw.quote`: the text between double quotes, stray bytes as escapes.
-/

namespace ApiDiagrams
namespace Text

/-- A sequence of characters and stray bytes. -/
structure Raw where
  units : List ByteUnit
  deriving DecidableEq, Repr, Inhabited

/-- The character of a unit that is one. -/
def ByteUnit.char? : ByteUnit → Option Char
  | .char c => some c
  | .stray _ => none

/-- A unit between quotes. -/
def ByteUnit.quoted : ByteUnit → List Char
  | .char c => quoteChar c
  | .stray b => '\\' :: 'x' :: hexDigits 2 b.toNat

theorem mapM_char?_eq_some_iff {us : List ByteUnit} {cs : List Char} :
    us.mapM ByteUnit.char? = some cs ↔ us = cs.map .char := by
  induction us generalizing cs with
  | nil => cases cs <;> simp
  | cons u us ih =>
    cases u with
    | char c =>
      cases cs <;>
        simp [List.mapM_cons, ByteUnit.char?, Option.bind_eq_some_iff, ih, and_comm, and_assoc]
    | stray b => cases cs <;> simp [List.mapM_cons, ByteUnit.char?]

namespace Raw

/-- The characters of a text. -/
def ofString (s : String) : Raw := ⟨s.toList.map .char⟩

instance : Coe String Raw := ⟨ofString⟩

/-- The units of bytes. -/
def ofBytes (bytes : ByteArray) : Raw := ⟨Text.units bytes⟩

/-- The text, when there is no stray byte. -/
def text? (r : Raw) : Option String := (r.units.mapM ByteUnit.char?).map String.ofList

/-- The text with U+FFFD for each stray byte. -/
def lossy (r : Raw) : String := String.ofList (r.units.map ByteUnit.lossy)

/-- The number of bytes. -/
def byteSize (r : Raw) : Nat := r.units.foldl (fun n u => n + u.bytes.length) 0

/-- The text between double quotes, with escapes. -/
def quote (r : Raw) : String :=
  String.ofList ('"' :: r.units.flatMap ByteUnit.quoted ++ ['"'])

@[simp] theorem lossy_ofString (s : String) : (ofString s).lossy = s := by
  simp [lossy, ofString, Function.comp_def, ByteUnit.lossy]

@[simp] theorem units_ofString (s : String) : (ofString s).units = s.toList.map .char := rfl

theorem text?_eq_some_iff {r : Raw} {s : String} : r.text? = some s ↔ r = ofString s := by
  obtain ⟨us⟩ := r
  simp only [text?, ofString, Option.map_eq_some_iff, mapM_char?_eq_some_iff, Raw.mk.injEq]
  constructor
  · rintro ⟨cs, hcs, rfl⟩
    rw [hcs, String.toList_ofList]
  · intro h
    exact ⟨s.toList, h, String.ofList_toList⟩

/-- Nothing is lost of a text exactly when it has no stray byte. -/
theorem ofString_lossy_eq_iff {r : Raw} : ofString r.lossy = r ↔ r.text?.isSome := by
  rw [Option.isSome_iff_exists]
  constructor
  · exact fun h => ⟨_, text?_eq_some_iff.2 h.symm⟩
  · rintro ⟨s, hs⟩
    rw [text?_eq_some_iff.1 hs, lossy_ofString]

end Raw
end Text
end ApiDiagrams
