import ApiDiagrams.Data.Shape
import ApiDiagrams.Text.LetterCase
import Mathlib.Data.List.Basic
import Mathlib.Tactic

/-!
# Keys that name no field

The file formats agree on what a key is for: it names a field of the record at its place, in any
letter case. A key that names none is a mistake of the writer, such as a misspelt name. What a
format shows at a place is given by a view, so that the mistake is the same one in every format.

* `Shown`: what stands at a place of a document, with the places below it;
* `Names`: a key names a field;
* `Stray`: somewhere in a document a key names no field of the shape;
* `Fits`: the fields of a document have the right types, whatever else it has;
* `Shape.isDistinct`: no key can name two fields of one record.
-/

namespace ApiDiagrams

namespace Data

variable {α : Type}

/-- What stands at a place of a document. -/
inductive Shown (α : Type)
  /-- A value without parts, and the shapes that it has. -/
  | leaf (has : Shape → Prop)
  | list (items : List α)
  /-- Keys with their values. A key that is no text has no name. -/
  | record (entries : List (Option String × α))

/-- A key names a field, in any letter case. -/
def Names (field : String) (key : Option String) : Prop := key.any (Text.equalFold field) = true

instance (field : String) (key : Option String) : Decidable (Names field key) :=
  inferInstanceAs (Decidable (_ = true))

/-- Somewhere at or below a place a key names no field of the record that is expected there. -/
inductive Stray (view : α → Shown α → Prop) : Shape → α → Prop
  | key {fields a entries key v} (shown : view a (.record entries)) (mem : (key, v) ∈ entries)
      (unknown : ∀ f ∈ fields, ¬ Names f.1 key) : Stray view (.record fields) a
  | field {fields a entries key v f} (shown : view a (.record entries)) (mem : (key, v) ∈ entries)
      (known : f ∈ fields) (names : Names f.1 key) (below : Stray view f.2 v) :
      Stray view (.record fields) a
  | item {item a items v} (shown : view a (.list items)) (mem : v ∈ items)
      (below : Stray view item v) : Stray view (.list item) a

/-- The values that are expected at and below a place have their types. What stands under keys that
name no field does not matter. -/
inductive Fits (view : α → Shown α → Prop) : Shape → α → Prop
  | leaf {shape a has} (shown : view a (.leaf has)) (fits : has shape) : Fits view shape a
  | list {item a items} (shown : view a (.list items)) (below : ∀ v ∈ items, Fits view item v) :
      Fits view (.list item) a
  | record {fields a entries} (shown : view a (.record entries))
      (below : ∀ e ∈ entries, ∀ f ∈ fields, Names f.1 e.1 → Fits view f.2 e.2) :
      Fits view (.record fields) a

/-! ### Fields with different names -/

mutual

/-- No key can name two fields of one record. -/
def Shape.isDistinct : Shape → Bool
  | .list item => item.isDistinct
  | .record fields => areDistinct fields
  | .text | .flag | .span => true

/-- No key can name two of the fields, and none two fields of a record below them. -/
def areDistinct : List (String × Shape) → Bool
  | [] => true
  | (name, shape) :: rest =>
    shape.isDistinct && rest.all (fun f => !Text.equalFold name f.1) && areDistinct rest

end

variable {fields : List (String × Shape)} {f g : String × Shape}

theorem isDistinct_of_mem (h : areDistinct fields = true) (hf : f ∈ fields) :
    f.2.isDistinct = true := by
  induction fields with
  | nil => cases hf
  | cons g fields ih =>
    simp only [areDistinct, Bool.and_eq_true] at h
    rcases List.mem_cons.1 hf with rfl | hf
    · exact h.1.1
    · exact ih h.2 hf

/-- Fields with the same name are the same field. -/
theorem eq_of_equalFold (h : areDistinct fields = true) (hf : f ∈ fields) (hg : g ∈ fields)
    (hname : Text.equalFold f.1 g.1 = true) : f = g := by
  induction fields with
  | nil => cases hf
  | cons e fields ih =>
    simp only [areDistinct, Bool.and_eq_true, List.all_eq_true, Bool.not_eq_true'] at h
    obtain ⟨⟨-, hrest⟩, hmore⟩ := h
    rcases List.mem_cons.1 hf with rfl | hf' <;> rcases List.mem_cons.1 hg with rfl | hg'
    · rfl
    · rw [hrest g hg'] at hname
      cases hname
    · have hname' := Text.equalFold_iff.2 (Text.equalFold_iff.1 hname).symm
      rw [hrest f hf'] at hname'
      cases hname'
    · exact ih hmore hf' hg'

@[simp] theorem names_some {field key : String} :
    Names field (some key) ↔ Text.equalFold field key = true := by
  simp [Names]

/-- A key names at most one field. -/
theorem eq_of_names {key : Option String} (h : areDistinct fields = true) (hf : f ∈ fields)
    (hg : g ∈ fields) (hfk : Names f.1 key) (hgk : Names g.1 key) : f = g := by
  cases key with
  | none => cases hfk
  | some k =>
    rw [names_some, Text.equalFold_iff] at hfk hgk
    exact eq_of_equalFold h hf hg (Text.equalFold_iff.2 (hfk.trans hgk.symm))

/-! ### Formats whose values are trees -/

/-- The view of a format in which every value shows one thing. -/
def viewOf (shown : α → Shown α) (a : α) (s : Shown α) : Prop := shown a = s

section Trees

variable {shown : α → Shown α} {a : α} {shape : Shape}

theorem fits_iff : Fits (viewOf shown) shape a ↔
    match shown a with
    | .leaf has => has shape
    | .list items => ∃ item, shape = .list item ∧ ∀ v ∈ items, Fits (viewOf shown) item v
    | .record entries => ∃ fields, shape = .record fields ∧
        ∀ e ∈ entries, ∀ f ∈ fields, Names f.1 e.1 → Fits (viewOf shown) f.2 e.2 := by
  constructor
  · rintro (⟨hs, hfits⟩ | ⟨hs, hbelow⟩ | ⟨hs, hbelow⟩) <;> rw [viewOf] at hs <;> rw [hs]
    · exact hfits
    · exact ⟨_, rfl, hbelow⟩
    · exact ⟨_, rfl, hbelow⟩
  · cases hs : shown a with
    | leaf has => exact fun h => .leaf hs h
    | list items =>
      rintro ⟨item, rfl, hbelow⟩
      exact .list hs hbelow
    | record entries =>
      rintro ⟨fields, rfl, hbelow⟩
      exact .record hs hbelow

theorem stray_iff : Stray (viewOf shown) shape a ↔
    match shown a with
    | .leaf _ => False
    | .list items => ∃ item, shape = .list item ∧ ∃ v ∈ items, Stray (viewOf shown) item v
    | .record entries => ∃ fields, shape = .record fields ∧ ∃ e ∈ entries,
        (∀ f ∈ fields, ¬ Names f.1 e.1) ∨
          ∃ f ∈ fields, Names f.1 e.1 ∧ Stray (viewOf shown) f.2 e.2 := by
  constructor
  · rintro (⟨hs, hmem, hunknown⟩ | ⟨hs, hmem, hknown, hnames, hbelow⟩ | ⟨hs, hmem, hbelow⟩) <;>
      rw [viewOf] at hs <;> rw [hs]
    · exact ⟨_, rfl, _, hmem, .inl hunknown⟩
    · exact ⟨_, rfl, _, hmem, .inr ⟨_, hknown, hnames, hbelow⟩⟩
    · exact ⟨_, rfl, _, hmem, hbelow⟩
  · cases hs : shown a with
    | leaf has => exact False.elim
    | list items =>
      rintro ⟨item, rfl, v, hmem, hbelow⟩
      exact .item hs hmem hbelow
    | record entries =>
      rintro ⟨fields, rfl, e, hmem, hunknown | ⟨f, hf, hnames, hbelow⟩⟩
      · exact .key hs hmem hunknown
      · exact .field hs hmem hf hnames hbelow

end Trees

end Data
end ApiDiagrams
