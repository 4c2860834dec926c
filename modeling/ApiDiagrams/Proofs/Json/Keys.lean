import ApiDiagrams.Json.Read
import ApiDiagrams.Proofs.Data.Keys

/-!
# Unknown keys in JSON

A value has a shape exactly when its fields have the right types and no key is stray, at any depth
and also under keys that come several times.

* `Value.shown`: what a value shows;
* `Value.IsStrict`: the fields have the right types, and no key is stray;
* `Value.fits_iff`: which values have a shape.
-/

namespace ApiDiagrams
namespace Json

open Data

/-- What a value shows. A null fits everywhere, and a number nowhere. -/
def Value.shown : Value → Shown Value
  | .null => .leaf fun _ => True
  | .flag _ => .leaf (· = .flag)
  | .number _ => .leaf fun _ => False
  | .text _ _ => .leaf (· = .text)
  | .array items => .list items
  | .object members => .record (members.map fun (key, v) => (some key, v))

/-- The fields of a value have the right types, and none of its keys is stray. -/
def Value.IsStrict (v : Value) (shape : Shape) : Prop :=
  Fits (viewOf Value.shown) shape v ∧ ¬ Stray (viewOf Value.shown) shape v

variable {shape : Shape} {fields : List (String × Shape)} {f : String × Shape} {key : String}
  {v : Value}

/-! ### Fields of a record -/

theorem field?_eq_some_iff (hd : areDistinct fields = true) :
    field? fields key = some f ↔ f ∈ fields ∧ Text.equalFold f.1 key = true := by
  have hfind : field? fields key = fields.find? fun f => Text.equalFold f.1 key := rfl
  rw [hfind]
  constructor
  · intro h
    exact ⟨List.mem_of_find?_eq_some h, by simpa using List.find?_some h⟩
  · rintro ⟨hf, hname⟩
    obtain ⟨g, hg⟩ : ∃ g, fields.find? (fun f => Text.equalFold f.1 key) = some g := by
      rw [← Option.isSome_iff_exists, List.find?_isSome]
      exact ⟨f, hf, hname⟩
    have hgname : Text.equalFold g.1 key = true := by simpa using List.find?_some hg
    rw [hg, eq_of_names hd (List.mem_of_find?_eq_some hg) hf (names_some.2 hgname)
      (names_some.2 hname)]

/-- What is asked of the first member: its key names a field that the value fits. -/
theorem membersFit_cons (hd : areDistinct fields = true) {rest : List (String × Value)} :
    membersFit ((key, v) :: rest) fields = true ↔
      (∃ f ∈ fields, Text.equalFold f.1 key = true ∧ v.fits f.2 = true) ∧
        membersFit rest fields = true := by
  have hsome : (∃ f ∈ fields, Text.equalFold f.1 key = true ∧ v.fits f.2 = true) ↔
      ∃ f, field? fields key = some f ∧ v.fits f.2 = true := by
    simp only [field?_eq_some_iff hd, and_assoc]
  rw [membersFit, Bool.and_eq_true, hsome]
  cases hf : field? fields key <;> simp

/-! ### Strict values -/

theorem isStrict_of_leaf {has : Shape → Prop} (h : v.shown = .leaf has) :
    v.IsStrict shape ↔ has shape := by
  rw [Value.IsStrict, fits_iff, stray_iff, h]
  exact and_iff_left not_false

theorem isStrict_array {items : List Value} : (Value.array items).IsStrict shape ↔
    ∃ item, shape = .list item ∧ ∀ v ∈ items, v.IsStrict item := by
  rw [Value.IsStrict, fits_iff, stray_iff]
  constructor
  · rintro ⟨⟨item, rfl, hfits⟩, hstray⟩
    exact ⟨item, rfl, fun v hv => ⟨hfits v hv, fun hs => hstray ⟨item, rfl, v, hv, hs⟩⟩⟩
  · rintro ⟨item, rfl, h⟩
    refine ⟨⟨item, rfl, fun v hv => (h v hv).1⟩, ?_⟩
    rintro ⟨_, ⟨⟩, v, hv, hs⟩
    exact (h v hv).2 hs

/-- Every key of an object names a field, and its value is as the field asks for. -/
theorem isStrict_object {members : List (String × Value)} : (Value.object members).IsStrict shape ↔
    ∃ fields, shape = .record fields ∧ ∀ m ∈ members,
      (∃ f ∈ fields, Text.equalFold f.1 m.1 = true) ∧
        ∀ f ∈ fields, Text.equalFold f.1 m.1 = true → m.2.IsStrict f.2 := by
  rw [Value.IsStrict, fits_iff, stray_iff]
  simp only [Value.shown, List.mem_map, exists_exists_and_eq_and, forall_exists_index, and_imp,
    forall_apply_eq_imp_iff₂, names_some]
  constructor
  · rintro ⟨⟨fields, rfl, hfits⟩, hstray⟩
    refine ⟨fields, rfl, fun m hm => ⟨?_, fun f hf hname => ⟨hfits m hm f hf hname, fun hs => ?_⟩⟩⟩
    · by_contra hnone
      exact hstray ⟨fields, rfl, m, hm, .inl fun f hf hname => hnone ⟨f, hf, hname⟩⟩
    · exact hstray ⟨fields, rfl, m, hm, .inr ⟨f, hf, hname, hs⟩⟩
  · rintro ⟨fields, rfl, h⟩
    refine ⟨⟨fields, rfl, fun m hm f hf hname => ((h m hm).2 f hf hname).1⟩, ?_⟩
    rintro ⟨_, ⟨⟩, m, hm, hunknown | ⟨f, hf, hname, hs⟩⟩
    · obtain ⟨f, hf, hname⟩ := (h m hm).1
      exact hunknown f hf hname
    · exact ((h m hm).2 f hf hname).2 hs

/-- With distinct fields it is enough that the key names one field. -/
theorem isStrict_member_iff (hd : areDistinct fields = true) :
    ((∃ f ∈ fields, Text.equalFold f.1 key = true) ∧
        ∀ f ∈ fields, Text.equalFold f.1 key = true → v.IsStrict f.2) ↔
      ∃ f ∈ fields, Text.equalFold f.1 key = true ∧ v.IsStrict f.2 := by
  constructor
  · rintro ⟨⟨f, hf, hname⟩, h⟩
    exact ⟨f, hf, hname, h f hf hname⟩
  · rintro ⟨f, hf, hname, h⟩
    refine ⟨⟨f, hf, hname⟩, fun g hg hgname => ?_⟩
    rwa [eq_of_names hd hg hf (names_some.2 hgname) (names_some.2 hname)]

/-! ### Reading -/

mutual

/-- A value has a shape exactly when its fields have the right types and no key is stray. -/
theorem Value.fits_iff : ∀ {v : Value} {shape : Shape}, shape.isDistinct = true →
    (v.fits shape = true ↔ v.IsStrict shape)
  | .null, shape, _ => by simp [Value.fits, isStrict_of_leaf (v := .null) rfl]
  | .flag b, shape, _ => by
    rw [isStrict_of_leaf (v := .flag b) rfl]
    cases shape <;> simp [Value.fits]
  | .number ds, shape, _ => by
    rw [isStrict_of_leaf (v := .number ds) rfl]
    cases shape <;> simp [Value.fits]
  | .text s e, shape, _ => by
    rw [isStrict_of_leaf (v := .text s e) rfl]
    cases shape <;> simp [Value.fits]
  | .array items, shape, h => by
    rw [isStrict_array]
    cases shape with
    | list item =>
      have hd : item.isDistinct = true := h
      simp [Value.fits, allFit_iff hd]
    | _ => simp [Value.fits]
  | .object members, shape, h => by
    rw [isStrict_object]
    cases shape with
    | record fields =>
      have hd : areDistinct fields = true := h
      rw [Value.fits, membersFit_iff hd]
      simp only [Shape.record.injEq, exists_eq_left', isStrict_member_iff hd]
    | _ => simp [Value.fits]

theorem allFit_iff : ∀ {items : List Value} {item : Shape}, item.isDistinct = true →
    (allFit items item = true ↔ ∀ v ∈ items, v.IsStrict item)
  | [], _, _ => by simp [allFit]
  | v :: rest, item, h => by
    rw [allFit, Bool.and_eq_true, Value.fits_iff h, allFit_iff h, List.forall_mem_cons]

theorem membersFit_iff : ∀ {members : List (String × Value)} {fields : List (String × Shape)},
    areDistinct fields = true → (membersFit members fields = true ↔
      ∀ m ∈ members, ∃ f ∈ fields, Text.equalFold f.1 m.1 = true ∧ m.2.IsStrict f.2)
  | [], _, _ => by simp [membersFit]
  | (key, v) :: rest, fields, h => by
    have hv : ∀ f ∈ fields, (v.fits f.2 = true ↔ v.IsStrict f.2) := fun f hf =>
      Value.fits_iff (isDistinct_of_mem h hf)
    rw [membersFit_cons h, membersFit_iff h, List.forall_mem_cons]
    refine and_congr_left fun _ => exists_congr fun f => and_congr_right fun hf => ?_
    rw [hv f hf]

end

end Json
end ApiDiagrams
