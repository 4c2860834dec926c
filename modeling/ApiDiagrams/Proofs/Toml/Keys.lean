import ApiDiagrams.Proofs.Data.Keys
import ApiDiagrams.Toml.Read

/-!
# Unknown keys in TOML

A value is read exactly when its fields have the right types. Keys that name no field are passed
over, at any depth, with all that stands under them.

* `Value.shown`: what a value shows;
* `isSome_readValue_iff`: which values are read.
-/

namespace ApiDiagrams
namespace Toml

open Data

/-- What a value shows. An array of tables is a list of them. -/
def Value.shown : Value → Shown Value
  | .text s => .leaf fun shape => shape = .text ∨ shape = .span ∧ (Time.Span.parse? s).isSome = true
  | .integer _ => .leaf (· = .span)
  | .flag _ => .leaf (· = .flag)
  | .float | .date => .leaf fun _ => False
  | .array items => .list items
  | .tables rows => .list (rows.map .table)
  | .table entries => .record (entries.map fun (key, v) => (some key, v))

/-- A list is gone through when each of its elements has a result. -/
theorem isSome_mapM_iff {α β : Type} {f : α → Option β} {l : List α} :
    (l.mapM f).isSome = true ↔ ∀ x ∈ l, (f x).isSome = true := by
  induction l with
  | nil => simp
  | cons x l ih =>
    rw [List.mapM_cons, List.forall_mem_cons, ← ih]
    cases f x <;> cases l.mapM f <;> simp

variable {v : Value}

theorem shown_eq_list {items : List Value} (h : v.items? = some items) : v.shown = .list items := by
  cases v <;> simp_all [Value.items?, Value.shown]

/-- The values under the keys that name a field. -/
theorem mem_entriesOf {name : String} {t : Table} :
    v ∈ entriesOf name t ↔ ∃ key, (key, v) ∈ t ∧ Text.equalFold name key = true := by
  simp [entriesOf]

mutual

/-- A value is read exactly when its fields have the right types. -/
theorem isSome_readValue_iff : ∀ {shape : Shape} {v : Value},
    (readValue shape v).isSome = true ↔ Fits (viewOf Value.shown) shape v
  | .text, v | .flag, v | .span, v => by
    rw [fits_iff]
    cases v <;> simp [readValue, Value.shown]
  | .list item, v => by
    rw [readValue, fits_iff]
    cases hitems : v.items? with
    | none => cases v <;> simp_all [Value.items?, Value.shown]
    | some items =>
      have hmap : (items.mapM (readValue item)).isSome = true ↔
          ∀ x ∈ items, Fits (viewOf Value.shown) item x := by
        simp only [isSome_mapM_iff, isSome_readValue_iff]
      rw [shown_eq_list hitems]
      simp only [Shape.list.injEq, exists_eq_left', ← hmap]
      cases h : items.mapM (readValue item) <;> simp [h]
  | .record fields, v => by
    rw [fits_iff]
    cases v with
    | table t =>
      have hfields := @isSome_readFields_iff fields t
      rw [readValue]
      simp only [Value.shown, Shape.record.injEq, exists_eq_left', List.mem_map,
        forall_exists_index, and_imp, forall_apply_eq_imp_iff₂, names_some]
      rw [forall₂_comm] at hfields
      rw [← hfields]
      cases readFields fields t <;> simp
    | _ => simp [readValue, Value.shown]

theorem isSome_readFields_iff : ∀ {fields : List (String × Shape)} {t : Table},
    (readFields fields t).isSome = true ↔ ∀ f ∈ fields, ∀ e ∈ t,
      Text.equalFold f.1 e.1 = true → Fits (viewOf Value.shown) f.2 e.2
  | [], t => by simp [readFields]
  | (name, shape) :: rest, t => by
    have hfirst : ((entriesOf name t).mapM (readValue shape)).isSome = true ↔
        ∀ e ∈ t, Text.equalFold name e.1 = true → Fits (viewOf Value.shown) shape e.2 := by
      simp only [isSome_mapM_iff, isSome_readValue_iff, mem_entriesOf]
      exact ⟨fun h e he hname => h e.2 ⟨e.1, he, hname⟩, fun h v ⟨key, he, hname⟩ => h _ he hname⟩
    have hrest := @isSome_readFields_iff rest t
    rw [List.forall_mem_cons, ← hfirst, ← hrest, readFields]
    cases (entriesOf name t).mapM (readValue shape) <;> cases readFields rest t <;> simp

end

end Toml
end ApiDiagrams
