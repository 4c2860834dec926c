import ApiDiagrams.Fault
import Mathlib.Data.List.Basic

/-!
# Layers of faults

A fault is a chain of layers, each of which may have a code of its own. The outermost code decides
what a fault is taken for; the codes below it are not seen any more.

* `Fault.layers`: the chain of a fault;
* `Fault.ownCode?`, `Fault.codes`: the code of a layer, and those of the chain;
* `Fault.is_decided_by_outermost`: what is found of the codes of a chain, and when it is all there
  is.
-/

namespace ApiDiagrams
namespace Fault

/-! ### Layers -/

/-- The fault and all that it wraps, outermost layer first. -/
def layers : Fault → List Fault
  | .plain text => [.plain text]
  | .cancelled => [.cancelled]
  | .deadline => [.deadline]
  | .coded code message => [.coded code message]
  | .wrapped code message cause => .wrapped code message cause :: cause.layers
  | .within place cause => .within place cause :: cause.layers
  | .transient cause => .transient cause :: cause.layers
  | .unavailable cause => .unavailable cause :: cause.layers

/-- The code of the outermost layer itself. -/
def ownCode? : Fault → Option Code
  | .coded code _ | .wrapped code _ _ => some code
  | .plain _ | .cancelled | .deadline | .within _ _ | .transient _ | .unavailable _ => none

/-- The codes in the chain of causes, outermost layer first. -/
def codes : Fault → List Code
  | .plain _ | .cancelled | .deadline => []
  | .coded code _ => [code]
  | .wrapped code _ cause => code :: cause.codes
  | .within _ cause | .transient cause | .unavailable cause => cause.codes

theorem codes_eq (f : Fault) : f.codes = f.layers.filterMap ownCode? := by
  induction f with
  | plain | cancelled | deadline | coded => rfl
  | wrapped _ _ _ ih => rw [codes, layers, List.filterMap_cons, ih, ownCode?]
  | within _ _ ih | transient _ ih | unavailable _ ih =>
    rw [codes, layers, List.filterMap_cons, ih, ownCode?]

variable {f : Fault} {code : Code}

theorem mem_codes_iff : code ∈ f.codes ↔ ∃ layer ∈ f.layers, layer.ownCode? = some code := by
  rw [codes_eq, List.mem_filterMap]

/-! ### The code of a fault -/

/-- The code of a fault is the outermost of its chain. -/
theorem code?_eq_head? (f : Fault) : f.code? = f.codes.head? := by
  induction f with
  | plain | cancelled | deadline | coded | wrapped => rfl
  | within _ _ ih => exact ih
  | transient _ ih => exact ih
  | unavailable _ ih => exact ih

theorem is_iff : f.is code = true ↔ f.code? = some code := by
  simp [is]

theorem isRenderFailure_iff : f.isRenderFailure = true ↔
    f.code? ∈ [some .toolUnavailable, some .toolFailed, some .unsupportedFormat] := by
  simp only [isRenderFailure, Bool.or_eq_true, is_iff, List.mem_cons, List.not_mem_nil, or_false,
    or_assoc]

/-- **The outermost code decides.** A fault is of a kind when that is its outermost code, so a code
of its chain is found exactly when no other one lies over it. Whether the layout tool is at fault is
decided by the same code. -/
theorem is_decided_by_outermost (f : Fault) (code : Code) :
    (f.is code = true ↔ f.codes.head? = some code) ∧
    ((f.is code = true ↔ ∃ layer ∈ f.layers, layer.ownCode? = some code) ↔
      (code ∈ f.codes → f.codes.head? = some code)) ∧
    f.code? = f.codes.head? ∧
    (f.isRenderFailure = true ↔
      f.code? ∈ [some .toolUnavailable, some .toolFailed, some .unsupportedFormat]) := by
  have his : f.is code = true ↔ f.codes.head? = some code := by rw [is_iff, code?_eq_head?]
  refine ⟨his, ?_, f.code?_eq_head?, isRenderFailure_iff⟩
  rw [his, ← mem_codes_iff]
  -- the outermost code is always one of the chain, so only the other direction can fail
  have hmem : f.codes.head? = some code → code ∈ f.codes := List.mem_of_mem_head?
  exact ⟨fun h => h.2, fun h => ⟨hmem, h⟩⟩

/-- A tool that fails over an improper input. -/
def coveredInput : Fault := .wrapped .toolFailed "outer" (.coded .invalidInput "inner")

/-- A code below another one is in the chain and is not found. -/
theorem covered_code_is_not_found :
    (∃ layer ∈ coveredInput.layers, layer.ownCode? = some .invalidInput) ∧
      coveredInput.is .invalidInput = false :=
  ⟨⟨.coded .invalidInput "inner", List.mem_cons_of_mem _ List.mem_cons_self, rfl⟩, by decide⟩

end Fault
end ApiDiagrams
