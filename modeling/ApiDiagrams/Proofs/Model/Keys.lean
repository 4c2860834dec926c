import ApiDiagrams.Model.Format
import ApiDiagrams.Proofs.Json.Keys
import ApiDiagrams.Proofs.Toml.Keys
import ApiDiagrams.Proofs.Yaml.Keys
import Mathlib

/-!
# Unknown keys of model files

YAML and JSON refuse a model file with a key that names no field, at any depth. TOML takes every
file whose fields have the right types, whatever other keys it has, so the facts under a misspelt
key are lost without a word.

* `Format.Strays`: a file of a format has a stray key;
* `decode_strays`: what becomes of such a file in each format;
* `misspelt_key_is_lost`: a misspelt key that TOML passes over, and a pair without a key in YAML;
* `misspelt_key_by_format`: the same mistake in each format.
-/

namespace ApiDiagrams
namespace Model

open Data

/-- A key of the file names no field of a model at its place. In YAML these are the keys that are
read: a pair without a key is none (`Yaml.ownPairs_null`), and neither is a pair that is taken over
under a name that the mapping has itself. -/
def Format.Strays (f : Format) (bytes : ByteArray) : Prop :=
  match f with
  | .yaml => ∃ d, Yaml.Document.first? bytes = some d ∧ Stray (Yaml.Shows d.anchored) shape d.root
  | .toml => ∃ d, Toml.Document.parse? bytes = some d ∧
      Stray (viewOf Toml.Value.shown) shape (.table d.root)
  | .json => ∃ v, Json.parseFirst? bytes = some v ∧ Stray (viewOf Json.Value.shown) shape v

theorem isDistinct_shape : shape.isDistinct = true := by decide

variable {bytes : ByteArray} {format : String} {f : Format}

/-- A model is decoded when the file is read. -/
theorem exists_decode_iff (hf : Format.parse? format = some f) :
    (∃ m, decode bytes format = .ok m) ↔ (f.read bytes shape).isSome = true := by
  simp only [decode, hf]
  cases hread : f.read bytes shape <;> simp

/-- A file that is not read is no proper input. -/
theorem decode_of_not_read (hf : Format.parse? format = some f) (h : f.read bytes shape = none) :
    ∃ e, decode bytes format = .error e ∧ e.code? = some .invalidInput := by
  simp only [decode, hf, h]
  exact ⟨_, rfl, rfl⟩

/-- YAML and JSON read no file with a stray key. -/
theorem read_of_strays (h : f.Strays bytes) (hf : f ≠ .toml) : f.read bytes shape = none := by
  cases f with
  | toml => exact absurd rfl hf
  | yaml =>
    obtain ⟨d, hd, hstray⟩ := h
    rw [Format.read, hd, Option.bind_some, Option.eq_none_iff_forall_ne_some]
    exact fun datum hread => Yaml.not_stray_of_read isDistinct_shape hread hstray
  | json =>
    obtain ⟨v, hv, hstray⟩ := h
    have hfits : v.fits shape = false := by
      rw [Bool.eq_false_iff, Ne, Json.Value.fits_iff isDistinct_shape]
      exact fun hstrict => hstrict.2 hstray
    rw [Format.read, hv, Option.bind_some, Json.Value.read, hfits]
    rfl

theorem read_json_iff : (Format.read .json bytes shape).isSome = true ↔
    ∃ v, Json.parseFirst? bytes = some v ∧ v.IsStrict shape := by
  rw [Format.read]
  cases Json.parseFirst? bytes with
  | none => simp
  | some v => simp [Json.Value.read, Json.Value.fits_iff isDistinct_shape]

theorem read_toml_iff : (Format.read .toml bytes shape).isSome = true ↔
    ∃ d, Toml.Document.parse? bytes = some d ∧
      Fits (viewOf Toml.Value.shown) shape (.table d.root) := by
  rw [Format.read]
  cases Toml.Document.parse? bytes with
  | none => simp
  | some d => simp [Toml.Document.read, Toml.isSome_readValue_iff]

/-- **Stray keys by format.** YAML and JSON refuse a file with a stray key as improper input. JSON
takes a file exactly when its fields have the right types and no key is stray; TOML takes it exactly
when its fields have the right types. -/
theorem decode_strays (hf : Format.parse? format = some f) :
    (f ≠ .toml → f.Strays bytes →
      ∃ e, decode bytes format = .error e ∧ e.code? = some .invalidInput) ∧
    (f = .json → ((∃ m, decode bytes format = .ok m) ↔
      ∃ v, Json.parseFirst? bytes = some v ∧ v.IsStrict shape)) ∧
    (f = .toml → ((∃ m, decode bytes format = .ok m) ↔
      ∃ d, Toml.Document.parse? bytes = some d ∧
        Fits (viewOf Toml.Value.shown) shape (.table d.root))) := by
  refine ⟨fun hne h => decode_of_not_read hf (read_of_strays h hne), ?_, ?_⟩
  · rintro rfl
    rw [exists_decode_iff hf, read_json_iff]
  · rintro rfl
    rw [exists_decode_iff hf, read_toml_iff]

/-! ### A misspelt key -/

/-- An entity whose bases are misspelt. -/
def misspelt : ByteArray := "[[entities]]\nbasess = [\"b\"]\n".toUTF8

theorem parse_misspelt : ∃ d, Toml.Document.parse? misspelt = some d ∧
    d.root = [("entities", .tables [[("basess", .array [.text "b"])]])] := by
  apply Option.map_eq_some_iff.1
  cbv

theorem strays_misspelt : Format.Strays .toml misspelt := by
  obtain ⟨d, hd, hroot⟩ := parse_misspelt
  refine ⟨d, hd, ?_⟩
  rw [hroot]
  exact .field rfl List.mem_cons_self List.mem_cons_self (by decide)
    (.item rfl List.mem_cons_self (.key rfl List.mem_cons_self (by decide)))

theorem fits_misspelt : ∃ d, Toml.Document.parse? misspelt = some d ∧
    Fits (viewOf Toml.Value.shown) shape (.table d.root) := by
  obtain ⟨d, hd, hroot⟩ := parse_misspelt
  refine ⟨d, hd, Toml.isSome_readValue_iff.1 ?_⟩
  rw [hroot]
  decide

/-- A pair without a key and a value. -/
def unkeyed : ByteArray := "\x7bprofiled: true, ? \x7d".toUTF8

theorem parse_unkeyed : ∃ d, Yaml.Document.first? unkeyed = some d ∧
    d.root = .mapping [(.scalar "!!str" "profiled", .scalar "!!bool" "true"),
      (.scalar "!!null" "", .scalar "!!null" "")] := by
  apply Option.map_eq_some_iff.1
  cbv

/-- TOML passes over the misspelt key, and the entity has no bases. YAML passes over a pair whose key
is null. -/
theorem misspelt_key_is_lost :
    (Format.Strays .toml misspelt ∧
      (∃ d, Toml.Document.parse? misspelt = some d ∧
        Fits (viewOf Toml.Value.shown) shape (.table d.root)) ∧
      (decode misspelt "toml").toOption = some { entities := [{}] }) ∧
    (∃ d, Yaml.Document.first? unkeyed = some d ∧
      d.root = .mapping [(.scalar "!!str" "profiled", .scalar "!!bool" "true"),
        (.scalar "!!null" "", .scalar "!!null" "")]) ∧
    (decode unkeyed "yaml").toOption = some { profiled := true } :=
  ⟨⟨strays_misspelt, fits_misspelt, by decide +kernel⟩, parse_unkeyed, by decide +kernel⟩

/-- A call whose caller is misspelt. -/
def misspeltCall : ByteArray := "\x7b\"calls\":[\x7b\"callr\":\"a\"\x7d]\x7d".toUTF8

theorem strays_misspeltCall : Format.Strays .json misspeltCall := by
  refine ⟨.object [("calls", .array [.object [("callr", .text "a" false)]])], by cbv, ?_⟩
  exact .field rfl List.mem_cons_self (List.mem_cons_of_mem _ List.mem_cons_self) (by decide)
    (.item rfl List.mem_cons_self (.key rfl List.mem_cons_self (by decide)))

/-- No calls, under a misspelt key. -/
def misspeltCalls : ByteArray := "\x7bcall: []\x7d".toUTF8

theorem strays_misspeltCalls : Format.Strays .yaml misspeltCalls := by
  obtain ⟨d, hd, hroot⟩ : ∃ d, Yaml.Document.first? misspeltCalls = some d ∧
      d.root = .mapping [(.scalar "!!str" "call", .sequence [])] := by
    apply Option.map_eq_some_iff.1
    cbv
  refine ⟨d, hd, ?_⟩
  rw [hroot]
  exact .key (.mapping (.own rfl)) List.mem_cons_self (by decide)

/-- The mistake is refused in JSON and in YAML and passed over in TOML. -/
theorem misspelt_key_by_format :
    (Format.parse? "json" = some .json ∧ Format.Strays .json misspeltCall ∧
      ∃ e, decode misspeltCall "json" = .error e ∧ e.code? = some .invalidInput) ∧
    (Format.parse? "yml" = some .yaml ∧ Format.Strays .yaml misspeltCalls ∧
      ∃ e, decode misspeltCalls "yml" = .error e ∧ e.code? = some .invalidInput) ∧
    (Format.parse? "TOML" = some .toml ∧ ∃ m, decode misspelt "TOML" = .ok m) := by
  have hjson : Format.parse? "json" = some .json := by decide +kernel
  have hyaml : Format.parse? "yml" = some .yaml := by decide +kernel
  have htoml : Format.parse? "TOML" = some .toml := by decide +kernel
  exact ⟨⟨hjson, strays_misspeltCall, (decode_strays hjson).1 (by decide) strays_misspeltCall⟩,
    ⟨hyaml, strays_misspeltCalls, (decode_strays hyaml).1 (by decide) strays_misspeltCalls⟩,
    htoml, ((decode_strays htoml).2.2 rfl).2 fits_misspelt⟩

end Model
end ApiDiagrams
