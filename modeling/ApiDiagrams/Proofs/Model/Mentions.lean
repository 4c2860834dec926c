import ApiDiagrams.Model
import Mathlib.Data.List.Nodup
import Mathlib.Tactic

/-!
# What the entities of a model mention

A model is built in passes. The first declares the entities, the second goes through what each of
them mentions: bases, imports and the value of a variable. A base that is not declared joins the
index where it is first mentioned, so the index grows while it is being linked. What stands in it
after any number of mentions is said here by name, in closed form.

* `Mention`, `EntitySpec.mentions`: what the second pass goes through;
* `stub`: the entity of a name before it is linked;
* `known`: the names in the index after some mentions;
* `valueAfter`: the value of a variable, which is looked up when it is mentioned;
* `linked`: the entity of a name after some mentions.
-/

namespace ApiDiagrams
namespace Model

/-! ### What is mentioned -/

/-- Something that an entity mentions. -/
inductive Mention
  | base (owner base : String)
  | imported (owner name : String)
  | value (owner target : String)
  deriving DecidableEq, Repr

namespace Mention

/-- The entity that mentions it. -/
@[simp] def owner : Mention → String
  | base o _ | imported o _ | value o _ => o

/-- The base that `n` mentions. -/
@[simp] def baseOf? (n : String) : Mention → Option String
  | base o b => if o = n then some b else none
  | _ => none

/-- The entity that mentions `n` as its base. -/
@[simp] def subclassOf? (n : String) : Mention → Option String
  | base o b => if b = n then some o else none
  | _ => none

/-- The name that `n` imports. -/
@[simp] def importOf? (n : String) : Mention → Option String
  | imported o i => if o = n then some i else none
  | _ => none

end Mention

end Model

namespace EntitySpec

/-- The name of the entity. -/
def title (s : EntitySpec) : String := s.name.lossy

/-- The entity without its relations. -/
def stub (s : EntitySpec) : Entity where
  name := Name.parse s.title
  kind := (EntityKind.parse? s.kind.lossy).getD default
  isPackage := s.package
  isRoot := s.root || Model.rootNames.contains s.title

/-- What the entity mentions, in the order in which it is linked. -/
def mentions (s : EntitySpec) : List Model.Mention :=
  s.bases.map (fun b => .base s.title b.lossy) ++
    s.imports.map (fun i => .imported s.title i.lossy) ++
    if s.value = "" then [] else [.value s.title s.value]

theorem owner_of_mem_mentions (s : EntitySpec) {e : Model.Mention} (h : e ∈ s.mentions) :
    e.owner = s.title := by
  unfold mentions at h
  rcases List.mem_append.1 h with h | h
  · rcases List.mem_append.1 h with h | h
    · obtain ⟨b, -, rfl⟩ := List.mem_map.1 h
      rfl
    · obtain ⟨i, -, rfl⟩ := List.mem_map.1 h
      rfl
  · split_ifs at h
    · exact absurd h List.not_mem_nil
    · rw [List.mem_singleton.1 h]
      rfl

end EntitySpec

namespace Model

/-- The names of the described entities. -/
def declared (specs : List EntitySpec) : List String := specs.map EntitySpec.title

/-- A class from outside the model. -/
def outsider (n : String) : Entity where
  name := Name.parse n
  kind := .classType
  isRoot := rootNames.contains n

/-- The entity of a name without its relations: as described, else a class from outside. -/
def stub (specs : List EntitySpec) (n : String) : Entity :=
  ((specs.find? fun s => s.title == n).map EntitySpec.stub).getD (outsider n)

theorem name_stub (specs : List EntitySpec) (n : String) : (stub specs n).name = Name.parse n := by
  unfold stub
  cases hs : specs.find? fun s => s.title == n with
  | none => rfl
  | some s =>
    have hn : s.title = n := by simpa using List.find?_some hs
    rw [← hn]
    rfl

theorem find?_title_eq_none {specs : List EntitySpec} {n : String} (h : n ∉ declared specs) :
    specs.find? (fun s => s.title == n) = none := by
  rw [List.find?_eq_none]
  intro s hs hn
  exact h (List.mem_map.2 ⟨s, hs, by simpa using hn⟩)

theorem stub_of_not_mem {specs : List EntitySpec} {n : String} (h : n ∉ declared specs) :
    stub specs n = outsider n := by
  rw [stub, find?_title_eq_none h]
  rfl

theorem stub_of_mem {specs : List EntitySpec} (h : (declared specs).Nodup) {s : EntitySpec}
    (hs : s ∈ specs) : stub specs s.title = s.stub := by
  have hsome : specs.find? (fun t => t.title == s.title) = some s := by
    induction specs with
    | nil => exact absurd hs List.not_mem_nil
    | cons t specs ih =>
      rw [declared, List.map_cons, List.nodup_cons] at h
      rcases List.mem_cons.1 hs with rfl | hs
      · simp
      · have ht : t.title ≠ s.title := by
          intro ht
          exact h.1 (ht ▸ List.mem_map_of_mem hs)
        rw [List.find?_cons_of_neg (by simpa using ht)]
        exact ih h.2 hs
  rw [stub, hsome]
  rfl

/-! ### The names in the index -/

/-- A base that is mentioned joins the names. -/
def learn (names : List String) : Mention → List String
  | .base _ b => if b ∈ names then names else names ++ [b]
  | _ => names

/-- The names in the index after some mentions. -/
def known (names : List String) (es : List Mention) : List String := es.foldl learn names

theorem known_concat (names : List String) (es : List Mention) (e : Mention) :
    known names (es ++ [e]) = learn (known names es) e := by
  rw [known, List.foldl_append]
  rfl

theorem prefix_learn (names : List String) (e : Mention) : names <+: learn names e := by
  cases e with
  | base o b =>
    simp only [learn]
    split_ifs
    · exact List.prefix_rfl
    · exact List.prefix_append _ _
  | imported o i => exact List.prefix_rfl
  | value o t => exact List.prefix_rfl

theorem known_append (names : List String) (es es' : List Mention) :
    known names (es ++ es') = known (known names es) es' := List.foldl_append

theorem prefix_known (names : List String) (es : List Mention) : names <+: known names es := by
  induction es generalizing names with
  | nil => exact List.prefix_rfl
  | cons e es ih => exact (prefix_learn names e).trans (ih _)

theorem mem_learn_iff {names : List String} {e : Mention} {n : String} :
    n ∈ learn names e ↔ n ∈ names ∨ ∃ o, e = .base o n := by
  cases e with
  | base o b =>
    simp only [learn, Mention.base.injEq]
    split_ifs with hb
    · constructor
      · exact Or.inl
      · rintro (hn | ⟨-, -, rfl⟩)
        · exact hn
        · exact hb
    · simp [eq_comm]
  | imported o i => simp [learn]
  | value o t => simp [learn]

theorem mem_known_iff {names : List String} {es : List Mention} {n : String} :
    n ∈ known names es ↔ n ∈ names ∨ ∃ o, .base o n ∈ es := by
  induction es generalizing names with
  | nil => simp [known]
  | cons e es ih =>
    change n ∈ known (learn names e) es ↔ _
    simp only [ih, mem_learn_iff, List.mem_cons, exists_or, or_assoc, eq_comm]

theorem nodup_learn {names : List String} (h : names.Nodup) (e : Mention) :
    (learn names e).Nodup := by
  cases e with
  | base o b =>
    simp only [learn]
    split_ifs with hb
    · exact h
    · refine List.nodup_append.2 ⟨h, List.nodup_singleton b, fun n hn c hc => ?_⟩
      rw [List.mem_singleton.1 hc]
      rintro rfl
      exact hb hn
  | imported o i => exact h
  | value o t => exact h

theorem nodup_known {names : List String} (h : names.Nodup) (es : List Mention) :
    (known names es).Nodup := by
  induction es generalizing names with
  | nil => exact h
  | cons e es ih => exact ih (nodup_learn h e)

/-! ### The entities in the index -/

/-- What a mention makes the value of `n`, when the names are known and it was `v` before. -/
@[simp] def revalue (names : List String) (n : String) (v : Option String) : Mention → Option String
  | .value o t => if o = n then (if t ∈ names then some t else none) else v
  | _ => v

/-- The value of `n` after some mentions, looked up when it is mentioned. -/
def valueAfter (names : List String) (n : String) : List Mention → Option String → Option String
  | [], v => v
  | e :: es, v => valueAfter (learn names e) n es (revalue names n v e)

/-- The entity of a name after some mentions. Entities go by their place in the index. -/
def linked (specs : List EntitySpec) (place : String → EntityId) (es : List Mention) (n : String) :
    Entity :=
  { stub specs n with
    bases := (es.filterMap (Mention.baseOf? n)).map place
    subclasses := (es.filterMap (Mention.subclassOf? n)).map place
    imports := (es.filterMap (Mention.importOf? n)).map Name.parse
    value := (valueAfter (declared specs) n es none).map place }

theorem valueAfter_append (names : List String) (n : String) (es es' : List Mention)
    (v : Option String) : valueAfter names n (es ++ es') v =
      valueAfter (known names es) n es' (valueAfter names n es v) := by
  induction es generalizing names v with
  | nil => rfl
  | cons e es ih => exact ih _ _

theorem valueAfter_concat (names : List String) (n : String) (es : List Mention) (e : Mention)
    (v : Option String) : valueAfter names n (es ++ [e]) v =
      revalue (known names es) n (valueAfter names n es v) e := valueAfter_append _ _ _ _ _

theorem valueAfter_of_not_mem {names : List String} {n : String} {es : List Mention}
    (h : ∀ t, .value n t ∉ es) (v : Option String) : valueAfter names n es v = v := by
  induction es generalizing names v with
  | nil => rfl
  | cons e es ih =>
    have he : revalue names n v e = v := by
      cases e with
      | value o t =>
        refine if_neg ?_
        rintro rfl
        exact h t List.mem_cons_self
      | base o b => rfl
      | imported o i => rfl
    rw [valueAfter, he]
    exact ih (fun t ht => h t (List.mem_cons_of_mem _ ht)) v

/-- A name that was not mentioned, and mentions nothing, has no relations. -/
theorem linked_of_not_mem {specs : List EntitySpec} {place : String → EntityId}
    {es : List Mention} {n : String} (ho : ∀ e ∈ es, e.owner ∈ declared specs)
    (hn : n ∉ known (declared specs) es) : linked specs place es n = outsider n := by
  rw [mem_known_iff, not_or, not_exists] at hn
  have hne : ∀ e ∈ es, e.owner ≠ n := by
    rintro e he rfl
    exact hn.1 (ho e he)
  have hbases : es.filterMap (Mention.baseOf? n) = [] := by
    refine List.filterMap_eq_nil_iff.2 fun e he => ?_
    cases e with
    | base o b => exact if_neg (hne _ he)
    | imported o i => rfl
    | value o t => rfl
  have himports : es.filterMap (Mention.importOf? n) = [] := by
    refine List.filterMap_eq_nil_iff.2 fun e he => ?_
    cases e with
    | imported o i => exact if_neg (hne _ he)
    | base o b => rfl
    | value o t => rfl
  -- a subclass would have mentioned the name
  have hsubclasses : es.filterMap (Mention.subclassOf? n) = [] := by
    refine List.filterMap_eq_nil_iff.2 fun e he => ?_
    cases e with
    | base o b =>
      refine if_neg ?_
      rintro rfl
      exact hn.2 o he
    | imported o i => rfl
    | value o t => rfl
  have hvalue : valueAfter (declared specs) n es none = none :=
    valueAfter_of_not_mem (fun t ht => hne (.value n t) ht rfl) none
  rw [linked, hbases, himports, hsubclasses, hvalue, stub_of_not_mem hn.1]
  rfl

end Model
end ApiDiagrams
