import ApiDiagrams.Proofs.Config.Check
import ApiDiagrams.Proofs.Run.Validity

/-!
# Directives of entries and of flags

An entry of the settings and the flags of a command line say the same things, and both become a
directive. The entry has its direction and its style put into the letters that the rest of a run goes
by; the flags are taken as they are.

* `Directive.check_eq_ok_iff`: what the check of directives looks at;
* `Directive.ofSpec_eq_ok_iff`, `Directive.ofFlags_eq_ok_iff`: the two directives, and when they are
  made;
* `Directive.error_of_ofSpec`: an entry of checked settings fails only of the name of its page;
* `Directive.Exact`: a directive in the spelling that everything after it goes by;
* `Diagram.Builder.build_of_other_style`: what a style in any other spelling draws.
-/

namespace ApiDiagrams

/-- The name of the entity on whose page a diagram stands, or none. -/
def Run.IsPage (current : String) : Prop := current = "" ∨ Validation.IsDotted current

/-- An entry that says which diagram of what and, if at all, properly on whose page. -/
structure GraphSpec.Named (g : GraphSpec) : Prop where
  kind : ∃ k, Diagram.Kind.parse g.kind = .ok k
  targets : g.targets ≠ []
  current : Run.IsPage g.current

/-- What an entry names depends on the kind that its text is read as. -/
theorem GraphSpec.named_congr {g g' : GraphSpec}
    (hkind : ∀ k, Diagram.Kind.parse g'.kind = .ok k ↔ Diagram.Kind.parse g.kind = .ok k)
    (htargets : g'.targets = g.targets) (hcurrent : g'.current = g.current) :
    g'.Named ↔ g.Named := by
  constructor
  · rintro ⟨⟨k, hk⟩, ht, hp⟩
    exact ⟨⟨k, (hkind k).1 hk⟩, htargets ▸ ht, hcurrent ▸ hp⟩
  · rintro ⟨⟨k, hk⟩, ht, hp⟩
    exact ⟨⟨k, (hkind k).2 hk⟩, htargets ▸ ht, hcurrent ▸ hp⟩

theorem GraphSpec.Accepted.named_iff {g : GraphSpec} (h : g.Accepted) :
    g.Named ↔ Run.IsPage g.current :=
  ⟨fun hg => hg.current, fun hcurrent => ⟨h.kind, h.targets, hcurrent⟩⟩

namespace Run
namespace Directive

variable {d : Directive} {g : GraphSpec} {f : Fault}

theorem check_eq_ok_iff :
    d.check = .ok () ↔ d.spec.Named ∧ Validation.IsDirection d.options.dir := by
  unfold check
  rw [bind_eq_ok_iff]
  constructor
  · rintro ⟨k, hkind, h⟩
    split_ifs at h with htargets hcurrent
    · obtain ⟨⟨⟩, hname, h⟩ := bind_eq_ok_iff.1 h
      exact ⟨⟨⟨k, hkind⟩, mt List.isEmpty_iff.2 htargets,
        Or.inr (Validation.checkName_ofString_eq_ok_iff.1 hname)⟩,
        Validation.checkDirection_eq_ok_iff.1 h⟩
    · exact ⟨⟨⟨k, hkind⟩, mt List.isEmpty_iff.2 htargets, Or.inl (not_not.1 hcurrent)⟩,
        Validation.checkDirection_eq_ok_iff.1 h⟩
  · rintro ⟨⟨⟨k, hkind⟩, htargets, hcurrent⟩, hdir⟩
    have hnonempty : ¬ d.targets.isEmpty = true := mt List.isEmpty_iff.1 htargets
    refine ⟨k, hkind, ?_⟩
    rw [if_neg hnonempty]
    by_cases hnone : d.current = ""
    · rw [if_neg (not_not.2 hnone)]
      exact Validation.checkDirection_eq_ok_iff.2 hdir
    · have hname : Validation.IsDotted d.current := hcurrent.resolve_left hnone
      rw [if_pos hnone]
      exact bind_eq_ok_iff.2 ⟨(), Validation.checkName_ofString_eq_ok_iff.2 hname,
        Validation.checkDirection_eq_ok_iff.2 hdir⟩

/-- A directive that is all right but for the name of its page fails the check with what is wrong
with that name. -/
theorem error_of_check (hkind : ∃ k, Diagram.Kind.parse d.kind = .ok k) (htargets : d.targets ≠ [])
    (hdir : Validation.IsDirection d.options.dir) (h : d.check = .error f) :
    Validation.checkName (Text.Raw.ofString d.current) = .error f := by
  obtain ⟨k, hk⟩ := hkind
  unfold check at h
  rw [hk, Validation.checkDirection_eq_ok_iff.2 hdir] at h
  rcases bind_eq_error_iff.1 h with h | ⟨-, -, h⟩
  · cases h
  · rw [if_neg (mt List.isEmpty_iff.1 htargets)] at h
    split_ifs at h
    rcases bind_eq_error_iff.1 h with hname | ⟨⟨⟩, -, h⟩
    · exact hname
    · cases h

/-- The two ways to a directive differ in the directive that they check. -/
theorem checked_eq_ok_iff (of : Diagram.Kind → Directive) (hnamed : ∀ k,
      Diagram.Kind.parse g.kind = .ok k → ((of k).spec.Named ↔ g.Named)) :
    (do
      let d := of (← Diagram.Kind.parse g.kind)
      d.check
      return d : Except Fault Directive) = .ok d ↔
    ∃ k, Diagram.Kind.parse g.kind = .ok k ∧ g.Named ∧
      Validation.IsDirection (of k).options.dir ∧ d = of k := by
  rw [bind_eq_ok_iff]
  refine exists_congr fun k => and_congr_right fun hk => ?_
  rw [bind_eq_ok_iff]
  constructor
  · rintro ⟨⟨⟩, hcheck, h⟩
    cases h
    obtain ⟨hname, hdir⟩ := check_eq_ok_iff.1 hcheck
    exact ⟨(hnamed k hk).1 hname, hdir, rfl⟩
  · rintro ⟨hname, hdir, rfl⟩
    exact ⟨(), check_eq_ok_iff.2 ⟨(hnamed k hk).2 hname, hdir⟩, rfl⟩

/-- A kind that was read is spelled exactly, which changes nothing else. -/
theorem named_iff_of_parse (g' : GraphSpec) {k : Diagram.Kind}
    (hk : Diagram.Kind.parse g.kind = .ok k) (hkind : g'.kind = k.text)
    (htargets : g'.targets = g.targets) (hcurrent : g'.current = g.current) :
    g'.Named ↔ g.Named :=
  GraphSpec.named_congr (fun _ => by rw [hkind, Diagram.Kind.parse_text, hk]) htargets hcurrent

theorem ofSpec_eq_ok_iff : ofSpec g = .ok d ↔ ∃ k, Diagram.Kind.parse g.kind = .ok k ∧ g.Named ∧
    Validation.IsDirection (Text.upperText g.dir) ∧ d = ofKind k g :=
  checked_eq_ok_iff (ofKind · g) fun _ hk => named_iff_of_parse _ hk rfl rfl rfl

theorem ofFlags_eq_ok_iff : ofFlags g = .ok d ↔ ∃ k, Diagram.Kind.parse g.kind = .ok k ∧ g.Named ∧
    Validation.IsDirection g.dir ∧ d = verbatim { g with kind := k.text } :=
  checked_eq_ok_iff (fun k => verbatim { g with kind := k.text }) fun _ hk =>
    named_iff_of_parse _ hk rfl rfl rfl

/-- A directive is made for whatever names a diagram, if the rest is fine. -/
theorem exists_made_iff {P : Prop} (of : Diagram.Kind → Directive) :
    (∃ d k, Diagram.Kind.parse g.kind = .ok k ∧ g.Named ∧ P ∧ d = of k) ↔ g.Named ∧ P := by
  constructor
  · rintro ⟨d, k, -, hname, hp, -⟩
    exact ⟨hname, hp⟩
  · rintro ⟨hname, hp⟩
    obtain ⟨k, hk⟩ := hname.kind
    exact ⟨of k, k, hk, hname, hp, rfl⟩

theorem exists_ofSpec_iff :
    (∃ d, ofSpec g = .ok d) ↔ g.Named ∧ Validation.IsDirection (Text.upperText g.dir) := by
  simp only [ofSpec_eq_ok_iff]
  exact exists_made_iff (ofKind · g)

theorem exists_ofFlags_iff :
    (∃ d, ofFlags g = .ok d) ↔ g.Named ∧ Validation.IsDirection g.dir := by
  simp only [ofFlags_eq_ok_iff]
  exact exists_made_iff fun k => verbatim { g with kind := k.text }

/-- An entry that settings may have fails, as a directive, only of the name of its page. -/
theorem error_of_ofSpec (h : g.Accepted) (hf : ofSpec g = .error f) :
    Validation.checkName (Text.Raw.ofString g.current) = .error f := by
  unfold ofSpec at hf
  rw [bind_eq_error_iff] at hf
  rcases hf with hf | ⟨k, -, hf⟩
  · obtain ⟨k, hk⟩ := h.kind
    rw [hk] at hf
    cases hf
  · rw [bind_eq_error_iff] at hf
    rcases hf with hf | ⟨-, -, hf⟩
    · exact error_of_check (d := ofKind k g) ⟨k, Diagram.Kind.parse_text k⟩ h.targets h.dir hf
    · cases hf

/-- A directive in the spelling that everything after it goes by. -/
structure Exact (d : Directive) : Prop where
  kind : ∃ k : Diagram.Kind, d.kind = k.text
  dir : Validation.IsDirection d.options.dir
  style : d.options.style ∈ Diagram.styles

theorem exact_of_ofSpec (h : g.Accepted) (hd : ofSpec g = .ok d) : d.Exact := by
  obtain ⟨k, -, -, hdir, rfl⟩ := ofSpec_eq_ok_iff.1 hd
  exact ⟨⟨k, rfl⟩, hdir, h.style⟩

theorem check_of_ofSpec (hd : ofSpec g = .ok d) : d.check = .ok () := by
  obtain ⟨k, hk, hname, hdir, rfl⟩ := ofSpec_eq_ok_iff.1 hd
  have hnamed : (ofKind k g).spec.Named :=
    (named_iff_of_parse (ofKind k g).spec hk rfl rfl rfl).2 hname
  exact check_eq_ok_iff.2 ⟨hnamed, hdir⟩

end Directive
end Run

/-! ### Styles in other letters -/

namespace Diagram
namespace Builder

variable {b : Builder} {targets : List EntityId} {opts : Options} {c : Dot.Context}

/-- A style that is none, and no style in its exact letters, draws the tree of icons. -/
theorem buildKind_of_other_style (h : opts.style ∉ styles) (k : Kind) :
    b.buildKind k targets opts c = b.buildKind k targets { opts with style := treeStyle } c := by
  simp only [styles, List.mem_cons, List.not_mem_nil, or_false, not_or] at h
  obtain ⟨hnone, huml, -⟩ := h
  have htree : treeStyle ≠ "" ∧ treeStyle ≠ umlStyle := by decide
  cases k with
  | packageTree =>
    unfold buildKind packageTree
    simp only [hnone, huml, htree.1, htree.2, decide_false, Bool.or_self, Bool.false_and,
      Bool.false_eq_true, if_false]
    rfl
  | classTree => rfl
  | importGraph => rfl
  | callGraph => rfl

theorem build_of_other_style (h : opts.style ∉ styles) (kind : String) :
    b.build kind targets opts c = b.build kind targets { opts with style := treeStyle } c := by
  unfold build
  cases Kind.ofText? kind with
  | none => rfl
  | some k =>
    dsimp only
    rw [buildKind_of_other_style h k]

end Builder
end Diagram
end ApiDiagrams
