import ApiDiagrams.Proofs.Files.Tree

/-!
# Extensions of paths

The extension of a path is the last dot of its last component with what follows. Whatever the path
looks like, with dots in the names of directories, without an extension, or with nothing before its
dot, it can be cut before its last component and before its extension in one way only.

* `Path.Parts`, `Path.exists_parts`: a path that is cut so;
* `Path.Parts.extension_eq`, `Path.Parts.withoutExtension_eq`: there is only one such cut;
* `FileTree.placeOf_front`, `FileTree.advance_eq_concat_iff`: the place of the last component.
-/

namespace ApiDiagrams

theorem exists_last_mem {α : Type} [DecidableEq α] {a : α} {l : List α} (h : a ∈ l) :
    ∃ before after, l = before ++ a :: after ∧ a ∉ after := by
  obtain ⟨after, before, hl, hno⟩ := List.eq_append_cons_of_mem (List.mem_reverse.2 h)
  refine ⟨before.reverse, after.reverse, ?_, mt List.mem_reverse.1 hno⟩
  rw [← List.reverse_reverse l, hl]
  simp

namespace Path

/-! ### The parts of a path -/

/-- What may stand before the last component of a path. -/
def IsFront (front : String) : Prop := front = "" ∨ front.toList.getLast? = some '/'

/-- What may follow the dot of an extension. -/
structure IsEnding (ending : String) : Prop where
  no_dot : '.' ∉ ending.toList
  no_slash : '/' ∉ ending.toList

/-- A path, cut before its last component and before its extension. -/
structure Parts (path front stem ext : String) : Prop where
  text : path = front ++ stem ++ ext
  before : IsFront front
  no_slash : '/' ∉ stem.toList
  ending : ext = "" ∧ '.' ∉ stem.toList ∨ ∃ ending, ext = "." ++ ending ∧ IsEnding ending

variable {path front stem ext : String}

theorem exists_front (path : String) :
    ∃ front base, path = front ++ base ∧ IsFront front ∧ '/' ∉ base.toList := by
  by_cases h : '/' ∈ path.toList
  · obtain ⟨before, after, hpath, hno⟩ := exists_last_mem h
    refine ⟨String.ofList (before ++ ['/']), String.ofList after, ?_, Or.inr (by simp), ?_⟩
    · rw [← String.toList_inj, hpath]
      simp
    · simpa using hno
  · exact ⟨"", path, by simp, Or.inl rfl, h⟩

theorem exists_parts (path : String) : ∃ front stem ext, Parts path front stem ext := by
  obtain ⟨front, base, rfl, hfront, hslash⟩ := exists_front path
  by_cases h : '.' ∈ base.toList
  · obtain ⟨before, after, hbase, hno⟩ := exists_last_mem h
    rw [hbase, List.mem_append, List.mem_cons, not_or, not_or] at hslash
    refine ⟨front, String.ofList before, "." ++ String.ofList after, ?_, hfront, ?_, Or.inr
      ⟨String.ofList after, rfl, ⟨by simpa using hno, by simpa using hslash.2.2⟩⟩⟩
    · rw [← String.toList_inj, String.toList_append, hbase]
      simp
    · simpa using hslash.1
  · exact ⟨front, base, "", by simp, hfront, hslash, Or.inl ⟨rfl, h⟩⟩

namespace Parts

theorem slash_not_mem (h : Parts path front stem ext) : '/' ∉ (stem ++ ext).toList := by
  rw [String.toList_append, List.mem_append, not_or]
  refine ⟨h.no_slash, ?_⟩
  rcases h.ending with ⟨rfl, -⟩ | ⟨ending, rfl, hending⟩
  · exact List.not_mem_nil
  · simpa using hending.no_slash

theorem baseChars_eq (h : Parts path front stem ext) : baseChars path = (stem ++ ext).toList := by
  rw [h.text, String.append_assoc]
  exact baseChars_append h.slash_not_mem h.before

theorem extension_eq (h : Parts path front stem ext) : extension path = ext := by
  unfold extension
  rw [h.baseChars_eq]
  rcases h.ending with ⟨rfl, hdot⟩ | ⟨ending, rfl, hending⟩
  · exact if_neg (by simpa using hdot)
  · have hyes : (stem ++ ("." ++ ending)).toList.contains '.' = true := by simp
    have hall : ∀ c ∈ ending.toList.reverse, decide (c ≠ '.') = true := by
      intro c hc
      rw [decide_eq_true_eq]
      rintro rfl
      exact hending.no_dot (List.mem_reverse.1 hc)
    have hreverse : (stem ++ ("." ++ ending)).toList.reverse =
        ending.toList.reverse ++ '.' :: stem.toList.reverse := by simp
    rw [if_pos hyes, hreverse, List.takeWhile_append_of_pos hall]
    simp

theorem withoutExtension_eq (h : Parts path front stem ext) :
    withoutExtension path = front ++ stem := by
  unfold withoutExtension
  rw [h.extension_eq, h.text, String.toList_append, List.length_append, Nat.add_sub_cancel,
    List.take_left, String.ofList_toList]

end Parts

/-! ### Names below a path -/

theorem IsFront.components_append (hfront : IsFront front) {name : String} (hn : IsPiece name) :
    components (front ++ name) = components front ++ [name] := by
  rcases hfront with rfl | hf
  · simp [hn.components]
  · obtain ⟨before, hbefore⟩ := List.getLast?_eq_some_iff.1 hf
    obtain rfl : front = String.ofList before ++ "/" := by
      rw [← String.toList_inj, hbefore]
      simp
    have hempty := Path.components_append (String.ofList before) ""
    rw [String.append_empty, components_empty, List.append_nil] at hempty
    rw [Path.components_append, hempty, hn.components]

theorem isAbsolute_append_piece {name : String} (hn : IsPiece name) (front : String) :
    isAbsolute (front ++ name) = isAbsolute front := by
  by_cases hfront : front = ""
  · rw [hfront, String.empty_append, hn.isAbsolute]
    rfl
  · exact isAbsolute_append hfront name

end Path

namespace FileTree

variable {front name : String}

theorem placeOf_front (hf : Path.IsFront front) (hn : Path.IsPiece name) :
    placeOf (front ++ name) = advance (placeOf front) name := by
  rw [placeOf_eq, placeOf_eq, hf.components_append hn, List.foldl_append, origin, origin,
    Path.isAbsolute_append_piece hn]
  rfl

theorem advance_name (p : Place) (hn : Path.IsName name) : advance p name = p ++ [name] := by
  rw [advance, if_neg hn.ne_dot, if_neg hn.ne_dots]

/-- No step other than to the name itself leads to a place that is named so. -/
theorem advance_eq_concat_iff {p : Place} {step : String} (hn : Path.IsName name) :
    advance p step = p ++ [name] ↔ step = name := by
  constructor
  · intro h
    unfold advance at h
    split_ifs at h with hdot hdots hroot hall
    · simpa using congrArg List.length h
    · simpa using congrArg List.length h
    · -- above the working directory there are only dots
      have hmem : name ∈ ".." :: p := by simp [h]
      rcases List.mem_cons.1 hmem with heq | hmem
      · exact absurd heq hn.ne_dots
      · exact absurd (by simpa using List.all_eq_true.1 hall name hmem) hn.ne_dots
    · have hlength := congrArg List.length h
      simp at hlength
    · simpa using h
  · rintro rfl
    exact advance_name p hn

end FileTree

end ApiDiagrams
