import ApiDiagrams.Pages
import ApiDiagrams.Proofs.Model.Consistency
import ApiDiagrams.Proofs.Text.Ascii

/-!
# Which names have pages

Modules and classes have pages of their own, and what lies directly in one of them has an anchor on
its page. Nothing else has a page. A page tells what it is about: no name has a hyphen or a hash
sign in it, so the name of a page ends at its first hyphen, and an anchor is one more identifier.

* `Pages.ending?`, `Pages.pageOf_eq_some_iff`: the page of an entity, without climbing further than
  to what it lies in;
* `Pages.documented`, `Pages.documented_pageOf`: reading a page back as the name that it is about;
* `Pages.urlFor_unambiguous`: which names have addresses, which ones, and that they differ.
-/

namespace ApiDiagrams

namespace Text

theorem cutAt_append {sep : Char} {before : List Char} (h : sep ∉ before) (after : List Char) :
    cutAt sep (before ++ sep :: after) = some (before, after) := by
  induction before with
  | nil => simp [cutAt]
  | cons c before ih =>
    rw [List.mem_cons, not_or] at h
    simp [cutAt, Ne.symm h.1, ih h.2]

theorem cutAt_eq_none {sep : Char} {text : List Char} (h : sep ∉ text) :
    cutAt sep text = none := by
  induction text with
  | nil => rfl
  | cons c text ih =>
    rw [List.mem_cons, not_or] at h
    simp [cutAt, Ne.symm h.1, ih h.2]

end Text

namespace Pages

/-! ### The page of an entity -/

/-- What stands behind the name in the page of an entity that has one of its own. -/
def ending? : EntityKind → Option String
  | .module => some "-module.html"
  | .classType => some "-class.html"
  | .routine | .variable => none

section PageFrom

variable {ix : Index} {e : Entity} {fuel : ℕ} {page ending : String}

theorem pageFrom_of_ending (h : ending? e.kind = some ending) :
    pageFrom ix fuel e = some (e.name.text ++ ending) := by
  unfold pageFrom
  cases hkind : e.kind <;> rw [hkind] at h <;> cases h <;> rfl

theorem pageFrom_zero (h : ending? e.kind = none) : pageFrom ix 0 e = none := by
  cases hkind : e.kind <;> simp only [hkind, ending?, reduceCtorEq] at h
  all_goals simp [pageFrom, hkind]

theorem pageFrom_succ (h : ending? e.kind = none) : pageFrom ix (fuel + 1) e =
    (ix.get e.name.parent).bind fun p => (pageFrom ix fuel (ix.entity p)).bind fun page =>
      if '#' ∈ page.toList then none else some (page ++ "#" ++ e.name.last) := by
  cases hkind : e.kind <;> simp only [hkind, ending?, reduceCtorEq] at h
  all_goals
    rw [pageFrom.eq_def]
    dsimp only
    rw [hkind]
    cases ix.get e.name.parent with
    | none => rfl
    | some p => cases hpage : pageFrom ix fuel (ix.entity p) <;> simp [hpage]

/-- Whatever has no page of its own is found at an anchor. -/
theorem sharp_mem_of_pageFrom (h : ending? e.kind = none) (hpage : pageFrom ix fuel e = some page) :
    '#' ∈ page.toList := by
  cases fuel with
  | zero =>
    rw [pageFrom_zero h] at hpage
    cases hpage
  | succ fuel =>
    rw [pageFrom_succ h] at hpage
    obtain ⟨p, -, hpage⟩ := Option.bind_eq_some_iff.1 hpage
    obtain ⟨page', -, hpage⟩ := Option.bind_eq_some_iff.1 hpage
    split_ifs at hpage
    rw [← Option.some.inj hpage]
    simp

/-- An anchor is one on a page of its own. -/
theorem pageFrom_succ_eq_some_iff (h : ending? e.kind = none)
    (hnames : ∀ p, ix.get e.name.parent = some p → '#' ∉ (ix.nameOf p).text.toList) :
    pageFrom ix (fuel + 1) e = some page ↔ ∃ p ending, ix.get e.name.parent = some p ∧
      ending? (ix.entity p).kind = some ending ∧
      page = (ix.nameOf p).text ++ ending ++ "#" ++ e.name.last := by
  have hsharp : ∀ kind ending, ending? kind = some ending → '#' ∉ ending.toList := by
    intro kind ending hending
    cases kind <;> cases hending <;> decide
  rw [pageFrom_succ h, Option.bind_eq_some_iff]
  refine exists_congr fun p => ?_
  rw [exists_and_left, and_congr_right_iff]
  intro hp
  cases hending : ending? (ix.entity p).kind with
  | none =>
    -- the page of what it lies in is an anchor itself, if there is one
    cases hpage : pageFrom ix fuel (ix.entity p) with
    | none => simp
    | some page' => simp [sharp_mem_of_pageFrom hending hpage]
  | some ending =>
    have hfree : '#' ∉ ((ix.entity p).name.text ++ ending).toList := by
      rw [String.toList_append, List.mem_append, not_or]
      exact ⟨hnames p hp, hsharp _ _ hending⟩
    rw [pageFrom_of_ending hending, Option.bind_some, if_neg hfree]
    simp [Index.nameOf, eq_comm]

end PageFrom

/-! ### The pages of a built index -/

variable {m : Model} {n page : String}

theorem get_eq_some_iff_place (h : m.Valid) {name : Name} {i : EntityId} :
    m.index.get name = some i ↔ name.text ∈ m.names ∧ m.place name.text = i :=
  Model.lookup_eq_some_iff_place h

theorem name_place (h : m.Valid) (hn : n ∈ m.names) :
    (m.index.entity (m.place n)).name = Name.parse n := Model.nameOf_place h hn

theorem not_mem_of_mem_names (h : m.Valid) (hn : n ∈ m.names) : '-' ∉ n.toList ∧ '#' ∉ n.toList := by
  have hword := fun c => (Model.isDotted_of_mem_names h hn).isWord_or_dot (c := c)
  exact ⟨fun hmem => absurd (hword '-' hmem) (by decide),
    fun hmem => absurd (hword '#' hmem) (by decide)⟩

/-- A page is one of its own, or an anchor on the page of what the entity lies in. -/
theorem pageOf_eq_some_iff (h : m.Valid) (hn : n ∈ m.names) :
    pageOf m.index (m.place n) = some page ↔
      (∃ ending, ending? (m.index.entity (m.place n)).kind = some ending ∧ page = n ++ ending) ∨
      ending? (m.index.entity (m.place n)).kind = none ∧ ∃ p ending,
        (Name.parse n).parent.text = p ∧ p ∈ m.names ∧
        ending? (m.index.entity (m.place p)).kind = some ending ∧
        page = p ++ ending ++ "#" ++ (Name.parse n).last := by
  unfold pageOf
  cases hending : ending? (m.index.entity (m.place n)).kind with
  | some ending =>
    rw [pageFrom_of_ending hending, name_place h hn, Name.text_parse]
    simp [eq_comm]
  | none =>
    have hne := Name.parts_parse_ne_nil (Model.isDotted_of_mem_names h hn).ne_empty
    obtain ⟨fuel, hfuel⟩ := Nat.exists_eq_add_one.2 (List.length_pos_iff.2 hne)
    have hget : ∀ p, m.index.get (Name.parse n).parent = some p →
        (Name.parse n).parent.text ∈ m.names ∧ m.place (Name.parse n).parent.text = p ∧
          (m.index.nameOf p).text = (Name.parse n).parent.text := by
      intro p hp
      obtain ⟨hmem, rfl⟩ := (get_eq_some_iff_place h).1 hp
      exact ⟨hmem, rfl, by rw [Model.nameOf_place h hmem, Name.text_parse]⟩
    rw [Model.nameOf_place h hn, hfuel, pageFrom_succ_eq_some_iff hending, name_place h hn]
    · constructor
      · rintro ⟨p, ending, hp, hkind, rfl⟩
        obtain ⟨hmem, rfl, htext⟩ := hget p hp
        exact Or.inr ⟨rfl, _, ending, rfl, hmem, hkind, by rw [htext]⟩
      · rintro (⟨_, hsome, -⟩ | ⟨-, p, ending, rfl, hmem, hkind, rfl⟩)
        · cases hsome
        · have hp := (get_eq_some_iff_place h).2 ⟨hmem, rfl⟩
          exact ⟨_, ending, hp, hkind, by rw [(hget _ hp).2.2]⟩
    · rw [name_place h hn]
      intro p hp
      obtain ⟨hmem, -, htext⟩ := hget p hp
      rw [htext]
      exact (not_mem_of_mem_names h hmem).2

/-! ### Reading a page back -/

/-- The name that a page is about: what stands before the first hyphen, with an anchor as one more
identifier. -/
def documented (page : List Char) : List Char :=
  match Text.cutAt '#' page with
  | some (_, anchor) => page.takeWhile (· ≠ '-') ++ '.' :: anchor
  | none => page.takeWhile (· ≠ '-')

theorem takeWhile_ending {kind : EntityKind} {ending : String} {name : List Char}
    (hname : '-' ∉ name) (h : ending? kind = some ending) (rest : List Char) :
    (name ++ ending.toList ++ rest).takeWhile (· ≠ '-') = name := by
  have hall : ∀ c ∈ name, decide (c ≠ '-') = true := by
    intro c hc
    exact decide_eq_true fun heq => hname (heq ▸ hc)
  have hhead : ∃ tail, ending.toList = '-' :: tail := by
    cases kind <;> cases h <;> exact ⟨_, rfl⟩
  obtain ⟨tail, htail⟩ := hhead
  rw [List.append_assoc, List.takeWhile_append_of_pos hall, htail, List.cons_append,
    List.takeWhile_cons_of_neg (by simp), List.append_nil]

/-- Every page is about the name that leads to it. -/
theorem documented_pageOf (h : m.Valid) (hn : n ∈ m.names)
    (hpage : pageOf m.index (m.place n) = some page) : documented page.toList = n.toList := by
  have hsharp : ∀ kind ending, ending? kind = some ending → '#' ∉ ending.toList := by
    intro kind ending hending
    cases kind <;> cases hending <;> decide
  rcases (pageOf_eq_some_iff h hn).1 hpage with
    ⟨ending, hending, rfl⟩ | ⟨-, p, ending, hp, hmem, hending, rfl⟩
  · obtain ⟨hhyphen, hfree⟩ := not_mem_of_mem_names h hn
    have hcut : Text.cutAt '#' (n.toList ++ ending.toList) = none :=
      Text.cutAt_eq_none (by simpa [not_or] using ⟨hfree, hsharp _ _ hending⟩)
    have htake := takeWhile_ending hhyphen hending []
    rw [List.append_nil] at htake
    rw [documented, String.toList_append, hcut, htake]
  · obtain ⟨hhyphen, hfree⟩ := not_mem_of_mem_names h hmem
    have hne : (Name.parse n).parent.text ≠ "" := by
      rw [hp]
      exact (Model.isDotted_of_mem_names h hmem).ne_empty
    have hname := Name.text_eq_parent_last hne
    rw [Name.text_parse, hp] at hname
    have hcut : Text.cutAt '#' (p.toList ++ ending.toList ++ '#' :: (Name.parse n).last.toList) =
        some (p.toList ++ ending.toList, (Name.parse n).last.toList) :=
      Text.cutAt_append (by simpa [not_or] using ⟨hfree, hsharp _ _ hending⟩) _
    have hpage : (p ++ ending ++ "#" ++ (Name.parse n).last).toList =
        p.toList ++ ending.toList ++ '#' :: (Name.parse n).last.toList := by simp
    rw [hpage, documented, hcut]
    dsimp only
    rw [takeWhile_ending hhyphen hending]
    conv_rhs => rw [hname]
    simp

/-! ### Addresses -/

variable {base name : String}

theorem urlFor_eq_some_iff (h : m.Valid) {url : String} : urlFor m.index base name = some url ↔
    name ∈ m.names ∧ ∃ page, pageOf m.index (m.place name) = some page ∧ url = base ++ page := by
  unfold urlFor
  rw [Option.bind_eq_bind, Option.bind_eq_some_iff]
  constructor
  · rintro ⟨i, hi, hurl⟩
    obtain ⟨hn, rfl⟩ := (Model.lookup_eq_some_iff_place h).1 hi
    obtain ⟨page, hpage, hurl⟩ := Option.bind_eq_some_iff.1 hurl
    exact ⟨hn, page, hpage, (Option.some.inj hurl).symm⟩
  · rintro ⟨hn, page, hpage, rfl⟩
    refine ⟨_, (Model.lookup_eq_some_iff_place h).2 ⟨hn, rfl⟩, ?_⟩
    rw [hpage]
    rfl

theorem urlFor_of_ending (h : m.Valid) (hn : n ∈ m.names) {ending : String}
    (hending : ending? (m.index.entity (m.place n)).kind = some ending) :
    urlFor m.index base n = some (base ++ n ++ ending) := by
  have hpage := (pageOf_eq_some_iff h hn).2 (Or.inl ⟨ending, hending, rfl⟩)
  exact (urlFor_eq_some_iff h).2 ⟨hn, _, hpage, String.append_assoc⟩

theorem urlFor_of_anchor (h : m.Valid) (hn : n ∈ m.names)
    (hkind : ending? (m.index.entity (m.place n)).kind = none)
    (hp : (Name.parse n).parent.text ∈ m.names) {ending : String}
    (hending : ending? (m.index.entity (m.place (Name.parse n).parent.text)).kind = some ending) :
    urlFor m.index base n = some (base ++ (Name.parse n).parent.text ++ ending ++ "#" ++
      (Name.parse n).last) := by
  have hpage := (pageOf_eq_some_iff h hn).2 (Or.inr ⟨hkind, _, ending, rfl, hp, hending, rfl⟩)
  exact (urlFor_eq_some_iff h).2 ⟨hn, _, hpage, by simp only [String.append_assoc]⟩

/-- The name is that of a module or a class. -/
def HasPage (ix : Index) (name : String) : Prop :=
  ∃ i, ix.lookup name = some i ∧
    ((ix.entity i).kind = .module ∨ (ix.entity i).kind = .classType)

theorem hasPage_iff (h : m.Valid) : HasPage m.index name ↔
    name ∈ m.names ∧ ∃ ending, ending? (m.index.entity (m.place name)).kind = some ending := by
  have hkind : ∀ kind, (∃ ending, ending? kind = some ending) ↔
      kind = .module ∨ kind = .classType := by
    intro kind
    cases kind <;> simp [ending?]
  simp only [HasPage, Model.lookup_eq_some_iff_place h, hkind]
  constructor
  · rintro ⟨i, ⟨hn, rfl⟩, hk⟩
    exact ⟨hn, hk⟩
  · rintro ⟨hn, hk⟩
    exact ⟨_, ⟨hn, rfl⟩, hk⟩

/-- Names have addresses exactly when they are those of modules and classes or lie directly in one:
in the first case that of a page, in the second that of an anchor on it. No two names have the same
address. -/
theorem urlFor_unambiguous (m : Model) (ix : Index) (h : m.build = .ok ix) (base : String) :
    (∀ name, (∃ url, urlFor ix base name = some url) ↔ (∃ i, ix.lookup name = some i) ∧
      (HasPage ix name ∨ HasPage ix (Name.parse name).parent.text)) ∧
    (∀ name i, ix.lookup name = some i →
      ((ix.entity i).kind = .module →
        urlFor ix base name = some (base ++ name ++ "-module.html")) ∧
      ((ix.entity i).kind = .classType →
        urlFor ix base name = some (base ++ name ++ "-class.html")) ∧
      (¬ HasPage ix name → HasPage ix (Name.parse name).parent.text →
        ∃ page, urlFor ix base (Name.parse name).parent.text = some page ∧
          urlFor ix base name = some (page ++ "#" ++ (Name.parse name).last))) ∧
    ∀ name other url, urlFor ix base name = some url → urlFor ix base other = some url →
      name = other := by
  obtain ⟨hv, rfl⟩ := Model.build_eq_ok_iff.1 h
  refine ⟨fun name => ?_, fun name i hi => ?_, fun name other url hname hother => ?_⟩
  · simp only [hasPage_iff hv, Model.lookup_eq_some_iff_place hv, exists_and_left]
    constructor
    · rintro ⟨url, hurl⟩
      obtain ⟨hn, page, hpage, -⟩ := (urlFor_eq_some_iff hv).1 hurl
      refine ⟨⟨hn, _, rfl⟩, ?_⟩
      rcases (pageOf_eq_some_iff hv hn).1 hpage with
        ⟨ending, hending, -⟩ | ⟨-, p, ending, rfl, hmem, hending, -⟩
      · exact Or.inl ⟨hn, ending, hending⟩
      · exact Or.inr ⟨hmem, ending, hending⟩
    · rintro ⟨⟨hn, -⟩, ⟨-, ending, hending⟩ | ⟨hmem, ending, hending⟩⟩
      · exact ⟨_, urlFor_of_ending hv hn hending⟩
      · cases hkind : ending? (m.index.entity (m.place name)).kind with
        | some ending' => exact ⟨_, urlFor_of_ending hv hn hkind⟩
        | none => exact ⟨_, urlFor_of_anchor hv hn hkind hmem hending⟩
  · obtain ⟨hn, rfl⟩ := (Model.lookup_eq_some_iff_place hv).1 hi
    refine ⟨fun hkind => ?_, fun hkind => ?_, fun hno hparent => ?_⟩
    · exact urlFor_of_ending hv hn (by rw [hkind]; rfl)
    · exact urlFor_of_ending hv hn (by rw [hkind]; rfl)
    · obtain ⟨hmem, ending, hending⟩ := (hasPage_iff hv).1 hparent
      have hkind : ending? (m.index.entity (m.place name)).kind = none := by
        rw [Option.eq_none_iff_forall_ne_some]
        exact fun ending' hsome => hno ((hasPage_iff hv).2 ⟨hn, ending', hsome⟩)
      exact ⟨_, urlFor_of_ending hv hmem hending, urlFor_of_anchor hv hn hkind hmem hending⟩
  · obtain ⟨hn, page, hpage, rfl⟩ := (urlFor_eq_some_iff hv).1 hname
    obtain ⟨ho, page', hpage', hsame⟩ := (urlFor_eq_some_iff hv).1 hother
    -- the base is the same, and the page tells the name
    obtain rfl : page = page' := by simpa [← String.toList_inj] using hsame
    rw [← String.toList_inj, ← documented_pageOf hv hn hpage, documented_pageOf hv ho hpage']

theorem urlFor_unambiguous_of_sample : Model.sample.build = .ok Model.sample.index ∧
    urlFor Model.sample.index "../api/" "p.f" = some "../api/p-module.html#f" ∧
    ∀ other, urlFor Model.sample.index "../api/" other = some "../api/p-module.html#f" →
      other = "p.f" := by
  have hbuild : Model.sample.build = .ok Model.sample.index := by decide +kernel
  have hurl : urlFor Model.sample.index "../api/" "p.f" = some "../api/p-module.html#f" := by
    decide +kernel
  obtain ⟨-, -, hsame⟩ := urlFor_unambiguous Model.sample Model.sample.index hbuild "../api/"
  exact ⟨hbuild, hurl, fun other hother => hsame other "p.f" _ hother hurl⟩

end Pages
end ApiDiagrams
