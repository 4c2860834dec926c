import ApiDiagrams.Dot.Link
import ApiDiagrams.Proofs.Dot.Attributes
import ApiDiagrams.Proofs.Text.Ascii

/-!
# Linked graphs

Linking goes through a body once, from left to right, and what it puts in or leaves out joins the
texts on both sides. A text is cut into the `href`s that are linked and the characters between them,
and from the cut one can read what the linked body still holds.

* `IsOpening`, `IsBracketed`, `IsCore`, `IsHref`: the texts that are linked, and
  `bodyHref?_eq_some_iff`;
* `Attrs.IsLinked`: attributes without a placeholder;
* `Cut`: a text in pieces, and `exists_cut`: linking is done piece by piece;
* `stretches`: the texts between the addresses of a linked body;
* `mentions_joined_iff`: where a linked body still has something to link;
* `Graph.link_resolves`: what linking does to a graph.
-/

namespace ApiDiagrams

namespace Text

theorem append_of_span {p : Char → Bool} {text run after : List Char}
    (h : span p text = (run, after)) : run ++ after = text := by
  induction text generalizing run after with
  | nil =>
    obtain ⟨rfl, rfl⟩ := Prod.mk.inj h
    rfl
  | cons c rest ih =>
    by_cases hc : p c = true
    · simp only [span, if_pos hc] at h
      obtain ⟨rfl, rfl⟩ := Prod.mk.inj h
      simp [ih rfl]
    · simp only [span, if_neg hc] at h
      obtain ⟨rfl, rfl⟩ := Prod.mk.inj h
      rfl

theorem forall_of_span {p : Char → Bool} {text run after : List Char}
    (h : span p text = (run, after)) : ∀ c ∈ run, p c = true := by
  induction text generalizing run after with
  | nil =>
    obtain ⟨rfl, rfl⟩ := Prod.mk.inj h
    exact fun c hc => nomatch hc
  | cons c rest ih =>
    by_cases hc : p c = true
    · simp only [span, if_pos hc] at h
      obtain ⟨rfl, rfl⟩ := Prod.mk.inj h
      intro d hd
      rcases List.mem_cons.1 hd with rfl | hd
      · exact hc
      · exact ih rfl d hd
    · simp only [span, if_neg hc] at h
      obtain ⟨rfl, rfl⟩ := Prod.mk.inj h
      exact fun c hc => nomatch hc

end Text

namespace Dot

/-! ### The texts that are linked -/

def IsBlank (text : List Char) : Prop := ∀ c ∈ text, Text.isAsciiBlank c = true

/-- A quote of either kind, or nothing. -/
def IsQuote (text : List Char) : Prop := text = [] ∨ text = ['\''] ∨ text = ['"']

/-- The word `href` and an equals sign, with blanks behind either. -/
def IsOpening (text : List Char) : Prop :=
  ∃ b b', IsBlank b ∧ IsBlank b' ∧ text = "href".toList ++ b ++ '=' :: b'

/-- A name between angle brackets. -/
def IsBracketed (text name : List Char) : Prop :=
  name ≠ [] ∧ (∀ c ∈ name, isNameChar c = true) ∧ text = '<' :: (name ++ ['>'])

/-- An `href` whose value is a placeholder, up to the closing bracket. -/
def IsCore (text name : List Char) : Prop :=
  ∃ o q p, IsOpening o ∧ IsQuote q ∧ IsBracketed p name ∧ text = o ++ q ++ p

/-- What is taken along behind the bracket: a quote, blanks and a comma. -/
def IsTail (text : List Char) (comma : Bool) : Prop :=
  ∃ q b, IsQuote q ∧ IsBlank b ∧ text = q ++ b ++ if comma then [','] else []

/-- A text that is linked, with its name and whether a comma belongs to it. -/
def IsHref (text name : List Char) (comma : Bool) : Prop :=
  ∃ core tail, IsCore core name ∧ IsTail tail comma ∧ text = core ++ tail

/-- There is something to link somewhere in the text. -/
def Mentions (text : List Char) : Prop :=
  ∃ before occ after name comma, IsHref occ name comma ∧ text = before ++ occ ++ after

theorem IsCore.isHref {core name : List Char} (h : IsCore core name) : IsHref core name false :=
  ⟨core, [], h, ⟨[], [], .inl rfl, nofun, rfl⟩, (List.append_nil _).symm⟩

/-- It is enough to look for an `href` up to the closing bracket. -/
theorem mentions_iff {text : List Char} :
    Mentions text ↔ ∃ before core after name, IsCore core name ∧ text = before ++ core ++ after := by
  constructor
  · rintro ⟨before, _, after, name, comma, ⟨core, tail, hcore, -, rfl⟩, rfl⟩
    exact ⟨before, core, tail ++ after, name, hcore, by simp only [List.append_assoc]⟩
  · rintro ⟨before, core, after, name, hcore, rfl⟩
    exact ⟨before, core, after, name, false, hcore.isHref, rfl⟩

theorem Mentions.append_left {text : List Char} (h : Mentions text) (front : List Char) :
    Mentions (front ++ text) := by
  obtain ⟨before, occ, after, name, comma, hocc, rfl⟩ := h
  exact ⟨front ++ before, occ, after, name, comma, hocc, by simp only [List.append_assoc]⟩

theorem Mentions.append_right {text : List Char} (h : Mentions text) (back : List Char) :
    Mentions (text ++ back) := by
  obtain ⟨before, occ, after, name, comma, hocc, rfl⟩ := h
  exact ⟨before, occ, after ++ back, name, comma, hocc, by simp only [List.append_assoc]⟩

/-! ### Reading them -/

theorem dropWhile_blanks {b rest : List Char} (h : IsBlank b) :
    (b ++ rest).dropWhile Text.isAsciiBlank = rest.dropWhile Text.isAsciiBlank :=
  List.dropWhile_append_of_pos h

theorem bracketedName?_eq_some_iff {text name after : List Char} :
    bracketedName? text = some (name, after) ↔ ∃ p, IsBracketed p name ∧ text = p ++ after := by
  constructor
  · intro h
    unfold bracketedName? at h
    split at h
    · rename_i rest
      split at h
      · rename_i c run after' hspan
        obtain ⟨rfl, rfl⟩ := Prod.mk.inj (Option.some.inj h)
        refine ⟨_, ⟨List.cons_ne_nil _ _, Text.forall_of_span hspan, rfl⟩, ?_⟩
        rw [← Text.append_of_span hspan]
        simp
      · cases h
    · cases h
  · rintro ⟨_, ⟨hne, hname, rfl⟩, rfl⟩
    have hspan : Text.span isNameChar (name ++ '>' :: after) = (name, '>' :: after) :=
      Text.span_append hname fun c hc => by
        cases hc
        rfl
    obtain ⟨c, name, rfl⟩ := List.exists_cons_of_ne_nil hne
    rw [List.cons_append, List.append_assoc, List.singleton_append, bracketedName?, hspan]
    rfl

theorem placeholder?_eq_none_iff {value : String} :
    placeholder? value = none ↔ ∀ name, ¬ IsBracketed value.toList name := by
  unfold placeholder?
  constructor
  · intro h name hname
    rw [bracketedName?_eq_some_iff.2 ⟨_, hname, (List.append_nil _).symm⟩] at h
    cases h
  · intro h
    split
    · rename_i name hget
      obtain ⟨p, hp, heq⟩ := bracketedName?_eq_some_iff.1 hget
      rw [List.append_nil] at heq
      exact absurd (heq ▸ hp) (h name)
    · rfl

theorem exists_quote (text : List Char) : ∃ q, IsQuote q ∧ text = q ++ dropQuote text := by
  unfold dropQuote
  split
  · exact ⟨['\''], .inr (.inl rfl), rfl⟩
  · exact ⟨['"'], .inr (.inr rfl), rfl⟩
  · exact ⟨[], .inl rfl, rfl⟩

/-- The comma that is taken along behind the bracket, and what follows. -/
def hrefTail (rest : List Char) : Bool × List Char :=
  match (dropQuote rest).dropWhile Text.isAsciiBlank with
  | ',' :: after => (true, after)
  | after => (false, after)

theorem exists_isTail (rest : List Char) :
    ∃ tail, IsTail tail (hrefTail rest).1 ∧ rest = tail ++ (hrefTail rest).2 := by
  obtain ⟨q, hq, hrest⟩ := exists_quote rest
  have hblank : IsBlank ((dropQuote rest).takeWhile Text.isAsciiBlank) :=
    fun c hc => List.mem_takeWhile_imp hc
  have hsplit := List.takeWhile_append_dropWhile (p := Text.isAsciiBlank) (l := dropQuote rest)
  unfold hrefTail
  split
  · rename_i after hafter
    refine ⟨_, ⟨q, _, hq, hblank, rfl⟩, ?_⟩
    rw [hafter] at hsplit
    rw [if_pos rfl, List.append_assoc, List.append_assoc, List.singleton_append, hsplit]
    exact hrest
  · refine ⟨_, ⟨q, _, hq, hblank, rfl⟩, ?_⟩
    rw [if_neg Bool.false_ne_true, List.append_nil, List.append_assoc, hsplit]
    exact hrest

theorem length_hrefTail_le (rest : List Char) : (hrefTail rest).2.length ≤ rest.length := by
  obtain ⟨tail, -, h⟩ := exists_isTail rest
  have hlength := congrArg List.length h
  rw [List.length_append] at hlength
  omega

/-- Nothing longer could be taken along. -/
theorem length_hrefTail_append_le {tail : List Char} {comma : Bool} (h : IsTail tail comma)
    (after : List Char) : (hrefTail (tail ++ after)).2.length ≤ after.length := by
  obtain ⟨q, b, hq, hb, rfl⟩ := h
  -- the quote is dropped where there is one, and where there is none no quote is dropped, unless
  -- nothing at all is taken along
  have hmain : ∀ rest b, IsBlank b → dropQuote rest = b ++ ((if comma then [','] else []) ++ after) →
      (hrefTail rest).2.length ≤ after.length := by
    intro rest b hb hrest
    unfold hrefTail
    rw [hrest, dropWhile_blanks hb]
    cases comma with
    | true => exact le_rfl
    | false =>
      have hle := List.length_dropWhile_le Text.isAsciiBlank after
      split
      · rename_i after' hafter
        have hlength := congrArg List.length hafter
        rw [if_neg Bool.false_ne_true, List.nil_append, List.length_cons] at hlength
        dsimp only
        omega
      · exact hle
  simp only [List.append_assoc]
  rcases hq with rfl | rfl | rfl
  · cases b with
    | nil =>
      cases comma with
      | true => exact hmain _ [] hb rfl
      | false => exact length_hrefTail_le after
    | cons c b =>
      refine hmain _ (c :: b) hb ?_
      have hc := hb c List.mem_cons_self
      rw [List.nil_append, List.cons_append, dropQuote]
      · rintro rest heq
        cases heq
        cases hc
      · rintro rest heq
        cases heq
        cases hc
  · exact hmain _ b hb rfl
  · exact hmain _ b hb rfl

theorem bodyHref?_eq (text : List Char) : bodyHref? text =
    (Text.startsWith? "href".toList text).bind fun x =>
      (Text.startsWith? ['='] (x.dropWhile Text.isAsciiBlank)).bind fun y =>
        (bracketedName? (dropQuote (y.dropWhile Text.isAsciiBlank))).map fun found =>
          (found.1, hrefTail found.2) := by
  refine Option.bind_congr fun x _ => Option.bind_congr fun y _ => ?_
  rw [Option.map_eq_bind]
  refine Option.bind_congr fun found _ => ?_
  obtain ⟨name, rest⟩ := found
  simp only [Function.comp_apply, hrefTail]
  rcases (dropQuote rest).dropWhile Text.isAsciiBlank with _ | ⟨c, behind⟩
  · rfl
  · by_cases hcomma : c = ','
    · subst hcomma
      rfl
    · simp [hcomma]

theorem bodyHref?_core {core name : List Char} (h : IsCore core name) (rest : List Char) :
    bodyHref? (core ++ rest) = some (name, hrefTail rest) := by
  obtain ⟨_, q, p, ⟨b, b', hb, hb', rfl⟩, hq, hp, rfl⟩ := h
  have hequals : ('=' :: (b' ++ (q ++ (p ++ rest)))).dropWhile Text.isAsciiBlank =
      ['='] ++ (b' ++ (q ++ (p ++ rest))) := rfl
  have hquote : dropQuote ((q ++ (p ++ rest)).dropWhile Text.isAsciiBlank) = p ++ rest := by
    obtain ⟨-, -, rfl⟩ := hp
    rcases hq with rfl | rfl | rfl <;> rfl
  have htext : "href".toList ++ b ++ '=' :: b' ++ q ++ p ++ rest =
      "href".toList ++ (b ++ '=' :: (b' ++ (q ++ (p ++ rest)))) := by
    simp only [List.append_assoc, List.cons_append]
  rw [htext, bodyHref?_eq, Text.startsWith?_append, Option.bind_some, dropWhile_blanks hb, hequals,
    Text.startsWith?_append, Option.bind_some, dropWhile_blanks hb', hquote,
    bracketedName?_eq_some_iff.2 ⟨p, hp, rfl⟩]
  rfl

theorem exists_core_of_bodyHref? {text : List Char} {found : List Char × Bool × List Char}
    (h : bodyHref? text = some found) :
    ∃ core rest, IsCore core found.1 ∧ text = core ++ rest ∧ found.2 = hrefTail rest := by
  have hblanks : ∀ x : List Char, IsBlank (x.takeWhile Text.isAsciiBlank) ∧
      x.takeWhile Text.isAsciiBlank ++ x.dropWhile Text.isAsciiBlank = x := fun x =>
    ⟨fun c hc => List.mem_takeWhile_imp hc, List.takeWhile_append_dropWhile⟩
  rw [bodyHref?_eq] at h
  obtain ⟨x, hword, h⟩ := Option.bind_eq_some_iff.1 h
  obtain ⟨y, hequals, h⟩ := Option.bind_eq_some_iff.1 h
  obtain ⟨⟨name, rest⟩, hname, rfl⟩ := Option.map_eq_some_iff.1 h
  obtain ⟨p, hp, hrest⟩ := bracketedName?_eq_some_iff.1 hname
  obtain ⟨q, hq, hquote⟩ := exists_quote (y.dropWhile Text.isAsciiBlank)
  obtain ⟨hb, hx⟩ := hblanks x
  obtain ⟨hb', hy⟩ := hblanks y
  refine ⟨_, rest, ⟨_, q, p, ⟨_, _, hb, hb', rfl⟩, hq, hp, rfl⟩, ?_, rfl⟩
  calc text
      = "href".toList ++ x := Text.append_of_startsWith? hword
    _ = "href".toList ++ (x.takeWhile Text.isAsciiBlank ++ (['='] ++ y)) := by
      rw [← Text.append_of_startsWith? hequals, hx]
    _ = "href".toList ++ (x.takeWhile Text.isAsciiBlank ++ (['='] ++
        (y.takeWhile Text.isAsciiBlank ++ (q ++ (p ++ rest))))) := by
      rw [← hrest, ← hquote, hy]
    _ = _ := by simp only [List.append_assoc, List.cons_append, List.nil_append]

/-- There is something to link at the front. -/
theorem bodyHref?_eq_none_iff {text : List Char} :
    bodyHref? text = none ↔ ∀ occ name comma, IsHref occ name comma → ¬ occ <+: text := by
  constructor
  · rintro h _ name comma ⟨core, tail, hcore, -, rfl⟩ ⟨after, rfl⟩
    rw [List.append_assoc, bodyHref?_core hcore] at h
    cases h
  · intro h
    cases hfound : bodyHref? text with
    | none => rfl
    | some found =>
      obtain ⟨core, rest, hcore, rfl, -⟩ := exists_core_of_bodyHref? hfound
      exact absurd (List.prefix_append _ _) (h core _ false hcore.isHref)

/-- What is linked at the front is the longest text that can be. -/
theorem longest_of_bodyHref? {text name after : List Char} {comma : Bool}
    (h : bodyHref? text = some (name, comma, after)) :
    ∃ occ, text = occ ++ after ∧ IsHref occ name comma ∧
      ∀ occ' name' comma', IsHref occ' name' comma' → occ' <+: text → occ'.length ≤ occ.length := by
  obtain ⟨core, rest, hcore, rfl, heq⟩ := exists_core_of_bodyHref? h
  obtain ⟨tail, htail, hrest⟩ := exists_isTail rest
  rw [← heq] at htail hrest
  dsimp only at hcore htail hrest
  refine ⟨core ++ tail, by rw [List.append_assoc, ← hrest], ⟨core, tail, hcore, htail, rfl⟩, ?_⟩
  rintro _ name' comma' ⟨core', tail', hcore', htail', rfl⟩ ⟨after', hafter'⟩
  rw [List.append_assoc] at hafter'
  have hsame := bodyHref?_core hcore' (tail' ++ after')
  rw [hafter', bodyHref?_core hcore] at hsame
  have hle := length_hrefTail_append_le htail' after'
  have hlength := congrArg List.length hafter'
  have hlength' := congrArg List.length hrest
  obtain ⟨-, hsame⟩ := Prod.mk.inj (Option.some.inj hsame)
  rw [← hsame, ← heq] at hle
  simp only [List.length_append] at hlength hlength' ⊢
  dsimp only at hle
  omega

/-! ### Attributes -/

/-- No `href` among the attributes is a placeholder. -/
def Attrs.IsLinked (a : Attrs) : Prop :=
  ∀ href, a.get? "href" = some href → placeholder? href = none

/-- A placeholder ends in an angle bracket. -/
theorem placeholder?_eq_none {value : String} (h : value.toList.getLast? ≠ some '>') :
    placeholder? value = none := by
  refine placeholder?_eq_none_iff.2 fun name hname => h ?_
  obtain ⟨-, -, heq⟩ := hname
  rw [heq, List.getLast?_cons, List.getLast?_concat]
  rfl

/-- A placeholder starts with an angle bracket. -/
theorem placeholder?_eq_none_of_not_mem {value : String} (h : '<' ∉ value.toList) :
    placeholder? value = none := by
  refine placeholder?_eq_none_iff.2 fun name hname => h ?_
  obtain ⟨-, -, heq⟩ := hname
  rw [heq]
  exact List.mem_cons_self

theorem Attrs.link_eq_self (l : Linker) {a : Attrs} (h : a.IsLinked) : a.link l = a := by
  unfold Attrs.link
  cases hget : a.get? "href" with
  | none => rfl
  | some href => simp [h href hget]

theorem Attrs.isLinked_of_get?_eq_none {a : Attrs} (h : a.get? "href" = none) : a.IsLinked := by
  intro href hget
  rw [h] at hget
  cases hget

theorem Attrs.isLinked_link {l : Linker} (hl : ∀ name url, l name = some url → '<' ∉ url.toList)
    (a : Attrs) : (a.link l).IsLinked := by
  unfold Attrs.link
  cases hget : a.get? "href" with
  | none => exact isLinked_of_get?_eq_none hget
  | some href =>
    dsimp only
    cases hname : placeholder? href with
    | none =>
      intro href' hget'
      rw [hget] at hget'
      rwa [← Option.some.inj hget']
    | some name =>
      dsimp only
      cases hurl : l name with
      | none => exact isLinked_of_get?_eq_none ((get?_erase _ _ _).trans (if_pos rfl))
      | some url =>
        intro href' hget'
        rw [get?_insert, if_pos rfl] at hget'
        obtain rfl := Option.some.inj hget'
        exact placeholder?_eq_none_of_not_mem (hl name _ hurl)

/-! ### A body in pieces -/

/-- A part of a body: a character that stays, or an `href` that is linked. -/
inductive Piece
  | kept (c : Char)
  | href (text name : List Char) (comma : Bool)

/-- What linking makes of a piece. -/
def Piece.linked (l : Linker) : Piece → List Char
  | .kept c => [c]
  | .href _ name comma =>
    match l (String.ofList name) with
    | some url => "href=\"".toList ++ url.toList ++ '"' :: if comma then [','] else []
    | none => []

/-- The text from left to right, with as much of it linked as can be at each place. -/
inductive Cut : List Char → List Piece → Prop
  | nil : Cut [] []
  | kept {c : Char} {rest : List Char} {pieces : List Piece}
      (nothing : ∀ occ name comma, IsHref occ name comma → ¬ occ <+: c :: rest)
      (others : Cut rest pieces) : Cut (c :: rest) (.kept c :: pieces)
  | href {occ name after : List Char} {comma : Bool} {pieces : List Piece}
      (found : IsHref occ name comma)
      (longest : ∀ occ' name' comma', IsHref occ' name' comma' → occ' <+: occ ++ after →
        occ'.length ≤ occ.length)
      (others : Cut after pieces) : Cut (occ ++ after) (.href occ name comma :: pieces)

theorem IsHref.length_pos {occ name : List Char} {comma : Bool} (h : IsHref occ name comma) :
    0 < occ.length := by
  obtain ⟨_, tail, ⟨_, q, p, ⟨b, b', -, -, rfl⟩, -, -, rfl⟩, -, rfl⟩ := h
  simp

/-- Every text can be cut, whatever the addresses are, and linking is done piece by piece. -/
theorem exists_cut (fuel : ℕ) (text : List Char) (hfuel : text.length < fuel) :
    ∃ pieces, Cut text pieces ∧ ∀ l, linkBodyFrom l fuel text = pieces.flatMap (Piece.linked l) := by
  induction fuel generalizing text with
  | zero => exact absurd hfuel (Nat.not_lt_zero _)
  | succ fuel ih =>
    cases text with
    | nil => exact ⟨[], .nil, fun _ => rfl⟩
    | cons c rest =>
      cases hfound : bodyHref? (c :: rest) with
      | none =>
        obtain ⟨pieces, hcut, hlink⟩ := ih rest (Nat.lt_of_succ_lt_succ hfuel)
        refine ⟨_, .kept (bodyHref?_eq_none_iff.1 hfound) hcut, fun l => ?_⟩
        simp only [linkBodyFrom, hfound, hlink, List.flatMap_cons, Piece.linked,
          List.singleton_append]
      | some found =>
        obtain ⟨name, comma, after⟩ := found
        obtain ⟨occ, htext, hocc, hlongest⟩ := longest_of_bodyHref? hfound
        have hpos := hocc.length_pos
        have hlength := congrArg List.length htext
        rw [List.length_append] at hlength
        obtain ⟨pieces, hcut, hlink⟩ := ih after (by omega)
        rw [htext] at hlongest
        have hall := Cut.href hocc hlongest hcut
        rw [← htext] at hall
        refine ⟨_, hall, fun l => ?_⟩
        simp only [linkBodyFrom, hfound, hlink, List.flatMap_cons]
        rfl

/-! ### The texts between addresses -/

/-- The text before the first address of a linked body, and each address with the text behind it. -/
def stretches (l : Linker) : List Piece → List Char × List (List Char × List Char)
  | [] => ([], [])
  | .kept c :: pieces => (c :: (stretches l pieces).1, (stretches l pieces).2)
  | .href _ name comma :: pieces =>
    match l (String.ofList name) with
    | some url =>
      ([], (url.toList, (if comma then [','] else []) ++ (stretches l pieces).1) ::
        (stretches l pieces).2)
    | none => stretches l pieces

/-- A text and what follows it, each an address as it is written into a body and a text. -/
def joined (text : List Char) (others : List (List Char × List Char)) : List Char :=
  text ++ others.flatMap fun x => "href=\"".toList ++ x.1 ++ '"' :: x.2

theorem joined_cons (text : List Char) (x : List Char × List Char)
    (others : List (List Char × List Char)) : joined text (x :: others) =
      text ++ ("href=\"".toList ++ x.1 ++ ['"']) ++ joined x.2 others := by
  simp [joined]

theorem linked_eq_joined (l : Linker) (pieces : List Piece) :
    pieces.flatMap (Piece.linked l) = joined (stretches l pieces).1 (stretches l pieces).2 := by
  induction pieces with
  | nil => rfl
  | cons piece pieces ih =>
    rw [List.flatMap_cons, ih]
    cases piece with
    | kept c => rfl
    | href occ name comma =>
      rw [Piece.linked, stretches]
      cases l (String.ofList name) with
      | none => rfl
      | some url =>
        rw [joined_cons]
        simp [joined]

/-- The text ends in an opening, so that a quote and a placeholder behind it make up an `href`. -/
def EndsOpen (text : List Char) : Prop := ∃ before o, IsOpening o ∧ text = before ++ o

/-- The text starts with a name between angle brackets. -/
def StartsBracketed (text : List Char) : Prop :=
  ∃ p name after, IsBracketed p name ∧ text = p ++ after

theorem IsOpening.quote_not_mem {o : List Char} (h : IsOpening o) : '"' ∉ o := by
  obtain ⟨b, b', hb, hb', rfl⟩ := h
  intro hmem
  have hblank : ∀ x, IsBlank x → '"' ∉ x := fun x hx hc => absurd (hx _ hc) (by decide)
  simp only [List.mem_append, List.mem_cons] at hmem
  rcases hmem with (hmem | hmem) | hmem | hmem
  · exact absurd hmem (by decide)
  · exact hblank b hb hmem
  · exact absurd hmem (by decide)
  · exact hblank b' hb' hmem

/-- No name goes on into an address. -/
theorem prefix_of_name {name text back after : List Char} (hname : ∀ c ∈ name, isNameChar c = true)
    (h : name ++ '>' :: after = text ++ ("href=\"".toList ++ back)) :
    ∃ rest, text = name ++ '>' :: rest := by
  rw [List.append_eq_append_iff] at h
  obtain ⟨cs, rfl, h⟩ | ⟨cs, rfl, h⟩ := h
  · cases cs with
    | nil => cases h
    | cons c cs =>
      obtain ⟨rfl, -⟩ := List.cons.inj h
      exact ⟨cs, rfl⟩
  · have hcs : ∀ c ∈ cs, isNameChar c = true := fun c hc =>
      hname c (List.mem_append_right _ hc)
    have hspan : Text.span isNameChar (cs ++ '>' :: after) = (cs, '>' :: after) :=
      Text.span_append hcs fun c hc => by
        cases hc
        rfl
    rw [← h] at hspan
    cases hspan

/-- A quote in an opening and a quote is the last character. -/
theorem eq_of_opening_quote {o q front back : List Char} (ho : IsOpening o) (hq : IsQuote q)
    (h : o ++ q = front ++ '"' :: back) : front = o ∧ back = [] := by
  have hclose : ∀ c : Char, o ++ [c] = front ++ '"' :: back → front = o ∧ back = [] := by
    intro c h
    obtain rfl | ⟨back, d, rfl⟩ := List.eq_nil_or_concat back
    · exact ⟨(List.append_inj' h rfl).1.symm, rfl⟩
    · have hlast : o ++ [c] = (front ++ '"' :: back) ++ [d] := by
        rw [h, List.concat_eq_append, List.append_assoc, List.cons_append]
      have hfront := (List.append_inj' hlast rfl).1
      exact absurd (by rw [hfront]; simp) ho.quote_not_mem
  rcases hq with rfl | rfl | rfl
  · rw [List.append_nil] at h
    exact absurd (by rw [h]; simp) ho.quote_not_mem
  · exact hclose _ h
  · exact hclose _ h

/-- An `href` that ends behind an address lies behind it, unless the closing quote of the address is
its opening quote. -/
theorem behind_address {s url before o q ds : List Char} (ho : IsOpening o) (hq : IsQuote q)
    (h : s ++ ("href=\"".toList ++ url ++ ['"']) ++ ds = before ++ (o ++ q)) :
    (∃ es, ds = es ++ (o ++ q)) ∨ (EndsOpen url ∧ ds = []) := by
  rw [List.append_eq_append_iff] at h
  obtain ⟨es, rfl, h⟩ | ⟨es, h, hes⟩ := h
  · exact .inl ⟨es, h⟩
  obtain rfl | ⟨es, c, rfl⟩ := List.eq_nil_or_concat es
  · exact .inl ⟨[], hes.symm⟩
  refine .inr ?_
  rw [List.concat_eq_append] at h hes
  have hsplit : (s ++ "href=".toList ++ ['"'] ++ url) ++ ['"'] = (before ++ es) ++ [c] := by
    rw [List.append_assoc before, ← h]
    simp
  obtain ⟨hfront, hc⟩ := List.append_inj' hsplit rfl
  obtain rfl := (List.singleton_inj.1 hc)
  have hquote : o ++ q = es ++ '"' :: ds := by rw [hes, List.append_assoc, List.singleton_append]
  obtain ⟨rfl, rfl⟩ := eq_of_opening_quote ho hq hquote
  refine ⟨?_, rfl⟩
  rw [List.append_eq_append_iff] at hfront
  obtain ⟨fs, -, hurl⟩ | ⟨fs, hfs, hes⟩ := hfront
  · exact ⟨fs, es, ho, hurl⟩
  · obtain rfl | ⟨fs, c, rfl⟩ := List.eq_nil_or_concat fs
    · exact ⟨[], es, ho, hes.symm⟩
    · rw [List.concat_eq_append, ← List.append_assoc] at hfs
      obtain ⟨-, hc⟩ := List.append_inj' hfs rfl
      obtain rfl := List.singleton_inj.1 hc
      exact absurd (by rw [hes]; simp) ho.quote_not_mem

/-- What a text does not have in front it has behind that. -/
theorem behind_of_not_mem {front back before after : List Char} {c : Char} (hfront : c ∉ front)
    (h : front ++ back = before ++ c :: after) :
    ∃ ds, before = front ++ ds ∧ back = ds ++ c :: after := by
  rw [List.append_eq_append_iff] at h
  obtain ⟨ds, hds, hback⟩ | ⟨ds, rfl, hback⟩ := h
  · exact ⟨ds, hds, hback⟩
  · cases ds with
    | nil => exact ⟨[], by rw [List.append_nil, List.append_nil], hback.symm⟩
    | cons d ds =>
      obtain ⟨rfl, -⟩ := List.cons.inj hback
      simp at hfront

/-- What a text with an address in it mentions. -/
theorem mentions_address_iff {s url back : List Char} (hurl : '<' ∉ url) :
    Mentions (s ++ ("href=\"".toList ++ url ++ ['"']) ++ back) ↔
      Mentions s ∨ Mentions back ∨ (EndsOpen url ∧ StartsBracketed back) := by
  constructor
  · intro h
    obtain ⟨before, _, after, name, ⟨o, q, _, ho, hq, ⟨hne, hname, rfl⟩, rfl⟩, h⟩ :=
      mentions_iff.1 h
    have hbracket : IsBracketed ('<' :: (name ++ ['>'])) name := ⟨hne, hname, rfl⟩
    have hcore : IsCore (o ++ q ++ '<' :: (name ++ ['>'])) name := ⟨o, q, _, ho, hq, hbracket, rfl⟩
    have hsplit : s ++ ("href=\"".toList ++ (url ++ ('"' :: back))) =
        (before ++ (o ++ q)) ++ '<' :: (name ++ '>' :: after) := by
      simpa using h
    rw [List.append_eq_append_iff] at hsplit
    obtain ⟨cs, hfront, hback⟩ | ⟨cs, rfl, hback⟩ := hsplit
    · -- the angle bracket lies behind the address
      have haddress : ("href=\"".toList ++ url ++ ['"']) ++ back =
          cs ++ '<' :: (name ++ '>' :: after) := by simpa using hback
      obtain ⟨ds, rfl, rfl⟩ := behind_of_not_mem (by simp [hurl]) haddress
      rw [← List.append_assoc s] at hfront
      rcases behind_address ho hq hfront.symm with ⟨es, rfl⟩ | ⟨hopen, rfl⟩
      · exact .inr (.inl (mentions_iff.2 ⟨es, _, after, name, hcore, by simp⟩))
      · exact .inr (.inr ⟨hopen, _, name, after, hbracket, by simp⟩)
    · -- the angle bracket lies before the address
      cases cs with
      | nil => cases hback
      | cons c cs =>
        obtain ⟨rfl, hname'⟩ := List.cons.inj hback
        obtain ⟨rest, rfl⟩ := prefix_of_name hname hname'
        exact .inl (mentions_iff.2 ⟨before, _, rest, name, hcore, by simp⟩)
  · rintro (h | h | ⟨⟨x, o, ho, rfl⟩, p, name, after, hp, rfl⟩)
    · exact (h.append_right _).append_right _
    · exact h.append_left _
    · refine mentions_iff.2 ⟨s ++ "href=\"".toList ++ x, o ++ ['"'] ++ p, after, name,
        ⟨o, ['"'], p, ho, .inr (.inr rfl), hp, rfl⟩, ?_⟩
      simp only [List.append_assoc]

theorem startsBracketed_joined_iff {s : List Char} {others : List (List Char × List Char)} :
    StartsBracketed (joined s others) ↔ StartsBracketed s := by
  constructor
  · intro h
    cases others with
    | nil =>
      rw [joined, List.flatMap_nil, List.append_nil] at h
      exact h
    | cons x others =>
      obtain ⟨p, name, after, ⟨hne, hname, rfl⟩, h⟩ := h
      have hsplit : '<' :: (name ++ '>' :: after) =
          s ++ ("href=\"".toList ++ (x.1 ++ '"' :: joined x.2 others)) := by
        rw [joined_cons] at h
        simpa using h.symm
      cases s with
      | nil => cases hsplit
      | cons c s =>
        obtain ⟨rfl, hname'⟩ := List.cons.inj hsplit
        obtain ⟨rest, rfl⟩ := prefix_of_name hname hname'
        exact ⟨_, name, rest, ⟨hne, hname, rfl⟩, by simp⟩
  · rintro ⟨p, name, after, hp, rfl⟩
    exact ⟨p, name, _, hp, by rw [joined, List.append_assoc]⟩

/-- What a linked body still mentions lies between the addresses, or is made up of a placeholder and
the end of the address before it. -/
theorem mentions_joined_iff {s : List Char} {others : List (List Char × List Char)}
    (h : ∀ x ∈ others, '<' ∉ x.1) :
    Mentions (joined s others) ↔
      Mentions s ∨ ∃ x ∈ others, Mentions x.2 ∨ (EndsOpen x.1 ∧ StartsBracketed x.2) := by
  induction others generalizing s with
  | nil => simp [joined]
  | cons x others ih =>
    have hx : '<' ∉ x.1 := h x List.mem_cons_self
    have hothers : ∀ y ∈ others, '<' ∉ y.1 := fun y hy => h y (List.mem_cons_of_mem _ hy)
    rw [joined_cons, mentions_address_iff hx, startsBracketed_joined_iff, ih hothers]
    simp only [List.mem_cons, exists_eq_or_imp]
    exact or_congr_right or_right_comm

/-! ### What is left to link -/

theorem mentions_cons_iff {c : Char} {rest : List Char} :
    Mentions (c :: rest) ↔
      (∃ occ name comma, IsHref occ name comma ∧ occ <+: c :: rest) ∨ Mentions rest := by
  constructor
  · rintro ⟨before, occ, after, name, comma, hocc, h⟩
    cases before with
    | nil => exact .inl ⟨occ, name, comma, hocc, after, h.symm⟩
    | cons d before =>
      rw [List.cons_append, List.cons_append] at h
      exact .inr ⟨before, occ, after, name, comma, hocc, (List.cons.inj h).2⟩
  · rintro (⟨occ, name, comma, hocc, after, h⟩ | h)
    · exact ⟨[], occ, after, name, comma, hocc, h.symm⟩
    · exact h.append_left [c]

theorem bodyHref?_eq_none {c : Char} (h : c ≠ 'h') (text : List Char) :
    bodyHref? (c :: text) = none := by
  have hstart : Text.startsWith? "href".toList (c :: text) = none := if_neg (Ne.symm h)
  rw [bodyHref?_eq, hstart]
  rfl

theorem mentions_cons_of_ne {c : Char} {rest : List Char} (h : c ≠ 'h') :
    Mentions (c :: rest) ↔ Mentions rest := by
  have hnone := bodyHref?_eq_none_iff.1 (bodyHref?_eq_none h rest)
  rw [mentions_cons_iff, or_iff_right]
  rintro ⟨occ, name, comma, hocc, hfront⟩
  exact hnone occ name comma hocc hfront

theorem not_mentions_nil : ¬ Mentions [] := by
  rintro ⟨before, occ, after, name, comma, hocc, h⟩
  have hpos := hocc.length_pos
  have hlength := congrArg List.length h
  simp only [List.length_append, List.length_nil] at hlength
  omega

/-- A text without the letter that `href` starts with has nothing to link. -/
theorem not_mentions_of_not_mem {text : List Char} (h : 'h' ∉ text) : ¬ Mentions text := by
  induction text with
  | nil => exact not_mentions_nil
  | cons c rest ih =>
    rw [List.mem_cons, not_or] at h
    rw [mentions_cons_of_ne (Ne.symm h.1)]
    exact ih h.2

namespace Cut

variable {l : Linker} {text : List Char} {pieces : List Piece}

/-- Where there is nothing to link, linking changes nothing. -/
theorem linked_eq (h : Cut text pieces) (hm : ¬ Mentions text) :
    pieces.flatMap (Piece.linked l) = text := by
  induction h with
  | nil => rfl
  | kept _ _ ih =>
    rw [List.flatMap_cons, ih fun hrest => hm (hrest.append_left [_])]
    rfl
  | href found _ _ _ => exact absurd ⟨[], _, _, _, _, found, rfl⟩ hm

/-- An `href` that is linked takes its angle bracket along, so that linking again would be of use as
often as there are brackets. -/
theorem count_linked (hl : ∀ name url, l name = some url → '<' ∉ url.toList)
    (h : Cut text pieces) :
    (pieces.flatMap (Piece.linked l)).count '<' ≤ text.count '<' ∧
      (Mentions text → (pieces.flatMap (Piece.linked l)).count '<' < text.count '<') := by
  induction h with
  | nil => exact ⟨le_rfl, fun hm => absurd hm not_mentions_nil⟩
  | @kept c rest pieces nothing _ ih =>
    rw [List.flatMap_cons, Piece.linked, List.singleton_append, List.count_cons, List.count_cons]
    refine ⟨Nat.add_le_add_right ih.1 _, fun hm => Nat.add_lt_add_right (ih.2 ?_) _⟩
    refine (mentions_cons_iff.1 hm).resolve_left ?_
    rintro ⟨occ, name, comma, hocc, hfront⟩
    exact nothing occ name comma hocc hfront
  | @href occ name after comma pieces found _ _ ih =>
    have hlinked : (Piece.linked l (.href occ name comma)).count '<' = 0 := by
      refine List.count_eq_zero.2 ?_
      rw [Piece.linked]
      cases hurl : l (String.ofList name) with
      | none => exact List.not_mem_nil
      | some url =>
        have hnot := hl _ _ hurl
        cases comma <;> simpa using hnot
    have hocc : 0 < occ.count '<' := by
      obtain ⟨_, tail, ⟨o, q, _, -, -, ⟨-, -, rfl⟩, rfl⟩, -, rfl⟩ := found
      exact List.count_pos_iff.2 (by simp)
    have hle := ih.1
    rw [List.flatMap_cons, List.count_append, List.count_append, hlinked]
    exact ⟨by omega, fun _ => by omega⟩

/-- Where all names are known, the texts between the addresses stand in the body as they are. -/
theorem stretches_of_known (h : Cut text pieces)
    (hknown : ∀ occ name comma, .href occ name comma ∈ pieces → (l (String.ofList name)).isSome) :
    (stretches l pieces).1 <+: text ∧ ¬ Mentions (stretches l pieces).1 ∧
      ∀ x ∈ (stretches l pieces).2, ¬ Mentions x.2 := by
  induction h with
  | nil => exact ⟨List.prefix_refl _, not_mentions_nil, nofun⟩
  | @kept c rest pieces nothing _ ih =>
    obtain ⟨hfront, hfirst, hothers⟩ := ih fun occ name comma hmem =>
      hknown occ name comma (List.mem_cons_of_mem _ hmem)
    have hall := (List.prefix_cons_inj c).2 hfront
    refine ⟨hall, fun hm => ?_, hothers⟩
    rcases mentions_cons_iff.1 hm with ⟨occ, name, comma, hocc, hat⟩ | hm
    · exact nothing occ name comma hocc (hat.trans hall)
    · exact hfirst hm
  | @href occ name after comma pieces found _ _ ih =>
    obtain ⟨hfront, hfirst, hothers⟩ := ih fun occ name comma hmem =>
      hknown occ name comma (List.mem_cons_of_mem _ hmem)
    obtain ⟨url, hurl⟩ := Option.isSome_iff_exists.1 (hknown occ name comma List.mem_cons_self)
    rw [stretches, hurl]
    refine ⟨List.nil_prefix, not_mentions_nil, fun x hx => ?_⟩
    rcases List.mem_cons.1 hx with rfl | hx
    · cases comma with
      | true => exact (mentions_cons_of_ne (by decide)).not.2 hfirst
      | false => exact hfirst
    · exact hothers x hx

end Cut

/-- The addresses of a linked body are those that the linker has. -/
theorem exists_of_mem_stretches {l : Linker} {pieces : List Piece} {x : List Char × List Char}
    (h : x ∈ (stretches l pieces).2) :
    ∃ occ name comma url, .href occ name comma ∈ pieces ∧ l (String.ofList name) = some url ∧
      x.1 = url.toList := by
  induction pieces with
  | nil => cases h
  | cons piece pieces ih =>
    have hrest : x ∈ (stretches l pieces).2 → ∃ occ name comma url,
        .href occ name comma ∈ piece :: pieces ∧ l (String.ofList name) = some url ∧
          x.1 = url.toList := by
      intro hx
      obtain ⟨occ, name, comma, url, hmem, h⟩ := ih hx
      exact ⟨occ, name, comma, url, List.mem_cons_of_mem _ hmem, h⟩
    cases piece with
    | kept c => exact hrest h
    | href occ name comma =>
      rw [stretches] at h
      cases hurl : l (String.ofList name) with
      | none =>
        rw [hurl] at h
        exact hrest h
      | some url =>
        rw [hurl] at h
        rcases List.mem_cons.1 h with rfl | h
        · exact ⟨occ, name, comma, url, List.mem_cons_self, hurl, rfl⟩
        · exact hrest h

/-! ### Linked graphs -/

theorem exists_cut_of_body (body : String) :
    ∃ pieces, Cut body.toList pieces ∧
      ∀ l, (linkBody l body).toList = pieces.flatMap (Piece.linked l) := by
  obtain ⟨pieces, hcut, hlink⟩ := exists_cut (body.length + 1) body.toList (Nat.lt_succ_self _)
  exact ⟨pieces, hcut, fun l => by rw [linkBody, String.toList_ofList, hlink]⟩

/-- A body with nothing to link is linked already. -/
theorem linkBody_eq_self (l : Linker) {body : String} (h : ¬ Mentions body.toList) :
    linkBody l body = body := by
  obtain ⟨pieces, hcut, hlink⟩ := exists_cut_of_body body
  rw [← String.toList_inj, hlink, hcut.linked_eq h]

theorem linkBody_eq_self_iff {l : Linker} (hl : ∀ name url, l name = some url → '<' ∉ url.toList)
    {body : String} : linkBody l body = body ↔ ¬ Mentions body.toList := by
  refine ⟨fun h hm => ?_, linkBody_eq_self l⟩
  obtain ⟨pieces, hcut, hlink⟩ := exists_cut_of_body body
  have hlt := (hcut.count_linked hl).2 hm
  rw [← hlink, h] at hlt
  exact absurd hlt (lt_irrefl _)

theorem Graph.body_link (g : Graph) (l : Linker) : (g.link l).body = linkBody l g.body := by
  rw [Graph.link]

/-- A graph without placeholders is linked already. -/
theorem Graph.link_eq_self (l : Linker) {g : Graph} (hnodeDefaults : g.nodeDefaults.IsLinked)
    (hnodes : ∀ n ∈ g.nodes, n.attrs.IsLinked) (hedgeDefaults : g.edgeDefaults.IsLinked)
    (hedges : ∀ e ∈ g.edges, e.attrs.IsLinked) (hbody : ¬ Mentions g.body.toList) :
    g.link l = g := by
  have hmapNodes : (g.nodes.map fun n => { n with attrs := n.attrs.link l }) = g.nodes := by
    refine (List.map_congr_left fun n hn => ?_).trans (List.map_id' g.nodes)
    rw [Attrs.link_eq_self l (hnodes n hn)]
  have hmapEdges : (g.edges.map fun e => { e with attrs := e.attrs.link l }) = g.edges := by
    refine (List.map_congr_left fun e he => ?_).trans (List.map_id' g.edges)
    rw [Attrs.link_eq_self l (hedges e he)]
  rw [Graph.link, hmapNodes, hmapEdges, Attrs.link_eq_self l hnodeDefaults,
    Attrs.link_eq_self l hedgeDefaults, linkBody_eq_self l hbody]

theorem Attrs.isLinked_iff {a : Attrs} : a.IsLinked ↔
    ∀ href, a.get? "href" = some href → ∀ name, ¬ IsBracketed href.toList name :=
  forall₂_congr fun _ _ => placeholder?_eq_none_iff

/-- The defaults of a graph and the attributes of its nodes and edges. -/
def Graph.attributes (g : Graph) : List Attrs :=
  g.nodeDefaults :: g.edgeDefaults :: (g.nodes.map (·.attrs) ++ g.edges.map (·.attrs))

theorem Graph.attributes_link (g : Graph) (l : Linker) :
    (g.link l).attributes = g.attributes.map (Attrs.link l) := by
  simp [Graph.attributes, Graph.link, Function.comp_def]

theorem Graph.isLinked_of_mem_attributes {l : Linker} {g : Graph}
    (hl : ∀ name url, l name = some url → '<' ∉ url.toList) {a : Attrs}
    (h : a ∈ (g.link l).attributes) : a.IsLinked := by
  rw [Graph.attributes_link] at h
  obtain ⟨b, -, rfl⟩ := List.mem_map.1 h
  exact Attrs.isLinked_link hl b

/-- What is linked again is the body. -/
theorem Graph.link_link_iff {l : Linker} (hl : ∀ name url, l name = some url → '<' ∉ url.toList)
    (g : Graph) : (g.link l).link l = g.link l ↔ ¬ Mentions (g.link l).body.toList := by
  constructor
  · intro h
    have hbody := congrArg Graph.body h
    rw [Graph.body_link] at hbody
    exact (linkBody_eq_self_iff hl).1 hbody
  · intro h
    have hlinked : ∀ a ∈ (g.link l).attributes, a.IsLinked := fun a =>
      Graph.isLinked_of_mem_attributes hl
    simp only [Graph.attributes, List.mem_cons, List.mem_append, List.mem_map, forall_eq_or_imp]
      at hlinked
    obtain ⟨hnodeDefaults, hedgeDefaults, hothers⟩ := hlinked
    refine Graph.link_eq_self (g := g.link l) l hnodeDefaults (fun n hn => ?_) hedgeDefaults
      (fun e he => ?_) h
    · exact hothers _ (.inl ⟨n, hn, rfl⟩)
    · exact hothers _ (.inr ⟨e, he, rfl⟩)

/-- **What linking does to a graph.** No attribute is left with a placeholder. The body is cut into
characters that stay, in order, and the `href`s between them, each of which gives way to its address
or to nothing. Something to link is left in it only where the texts between addresses, closed up, make
up an `href`, or where an address ends in an opening; so nothing is left when all names are known and
no address ends so. Linking once more changes nothing exactly when nothing is left. -/
theorem Graph.link_resolves {l : Linker} (hl : ∀ name url, l name = some url → '<' ∉ url.toList)
    (g : Graph) :
    (∀ a ∈ (g.link l).attributes, ∀ href, a.get? "href" = some href →
      ∀ name, ¬ IsBracketed href.toList name) ∧
    (∃ pieces, Cut g.body.toList pieces ∧
      (g.link l).body.toList = pieces.flatMap (Piece.linked l) ∧
      (g.link l).body.toList = joined (stretches l pieces).1 (stretches l pieces).2 ∧
      (Mentions (g.link l).body.toList ↔
        Mentions (stretches l pieces).1 ∨ ∃ x ∈ (stretches l pieces).2,
          Mentions x.2 ∨ (EndsOpen x.1 ∧ StartsBracketed x.2)) ∧
      ((∀ occ name comma, .href occ name comma ∈ pieces →
          ∃ url, l (String.ofList name) = some url ∧ ¬ EndsOpen url.toList) →
        ¬ Mentions (g.link l).body.toList)) ∧
    ((g.link l).link l = g.link l ↔ ¬ Mentions (g.link l).body.toList) := by
  refine ⟨fun a ha => Attrs.isLinked_iff.1 (Graph.isLinked_of_mem_attributes hl ha), ?_,
    Graph.link_link_iff hl g⟩
  obtain ⟨pieces, hcut, hlink⟩ := exists_cut_of_body g.body
  have hjoined := (hlink l).trans (linked_eq_joined l pieces)
  have haddress : ∀ x ∈ (stretches l pieces).2, '<' ∉ x.1 := by
    intro x hx
    obtain ⟨_, name, _, url, -, hurl, heq⟩ := exists_of_mem_stretches hx
    rw [heq]
    exact hl _ _ hurl
  have hleft := mentions_joined_iff (s := (stretches l pieces).1) haddress
  rw [← hjoined] at hleft
  refine ⟨pieces, hcut, hlink l, hjoined, hleft, fun hknown hm => ?_⟩
  have hisSome : ∀ occ name comma, .href occ name comma ∈ pieces →
      (l (String.ofList name)).isSome := by
    intro occ name comma hmem
    obtain ⟨url, hurl, -⟩ := hknown occ name comma hmem
    rw [hurl]
    rfl
  obtain ⟨-, hfirst, hothers⟩ := hcut.stretches_of_known hisSome
  rcases hleft.1 hm with h | ⟨x, hx, h | ⟨hopen, -⟩⟩
  · exact hfirst h
  · exact hothers x hx h
  · obtain ⟨occ, name, comma, url, hmem, hurl, heq⟩ := exists_of_mem_stretches hx
    obtain ⟨url', hurl', hclosed⟩ := hknown occ name comma hmem
    rw [hurl] at hurl'
    obtain rfl := Option.some.inj hurl'
    exact hclosed (heq ▸ hopen)

/-- A body with an `href` that is known and one that is not. -/
theorem Graph.link_resolves_known :
    let l : Linker := fun name => if name = "foo.bar" then some "foo.html" else none
    let g : Graph := { title := "a", uid := "a", body := "a [href=\"<foo.bar>\", b=1, href=<c>]" }
    (∀ name url, l name = some url → '<' ∉ url.toList) ∧
      (g.link l).body = "a [href=\"foo.html\", b=1, ]" ∧ ¬ Mentions (g.link l).body.toList := by
  intro l g
  have hl : ∀ name url, l name = some url → '<' ∉ url.toList := by
    intro name url h
    by_cases hname : name = "foo.bar"
    · obtain rfl := Option.some.inj ((if_pos hname).symm.trans h)
      decide
    · exact nomatch (if_neg hname).symm.trans h
  have hbody : (g.link l).body = "a [href=\"foo.html\", b=1, ]" := by decide
  obtain ⟨-, -, hagain⟩ := Graph.link_resolves hl g
  have hsame : (g.link l).link l = g.link l := by decide
  exact ⟨hl, hbody, hagain.1 hsame⟩

/-- What stands on both sides of an `href` that is taken away can make up another one. -/
theorem Graph.link_joins_placeholder :
    let l : Linker := fun _ => none
    let g : Graph := { title := "a", uid := "a", body := "hrehref=<x>f=<y>" }
    (∀ name url, l name = some url → '<' ∉ url.toList) ∧ (g.link l).body = "href=<y>" ∧
      Mentions (g.link l).body.toList ∧ (g.link l).link l ≠ g.link l := by
  intro l g
  have hl : ∀ name url, l name = some url → '<' ∉ url.toList := fun _ _ h => nomatch h
  have hbody : (g.link l).body = "href=<y>" := by decide
  have hagain : linkBody l "href=<y>" ≠ "href=<y>" := by decide
  have hleft : Mentions (g.link l).body.toList := by
    rw [hbody]
    exact not_not.1 ((linkBody_eq_self_iff hl).not.1 hagain)
  exact ⟨hl, hbody, hleft, fun h => (Graph.link_link_iff hl g).1 h hleft⟩

end Dot
end ApiDiagrams
