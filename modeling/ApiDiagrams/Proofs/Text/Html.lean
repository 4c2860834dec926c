import ApiDiagrams.Proofs.Text.Ascii
import ApiDiagrams.Text.Html
import Mathlib.Data.Bool.AllAny

/-!
# References are read back

A text is escaped character by character: what stands for a character is the character itself or a
reference, and a reference is read from its ampersand to the first semicolon, so that the texts for
the single characters can be told apart wherever they stand.

* `Stands`: a text that stands for a character, and `unescapeHtml_flatMap`;
* `IsReference`, `Harmless`: texts of ASCII without marks, in which an ampersand starts a reference;
* `unescapeHtml_htmlAscii`, `harmless_htmlAscii`: titles in a page;
* `stands_escapeHtmlChar`, `unmarked_escapeHtml`: addresses in a page.
-/

namespace ApiDiagrams
namespace Text

/-! ### Reading -/

/-- The text stands for the character: it is the character, or a reference to it. -/
inductive Stands : List Char → Char → Prop
  | plain (c : Char) (h : c ≠ '&') : Stands [c] c
  | reference (body : List Char) (c : Char) (hbody : ';' ∉ body)
      (h : referenceChar? body = some c) : Stands ('&' :: (body ++ [';'])) c

theorem unescapeFrom_reference (read : List Char) {body : List Char} (h : ';' ∉ body)
    (rest : List Char) : unescapeFrom (some read) (body ++ ';' :: rest) =
      (referenceChar? (read ++ body)).bind fun c => (unescapeFrom none rest).map (c :: ·) := by
  induction body generalizing read with
  | nil =>
    rw [List.nil_append, List.append_nil, unescapeFrom, if_pos rfl]
    refine Option.bind_congr fun c _ => ?_
    cases unescapeFrom none rest <;> rfl
  | cons c body ih =>
    rw [List.mem_cons, not_or] at h
    rw [List.cons_append, unescapeFrom, if_neg (Ne.symm h.1), ih _ h.2, List.append_assoc,
      List.singleton_append]

/-- A text that stands for a character is read as it, and the text goes on behind it. -/
theorem Stands.unescapeFrom {piece : List Char} {c : Char} (h : Stands piece c)
    (rest : List Char) :
    unescapeFrom none (piece ++ rest) = (unescapeFrom none rest).map (c :: ·) := by
  cases h with
  | plain c hc => rw [List.singleton_append, Text.unescapeFrom, if_neg hc]
  | reference body c hbody hc =>
    rw [List.cons_append, Text.unescapeFrom, if_pos rfl, List.append_assoc, List.singleton_append,
      unescapeFrom_reference [] hbody, List.nil_append, hc, Option.bind_some]

theorem unescapeHtml_flatMap {f : Char → List Char} {text : List Char}
    (h : ∀ c ∈ text, Stands (f c) c) : unescapeHtml (text.flatMap f) = some text := by
  unfold unescapeHtml
  induction text with
  | nil => rfl
  | cons c text ih =>
    rw [List.flatMap_cons, (h c List.mem_cons_self).unescapeFrom,
      ih fun d hd => h d (List.mem_cons_of_mem _ hd), Option.map_some]

/-! ### Harmless texts -/

/-- A reference: one for a mark, or the number of a character. -/
def IsReference (ref : List Char) : Prop :=
  ref ∈ ["&amp;", "&lt;", "&gt;", "&#34;", "&#39;"].map String.toList ∨
    ∃ n, ref = "&#".toList ++ Nat.toDigits 10 n ++ [';']

/-- The marks that can end a text or a value of a page. -/
def isMark (c : Char) : Bool := c == '<' || c == '>' || c == '"' || c == '\''

/-- A text of ASCII without marks, in which ampersands do nothing but start references. -/
structure Harmless (text : List Char) : Prop where
  ascii : ∀ c ∈ text, c.toNat < 128
  unmarked : ∀ c ∈ text, isMark c = false
  references : ∀ before after, text = before ++ '&' :: after →
    ∃ ref rest, IsReference ref ∧ '&' :: after = ref ++ rest

namespace Harmless

theorem nil : Harmless [] := ⟨nofun, nofun, by simp⟩

theorem append {a b : List Char} (ha : Harmless a) (hb : Harmless b) : Harmless (a ++ b) where
  ascii := List.forall_mem_append.2 ⟨ha.ascii, hb.ascii⟩
  unmarked := List.forall_mem_append.2 ⟨ha.unmarked, hb.unmarked⟩
  references before after h := by
    rcases List.append_eq_append_iff.1 h with ⟨front, rfl, hfront⟩ | ⟨back, rfl, hback⟩
    · exact hb.references _ _ hfront
    · -- the ampersand stands in the first text, unless it starts the second one
      cases back with
      | nil => exact hb.references [] after hback.symm
      | cons c back =>
        obtain ⟨rfl, rfl⟩ := List.cons.inj hback
        obtain ⟨ref, rest, href, heq⟩ := ha.references before back rfl
        exact ⟨ref, rest ++ b, href, by rw [← List.append_assoc, ← heq]; rfl⟩

theorem flatMap {f : Char → List Char} {text : List Char} (h : ∀ c ∈ text, Harmless (f c)) :
    Harmless (text.flatMap f) := by
  induction text with
  | nil => exact nil
  | cons c text ih =>
    rw [List.flatMap_cons]
    exact (h c List.mem_cons_self).append (ih fun d hd => h d (List.mem_cons_of_mem _ hd))

theorem singleton {c : Char} (hascii : c.toNat < 128) (hmark : isMark c = false)
    (hamp : c ≠ '&') : Harmless [c] where
  ascii := List.forall_mem_singleton.2 hascii
  unmarked := List.forall_mem_singleton.2 hmark
  references before after h := by
    have hmem : '&' ∈ [c] := h ▸ by simp
    exact absurd (List.mem_singleton.1 hmem).symm hamp

/-- No ampersand stands inside of a reference. -/
theorem reference {body : List Char} (hbody : ∀ c ∈ body, c.toNat < 128 ∧ isMark c = false)
    (hamp : '&' ∉ body) (h : IsReference ('&' :: body)) : Harmless ('&' :: body) where
  ascii := List.forall_mem_cons.2 ⟨by decide, fun c hc => (hbody c hc).1⟩
  unmarked := List.forall_mem_cons.2 ⟨by decide, fun c hc => (hbody c hc).2⟩
  references before after heq := by
    cases before with
    | nil => exact ⟨_, [], h, by rw [List.append_nil, heq, List.nil_append]⟩
    | cons c before =>
      have hmem : '&' ∈ body := (List.cons.inj heq).2 ▸ by simp
      exact absurd hmem hamp

end Harmless

/-! ### The references that are written -/

/-- What stands between the ampersand and the semicolon of a reference to a character. -/
structure RefersTo (body : List Char) (c : Char) : Prop where
  reads : referenceChar? body = some c
  plain : ∀ d ∈ body, d.toNat < 128 ∧ isMark d = false
  inner : ';' ∉ body ∧ '&' ∉ body
  isReference : IsReference ('&' :: (body ++ [';']))

namespace RefersTo

variable {body : List Char} {c : Char}

theorem stands (h : RefersTo body c) : Stands ('&' :: (body ++ [';'])) c :=
  .reference body c h.inner.1 h.reads

theorem ascii (h : RefersTo body c) : ∀ d ∈ '&' :: (body ++ [';']), d.toNat < 128 := by
  refine List.forall_mem_cons.2 ⟨by decide, List.forall_mem_append.2 ⟨fun d hd => ?_, ?_⟩⟩
  · exact (h.plain d hd).1
  · exact List.forall_mem_singleton.2 (by decide)

theorem harmless (h : RefersTo body c) : Harmless ('&' :: (body ++ [';'])) := by
  refine .reference (List.forall_mem_append.2 ⟨h.plain, ?_⟩) ?_ h.isReference
  · exact List.forall_mem_singleton.2 (by decide)
  · simpa using h.inner.2

end RefersTo

/-- The five characters that mean something in a page are written by references of their own. -/
theorem escapeHtmlChar_cases (c : Char) :
    (∃ body, RefersTo body c ∧ escapeHtmlChar c = '&' :: (body ++ [';'])) ∨
      escapeHtmlChar c = [c] ∧ c ≠ '&' ∧ isMark c = false := by
  by_cases h : c ∈ ['&', '\'', '<', '>', '"']
  · left
    simp only [List.mem_cons, List.not_mem_nil, or_false] at h
    rcases h with rfl | rfl | rfl | rfl | rfl
    · exact ⟨"amp".toList, ⟨rfl, List.all_iff_forall_prop.1 (by decide), by decide,
        .inl (by decide)⟩, rfl⟩
    · exact ⟨"#39".toList, ⟨rfl, List.all_iff_forall_prop.1 (by decide), by decide,
        .inl (by decide)⟩, rfl⟩
    · exact ⟨"lt".toList, ⟨rfl, List.all_iff_forall_prop.1 (by decide), by decide,
        .inl (by decide)⟩, rfl⟩
    · exact ⟨"gt".toList, ⟨rfl, List.all_iff_forall_prop.1 (by decide), by decide,
        .inl (by decide)⟩, rfl⟩
    · exact ⟨"#34".toList, ⟨rfl, List.all_iff_forall_prop.1 (by decide), by decide,
        .inl (by decide)⟩, rfl⟩
  · right
    simp only [List.mem_cons, List.not_mem_nil, or_false, not_or] at h
    obtain ⟨hamp, hquote, hlt, hgt, hdouble⟩ := h
    refine ⟨?_, hamp, by simp [isMark, *]⟩
    unfold escapeHtmlChar
    split <;> first | contradiction | rfl

theorem refersTo_number (c : Char) : RefersTo ('#' :: Nat.toDigits 10 c.toNat) c := by
  have hdigit : ∀ d ∈ Nat.toDigits 10 c.toNat, isDigit d = true := fun d hd =>
    isDigit_of_mem_toDigits hd
  -- digits are neither marks nor the ends of references
  have hother : ∀ d, isDigit d = true →
      (d.toNat < 128 ∧ isMark d = false) ∧ d ≠ ';' ∧ d ≠ '&' := by
    intro d hd
    have hcode := isDigit_iff.1 hd
    have hne : ∀ e : Char, isDigit e = false → d ≠ e := by
      rintro _ he rfl
      rw [hd] at he
      cases he
    refine ⟨⟨by omega, ?_⟩, hne _ (by decide), hne _ (by decide)⟩
    simp [isMark, hne '<' (by decide), hne '>' (by decide), hne '"' (by decide),
      hne '\'' (by decide)]
  refine ⟨?_, List.forall_mem_cons.2 ⟨by decide, fun d hd => (hother d (hdigit d hd)).1⟩, ⟨?_, ?_⟩,
    .inr ⟨c.toNat, rfl⟩⟩
  · have hcond : Nat.toDigits 10 c.toNat ≠ [] ∧
        (Nat.toDigits 10 c.toNat).all isDigit = true :=
      ⟨Nat.toDigits_ne_nil, List.all_eq_true.2 hdigit⟩
    refine (if_pos hcond).trans ?_
    rw [decimalNumber_eq, Nat.ofDigitChars_ten_toDigits, Char.ofNat_toNat]
  · exact List.not_mem_cons_of_ne_of_not_mem (by decide) fun h => (hother _ (hdigit _ h)).2.1 rfl
  · exact List.not_mem_cons_of_ne_of_not_mem (by decide) fun h => (hother _ (hdigit _ h)).2.2 rfl

/-! ### Addresses -/

theorem stands_escapeHtmlChar (c : Char) : Stands (escapeHtmlChar c) c := by
  rcases escapeHtmlChar_cases c with ⟨body, hbody, h⟩ | ⟨h, hamp, -⟩
  · rw [h]
    exact hbody.stands
  · rw [h]
    exact .plain c hamp

theorem unmarked_escapeHtml (text : List Char) : ∀ c ∈ escapeHtml text, isMark c = false := by
  intro c hc
  obtain ⟨d, -, hd⟩ := List.mem_flatMap.1 hc
  rcases escapeHtmlChar_cases d with ⟨body, hbody, h⟩ | ⟨h, -, hmark⟩
  · exact hbody.harmless.unmarked c (h ▸ hd)
  · rw [h, List.mem_singleton] at hd
    exact hd ▸ hmark

/-! ### Titles -/

/-- A character of a title as it stands in a page. -/
def htmlAsciiChar (c : Char) : List Char := asciiRefs (escapeHtmlChar c)

theorem htmlAscii_eq (s : String) : htmlAscii s = s.toList.flatMap htmlAsciiChar := by
  rw [htmlAscii, escapeHtml, asciiRefs, List.flatMap_assoc]
  rfl

/-- The characters of a text in ASCII stay as they are. -/
theorem asciiRefs_eq_self {text : List Char} (h : ∀ c ∈ text, c.toNat < 128) :
    asciiRefs text = text := by
  have hchars : asciiRefs text = text.flatMap fun c => [c] :=
    List.flatMap_congr fun c hc => if_pos (h c hc)
  rw [hchars, List.flatMap_singleton']

/-- The second escaping leaves the references of the first one alone. -/
theorem htmlAsciiChar_cases (c : Char) :
    (∃ body, RefersTo body c ∧ htmlAsciiChar c = '&' :: (body ++ [';'])) ∨
      htmlAsciiChar c = [c] ∧ c.toNat < 128 ∧ c ≠ '&' ∧ isMark c = false := by
  unfold htmlAsciiChar
  rcases escapeHtmlChar_cases c with ⟨body, hbody, h⟩ | ⟨h, hamp, hmark⟩
  · exact .inl ⟨body, hbody, by rw [h, asciiRefs_eq_self hbody.ascii]⟩
  · have hsingle : asciiRefs [c] = asciiRef c := List.flatMap_singleton _ _
    rw [h, hsingle, asciiRef]
    split_ifs with hascii
    · exact .inr ⟨rfl, hascii, hamp, hmark⟩
    · exact .inl ⟨_, refersTo_number c, rfl⟩

theorem stands_htmlAsciiChar (c : Char) : Stands (htmlAsciiChar c) c := by
  rcases htmlAsciiChar_cases c with ⟨body, hbody, h⟩ | ⟨h, -, hamp, -⟩
  · rw [h]
    exact hbody.stands
  · rw [h]
    exact .plain c hamp

/-- An escaped title is read as the title. -/
theorem unescapeHtml_htmlAscii (s : String) : unescapeHtml (htmlAscii s) = some s.toList := by
  rw [htmlAscii_eq]
  exact unescapeHtml_flatMap fun c _ => stands_htmlAsciiChar c

/-- Different titles are escaped differently. -/
theorem htmlAscii_injective : Function.Injective htmlAscii := by
  intro s t h
  have hread := congrArg unescapeHtml h
  rw [unescapeHtml_htmlAscii, unescapeHtml_htmlAscii] at hread
  exact String.toList_inj.1 (Option.some.inj hread)

theorem harmless_htmlAscii (s : String) : Harmless (htmlAscii s) := by
  rw [htmlAscii_eq]
  refine Harmless.flatMap fun c _ => ?_
  rcases htmlAsciiChar_cases c with ⟨body, hbody, h⟩ | ⟨h, hascii, hamp, hmark⟩
  · rw [h]
    exact hbody.harmless
  · rw [h]
    exact .singleton hascii hmark hamp

end Text
end ApiDiagrams
