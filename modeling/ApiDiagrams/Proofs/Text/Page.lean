import ApiDiagrams.Proofs.Passes
import ApiDiagrams.Proofs.Text.Html

/-!
# Reading pages

A page is read character by character into the characters that it shows and the tags between them,
with references read as the characters that they stand for. Escaped texts are read as themselves
wherever they are put, in the value of an attribute or in an element, so that they end neither.

* `Reader.step`, `read`: how a page is read, with `read_append`;
* `Slot`: what the two places have in common;
* `ShownAs`, `shownAs_htmlAscii`, `shownAs_escapeHtml`: escaped texts in both places;
* `tagText`, `reads_tagText`: tags are read as they were written.
-/

namespace ApiDiagrams
namespace Page

/-! ### Reading -/

/-- A tag that opens an element. -/
structure Tag where
  name : String
  attrs : List (String × String)
  deriving DecidableEq, Repr

/-- What a page consists of. -/
inductive Token
  | char (c : Char)
  | opening (tag : Tag)
  | closing (name : String)
  deriving DecidableEq, Repr

/-- The characters of a text. -/
def chars (s : String) : List Token := s.toList.map .char

/-- The start of an element. -/
def start (name : String) (attrs : List (String × String)) : List Token := [.opening ⟨name, attrs⟩]

/-- The end of an element. -/
def stop (name : String) : List Token := [.closing name]

/-- Where in a page the reader is, with what it has read of the tag and the reference that it is
in. -/
inductive Mode
  | content
  | reference (body : List Char)
  | opening (name : List Char)
  | closing (name : List Char)
  | key (tag : Tag) (read : List Char)
  | equals (tag : Tag) (key : String)
  | value (tag : Tag) (key : String) (read : List Char)
  | valueReference (tag : Tag) (key : String) (read body : List Char)
  | attrs (tag : Tag)
  | slash (tag : Tag)
  deriving DecidableEq, Repr

/-- A mode, and what has been read before. -/
structure Reader where
  mode : Mode := .content
  tokens : List Token := []
  deriving DecidableEq, Repr

namespace Reader

/-- What may follow the name of a tag and its attributes: another attribute, or the end. -/
def stepAttrs (r : Reader) (tag : Tag) (c : Char) : Option Reader :=
  if c = ' ' then some { r with mode := .key tag [] }
  else if c = '/' then some { r with mode := .slash tag }
  else if c = '>' then some ⟨.content, r.tokens ++ [.opening tag]⟩
  else none

/-- Reads one character. The names of tags and attributes are in small letters, and every value
stands in double quotes. -/
def step (r : Reader) (c : Char) : Option Reader :=
  match r.mode with
  | .content =>
    if c = '<' then some { r with mode := .opening [] }
    else if c = '&' then some { r with mode := .reference [] }
    else some { r with tokens := r.tokens ++ [.char c] }
  | .reference body =>
    if c = ';' then
      (Text.referenceChar? body).map fun d => ⟨.content, r.tokens ++ [.char d]⟩
    else if Text.isMark c then none
    else some { r with mode := .reference (body ++ [c]) }
  | .opening name =>
    if Text.isLower c then some { r with mode := .opening (name ++ [c]) }
    else if name = [] then (if c = '/' then some { r with mode := .closing [] } else none)
    else r.stepAttrs ⟨String.ofList name, []⟩ c
  | .closing name =>
    if Text.isLower c then some { r with mode := .closing (name ++ [c]) }
    else if c = '>' ∧ name ≠ [] then
      some ⟨.content, r.tokens ++ [.closing (String.ofList name)]⟩
    else none
  | .key tag read =>
    if Text.isLower c then some { r with mode := .key tag (read ++ [c]) }
    else if c = '=' ∧ read ≠ [] then some { r with mode := .equals tag (String.ofList read) }
    else none
  | .equals tag key => if c = '"' then some { r with mode := .value tag key [] } else none
  | .value tag key read =>
    if c = '"' then
      some { r with mode := .attrs { tag with attrs := tag.attrs ++ [(key, String.ofList read)] } }
    else if c = '&' then some { r with mode := .valueReference tag key read [] }
    else some { r with mode := .value tag key (read ++ [c]) }
  | .valueReference tag key read body =>
    if c = ';' then
      (Text.referenceChar? body).map fun d => { r with mode := .value tag key (read ++ [d]) }
    else if Text.isMark c then none
    else some { r with mode := .valueReference tag key read (body ++ [c]) }
  | .attrs tag => r.stepAttrs tag c
  | .slash tag =>
    if c = '>' then some ⟨.content, r.tokens ++ [.opening tag]⟩ else none

/-- Reading a text leads from one state to another. -/
def Reads (r : Reader) (text : List Char) (r' : Reader) : Prop := text.foldlM step r = some r'

instance (r : Reader) (text : List Char) (r' : Reader) : Decidable (r.Reads text r') :=
  inferInstanceAs (Decidable (_ = _))

variable {r r' r'' : Reader} {a b : List Char}

theorem reads_nil (r : Reader) : r.Reads [] r := rfl

theorem Reads.append (h : r.Reads a r') (h' : r'.Reads b r'') : r.Reads (a ++ b) r'' := by
  unfold Reads at *
  rw [List.foldlM_append, h]
  exact h'

theorem Reads.cons {c : Char} (h : r.step c = some r') (h' : r'.Reads b r'') :
    r.Reads (c :: b) r'' := by
  unfold Reads at *
  rw [List.foldlM_cons, h]
  exact h'

/-- Reading a word that goes on letter by letter. -/
theorem reads_letters {p : Char → Prop} {r : List Char → Reader}
    (hstep : ∀ read c, p c → (r read).step c = some (r (read ++ [c]))) {w : List Char}
    (h : ∀ c ∈ w, p c) (read : List Char) : (r read).Reads w (r (read ++ w)) :=
  foldlM_collect hstep h read

/-- The same reader with something else read before. -/
def after (r : Reader) (ts : List Token) : Reader := { r with tokens := ts ++ r.tokens }

/-- What has been read before does not matter for what follows. -/
theorem step_after (r : Reader) (ts : List Token) (c : Char) :
    (r.after ts).step c = (r.step c).map fun r' => r'.after ts := by
  obtain ⟨mode, tokens⟩ := r
  cases mode <;> simp only [step, stepAttrs, after] <;> split_ifs <;>
    simp [Function.comp_def]

theorem Reads.after (h : r.Reads a r') (ts : List Token) : (r.after ts).Reads a (r'.after ts) := by
  induction a generalizing r with
  | nil =>
    obtain rfl : r = r' := Option.some.inj h
    exact reads_nil _
  | cons c a ih =>
    unfold Reads at h
    rw [List.foldlM_cons, Option.bind_eq_bind, Option.bind_eq_some_iff] at h
    obtain ⟨next, hstep, hrest⟩ := h
    exact .cons (by rw [step_after, hstep]; rfl) (ih hrest)

end Reader

/-- Reads a page, at the end of which no tag may be open. -/
def read (s : String) : Option (List Token) :=
  match s.toList.foldlM Reader.step {} with
  | some ⟨.content, tokens⟩ => some tokens
  | _ => none

open Reader (Reads)

theorem read_eq_some_iff {s : String} {ts : List Token} :
    read s = some ts ↔ Reads {} s.toList ⟨.content, ts⟩ := by
  unfold read Reader.Reads
  split
  · rename_i found hfound
    rw [hfound]
    simp
  · rename_i hother
    constructor
    · nofun
    · intro h
      exact absurd h (hother ts)

/-- What a page shows goes on behind what has been read before. -/
theorem reads_of_read {s : String} {ts : List Token} (h : read s = some ts)
    (before : List Token) : Reads ⟨.content, before⟩ s.toList ⟨.content, before ++ ts⟩ := by
  have hafter := (read_eq_some_iff.1 h).after before
  rwa [Reader.after, Reader.after, List.append_nil] at hafter

@[simp] theorem read_empty : read "" = some [] := rfl

theorem read_append {a b : String} {ts us : List Token} (ha : read a = some ts)
    (hb : read b = some us) : read (a ++ b) = some (ts ++ us) := by
  rw [read_eq_some_iff, String.toList_append]
  exact (reads_of_read ha []).append (reads_of_read hb ts)

/-- A part of a page that may be missing. -/
theorem read_ite {p : Prop} [Decidable p] {s : String} {ts : List Token}
    (h : p → read s = some ts) : read (if p then s else "") = some (if p then ts else []) := by
  split_ifs with hp
  · exact h hp
  · rfl

/-! ### Texts in their places -/

/-- A place of a page where texts are put, by how the reader goes on there: characters are added to
what it has read, and references are read apart. -/
structure Slot (reader : List Char → Reader) (inside : List Char → List Char → Reader) :
    Prop where
  plain : ∀ read c, c ≠ '&' → Text.isMark c = false →
    (reader read).step c = some (reader (read ++ [c]))
  amp : ∀ read, (reader read).step '&' = some (inside read [])
  body : ∀ read body c, c ≠ ';' → Text.isMark c = false →
    (inside read body).step c = some (inside read (body ++ [c]))
  semicolon : ∀ read body, (inside read body).step ';' =
    (Text.referenceChar? body).map fun d => reader (read ++ [d])

theorem ne_of_isMark {c : Char} (h : Text.isMark c = false) : c ≠ '<' ∧ c ≠ '"' := by
  constructor <;> rintro rfl <;> exact absurd h (by decide)

theorem slot_content (ts : List Token) :
    Slot (fun read => ⟨.content, ts ++ read.map .char⟩)
      (fun read body => ⟨.reference body, ts ++ read.map .char⟩) where
  plain read c hamp hmark := by simp [Reader.step, ne_of_isMark hmark, hamp]
  amp read := rfl
  body read body c hc hmark := by simp [Reader.step, hc, hmark]
  semicolon read body := by simp [Reader.step]

theorem slot_value (tag : Tag) (key : String) (ts : List Token) :
    Slot (fun read => ⟨.value tag key read, ts⟩)
      (fun read body => ⟨.valueReference tag key read body, ts⟩) where
  plain read c hamp hmark := by simp [Reader.step, ne_of_isMark hmark, hamp]
  amp read := rfl
  body read body c hc hmark := by simp [Reader.step, hc, hmark]
  semicolon read body := rfl

namespace Slot

variable {reader : List Char → Reader} {inside : List Char → List Char → Reader}

/-- What stands for a character is read as that character. -/
theorem reads_stands (h : Slot reader inside) (read : List Char) {piece : List Char} {c : Char}
    (hpiece : Text.Stands piece c) (hmark : ∀ d ∈ piece, Text.isMark d = false) :
    (reader read).Reads piece (reader (read ++ [c])) := by
  cases hpiece with
  | plain c hamp => exact .cons (h.plain read c hamp (hmark c (by simp))) (Reader.reads_nil _)
  | reference body c hbody hc =>
    have hplain : (inside read []).Reads body (inside read body) :=
      Reader.reads_letters (r := inside read)
        (fun body d (hd : d ≠ ';' ∧ Text.isMark d = false) => h.body read body d hd.1 hd.2)
        (fun d hd => ⟨fun heq => hbody (heq ▸ hd), hmark d (by simp [hd])⟩) []
    have hend : (inside read body).step ';' = some (reader (read ++ [c])) := by
      rw [h.semicolon, hc, Option.map_some]
    exact .cons (h.amp read) (hplain.append (.cons hend (Reader.reads_nil _)))

theorem reads_flatMap (h : Slot reader inside) (read : List Char) {f : Char → List Char}
    {text : List Char} (hf : ∀ c ∈ text, Text.Stands (f c) c)
    (hmark : ∀ d ∈ text.flatMap f, Text.isMark d = false) :
    (reader read).Reads (text.flatMap f) (reader (read ++ text)) := by
  induction text generalizing read with
  | nil => simpa using Reader.reads_nil (reader read)
  | cons c text ih =>
    rw [List.flatMap_cons, List.forall_mem_append] at hmark
    have hrest := ih (read ++ [c]) (fun d hd => hf d (List.mem_cons_of_mem _ hd)) hmark.2
    rw [List.append_assoc] at hrest
    rw [List.flatMap_cons]
    exact (h.reads_stands read (hf c List.mem_cons_self) hmark.1).append hrest

end Slot

/-- The text is read as another one wherever it is put: in the value of an attribute and in an
element, neither of which it ends. -/
structure ShownAs (text shown : List Char) : Prop where
  value : ∀ tag key read ts,
    Reads ⟨.value tag key read, ts⟩ text ⟨.value tag key (read ++ shown), ts⟩
  content : ∀ ts, Reads ⟨.content, ts⟩ text ⟨.content, ts ++ shown.map .char⟩

theorem shownAs_flatMap {f : Char → List Char} {text : List Char}
    (hf : ∀ c ∈ text, Text.Stands (f c) c)
    (hmark : ∀ d ∈ text.flatMap f, Text.isMark d = false) : ShownAs (text.flatMap f) text where
  value tag key read ts := (slot_value tag key ts).reads_flatMap read hf hmark
  content ts := by simpa using (slot_content ts).reads_flatMap [] hf hmark

theorem shownAs_escapeHtml (text : List Char) : ShownAs (Text.escapeHtml text) text :=
  shownAs_flatMap (fun c _ => Text.stands_escapeHtmlChar c) (Text.unmarked_escapeHtml text)

theorem shownAs_htmlAscii (s : String) : ShownAs (Text.htmlAscii s) s.toList := by
  have hmark := (Text.harmless_htmlAscii s).unmarked
  rw [Text.htmlAscii_eq] at hmark ⊢
  exact shownAs_flatMap (fun c _ => Text.stands_htmlAsciiChar c) hmark

/-! ### Tags -/

/-- A name of a tag or an attribute. -/
def IsName (name : String) : Prop := name ≠ "" ∧ ∀ c ∈ name.toList, Text.isLower c = true

instance (name : String) : Decidable (IsName name) :=
  @instDecidableAnd _ _ inferInstance (List.decidableBAll _ name.toList)

/-- An attribute with the text that its value is written by. -/
structure Attr where
  key : String
  text : List Char
  value : String

/-- The attribute as it is read. -/
def Attr.shown (a : Attr) : String × String := (a.key, a.value)

/-- The text of the value is read as the value. -/
structure Attr.Shows (a : Attr) : Prop where
  key : IsName a.key
  value : ∀ tag key ts, Reads ⟨.value tag key [], ts⟩ a.text ⟨.value tag key a.value.toList, ts⟩

theorem shows_of_shownAs {key value : String} {text : List Char} (hkey : IsName key)
    (h : ShownAs text value.toList) : Attr.Shows ⟨key, text, value⟩ :=
  ⟨hkey, fun tag key ts => h.value tag key [] ts⟩

/-- A text without references and quotes is its own value. -/
theorem shows_of_plain {key value : String} (hkey : IsName key)
    (h : ∀ c ∈ value.toList, c ≠ '"' ∧ c ≠ '&') : Attr.Shows ⟨key, value.toList, value⟩ where
  key := hkey
  value tag key ts := Reader.reads_letters (r := fun read => ⟨.value tag key read, ts⟩)
    (fun read c hc => by simp [Reader.step, hc]) h []

/-- What follows the name of a tag: its attributes, the end of the tag and the rest of the page. -/
def attrsText (rest : List Char) : List Attr → List Char
  | [] => '>' :: rest
  | a :: attrs => ' ' :: (a.key.toList ++ '=' :: '"' :: (a.text ++ '"' :: attrsText rest attrs))

/-- A tag that opens an element, and the rest of the page. -/
def tagText (name : String) (attrs : List Attr) (rest : List Char) : List Char :=
  '<' :: (name.toList ++ attrsText rest attrs)

theorem reads_attr {a : Attr} (h : a.Shows) {tag : Tag} {ts : List Token} {rest : List Char}
    {r : Reader} (hrest : Reads ⟨.attrs ⟨tag.name, tag.attrs ++ [a.shown]⟩, ts⟩ rest r) :
    Reads ⟨.key tag [], ts⟩ (a.key.toList ++ '=' :: '"' :: (a.text ++ '"' :: rest)) r := by
  have hletters : Reads ⟨.key tag [], ts⟩ a.key.toList ⟨.key tag a.key.toList, ts⟩ :=
    Reader.reads_letters (r := fun read => ⟨.key tag read, ts⟩)
      (fun read c hc => by simp [Reader.step, hc]) h.key.2 []
  have hequals : Reader.step ⟨.key tag a.key.toList, ts⟩ '=' =
      some ⟨.equals tag a.key, ts⟩ := by
    simp [Reader.step, Text.isLower, h.key.1]
  have hquote : Reader.step ⟨.value tag a.key a.value.toList, ts⟩ '"' =
      some ⟨.attrs ⟨tag.name, tag.attrs ++ [a.shown]⟩, ts⟩ := by
    simp [Reader.step, Attr.shown]
  exact hletters.append (.cons hequals (.cons rfl ((h.value tag a.key ts).append
    (.cons hquote hrest))))

theorem reads_attrsText {attrs : List Attr} (h : ∀ a ∈ attrs, a.Shows) {tag : Tag}
    {ts : List Token} {rest : List Char} {r : Reader}
    (hrest : Reads ⟨.content, ts ++ start tag.name (tag.attrs ++ attrs.map Attr.shown)⟩ rest r) :
    Reads ⟨.attrs tag, ts⟩ (attrsText rest attrs) r := by
  induction attrs generalizing tag with
  | nil =>
    rw [List.map_nil, List.append_nil] at hrest
    exact .cons rfl hrest
  | cons a attrs ih =>
    have hmore : Reads ⟨.attrs ⟨tag.name, tag.attrs ++ [a.shown]⟩, ts⟩ (attrsText rest attrs) r :=
      ih (fun b hb => h b (List.mem_cons_of_mem _ hb)) (by simpa using hrest)
    exact .cons rfl (reads_attr (h a List.mem_cons_self) hmore)

/-- The first character behind the name of a tag tells that the name is over. -/
theorem step_opening {name : String} (h : IsName name) (ts : List Token) {c : Char}
    (hc : Text.isLower c = false) :
    Reader.step ⟨.opening name.toList, ts⟩ c = Reader.step ⟨.attrs ⟨name, []⟩, ts⟩ c := by
  simp [Reader.step, hc, h.1, Reader.stepAttrs]

theorem reads_tagText {name : String} (hname : IsName name) {attrs : List Attr}
    (h : ∀ a ∈ attrs, a.Shows) {ts : List Token} {rest : List Char} {r : Reader}
    (hrest : Reads ⟨.content, ts ++ start name (attrs.map Attr.shown)⟩ rest r) :
    Reads ⟨.content, ts⟩ (tagText name attrs rest) r := by
  have hletters : Reads ⟨.opening [], ts⟩ name.toList ⟨.opening name.toList, ts⟩ :=
    Reader.reads_letters (r := fun read => ⟨.opening read, ts⟩)
      (fun read c hc => by simp [Reader.step, hc]) hname.2 []
  have hbehind : Reads ⟨.attrs ⟨name, []⟩, ts⟩ (attrsText rest attrs) r :=
    reads_attrsText h hrest
  have hname' : Reads ⟨.opening name.toList, ts⟩ (attrsText rest attrs) r := by
    cases attrs <;>
    · unfold attrsText Reader.Reads at *
      rw [List.foldlM_cons] at hbehind ⊢
      rwa [step_opening hname ts (by decide)]
  exact .cons rfl (hletters.append hname')

end Page
end ApiDiagrams
