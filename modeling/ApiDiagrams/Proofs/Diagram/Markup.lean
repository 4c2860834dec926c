import ApiDiagrams.Proofs.Dot.Scanning
import ApiDiagrams.Proofs.Passes

/-!
# Markup

The labels of nested package trees are markup: elements, which tags open and close, around
characters and other elements. A text is read character by character, with a stack of the elements
that are open, so that a text that can be read has every element closed, and closed within the
element that it was opened in.

* `Markup`, `Markup.text`: markup and how it is written;
* `Markup.Reader.step`, `Markup.read`: how it is read, with `Markup.balanced_of_read`;
* `Markup.IsIn`: rows in tables, cells in rows, characters and tables in cells;
* `Markup.read_of_isIn`: tables are read as they were written;
* `Markup.values`: the values of an attribute, in the order of the text.
-/

namespace ApiDiagrams

/-- A piece of markup: a character, or an element with its attributes and its content. -/
inductive Markup
  | char (c : Char)
  | element (tag : String) (attrs : List (String × String)) (content : List Markup)

namespace Markup

/-! ### Writing -/

/-- How attributes are written. -/
def attrsText (attrs : List (String × String)) : List Char :=
  attrs.flatMap fun a => ' ' :: (a.1.toList ++ '=' :: '"' :: (a.2.toList ++ ['"']))

/-- How an element opens. -/
def openText (tag : String) (attrs : List (String × String)) : List Char :=
  '<' :: (tag.toList ++ (attrsText attrs ++ ['>']))

/-- How an element closes. -/
def closeText (tag : String) : List Char := '<' :: '/' :: (tag.toList ++ ['>'])

/-- How a piece of markup is written. -/
def text : Markup → List Char
  | .char c => [c]
  | .element tag attrs content =>
    openText tag attrs ++ ((content.map text).flatten ++ closeText tag)

@[simp] theorem text_char (c : Char) : (char c).text = [c] := by rw [text]

@[simp] theorem text_element (tag : String) (attrs : List (String × String))
    (content : List Markup) :
    (element tag attrs content).text =
      openText tag attrs ++ (content.flatMap text ++ closeText tag) := by
  rw [text, List.flatMap_def]

/-- A word as markup. -/
def word (s : String) : List Markup := s.toList.map char

@[simp] theorem flatMap_text_word (s : String) : (word s).flatMap text = s.toList := by
  rw [word, List.flatMap_map]
  simp

/-! ### Reading -/

/-- Where in a text the reader is, with what it has read of the tag that it is in. -/
inductive Mode
  | content
  | opening (tag : List Char)
  | closing (tag : List Char)
  | key (tag : String) (attrs : List (String × String)) (read : List Char)
  | equals (tag : String) (attrs : List (String × String)) (key : String)
  | value (tag : String) (attrs : List (String × String)) (key : String) (read : List Char)
  | attrs (tag : String) (attrs : List (String × String))

/-- An element that is open, with what stands before it in the element around it. -/
structure Frame where
  tag : String
  attrs : List (String × String)
  before : List Markup

/-- The elements that are open, the innermost first, and the content that the innermost one has so
far. -/
structure Reader where
  mode : Mode
  frames : List Frame
  content : List Markup

namespace Reader

/-- A tag opens an element in the innermost one. -/
def openTag (r : Reader) (tag : String) (attrs : List (String × String)) : Reader :=
  ⟨.content, ⟨tag, attrs, r.content⟩ :: r.frames, []⟩

/-- A tag closes the innermost element, which has to be of its name. -/
def closeTag (r : Reader) (tag : String) : Option Reader :=
  match r.frames with
  | [] => none
  | f :: frames =>
    if f.tag = tag then some ⟨.content, frames, f.before ++ [.element f.tag f.attrs r.content]⟩
    else none

/-- What may follow the name of a tag and its attributes: another attribute, or the end. -/
def stepAttrs (r : Reader) (tag : String) (attrs : List (String × String)) (c : Char) :
    Option Reader :=
  if c = ' ' then some { r with mode := .key tag attrs [] }
  else if c = '>' then some (r.openTag tag attrs)
  else none

/-- Reads one character. No angle bracket stands for itself, and the names of tags and attributes
are in capital letters. -/
def step (r : Reader) (c : Char) : Option Reader :=
  match r.mode with
  | .content =>
    if c = '<' then some { r with mode := .opening [] }
    else if c = '>' then none
    else some { r with content := r.content ++ [.char c] }
  | .opening tag =>
    if Text.isUpper c then some { r with mode := .opening (tag ++ [c]) }
    else if tag = [] then (if c = '/' then some { r with mode := .closing [] } else none)
    else r.stepAttrs (String.ofList tag) [] c
  | .closing tag =>
    if Text.isUpper c then some { r with mode := .closing (tag ++ [c]) }
    else if c = '>' ∧ tag ≠ [] then r.closeTag (String.ofList tag)
    else none
  | .key tag attrs read =>
    if Text.isUpper c then some { r with mode := .key tag attrs (read ++ [c]) }
    else if c = '=' ∧ read ≠ [] then
      some { r with mode := .equals tag attrs (String.ofList read) }
    else none
  | .equals tag attrs key =>
    if c = '"' then some { r with mode := .value tag attrs key [] } else none
  | .value tag attrs key read =>
    if c = '"' then some { r with mode := .attrs tag (attrs ++ [(key, String.ofList read)]) }
    else if c = '<' ∨ c = '>' then none
    else some { r with mode := .value tag attrs key (read ++ [c]) }
  | .attrs tag attrs => r.stepAttrs tag attrs c

/-- Reading a text leads from one state to another. -/
def Reads (r : Reader) (text : List Char) (r' : Reader) : Prop := text.foldlM step r = some r'

theorem Reads.append {r r' r'' : Reader} {a b : List Char} (h : r.Reads a r')
    (h' : r'.Reads b r'') : r.Reads (a ++ b) r'' := by
  unfold Reads at *
  rw [List.foldlM_append, h]
  exact h'

theorem Reads.cons {r r' r'' : Reader} {c : Char} {rest : List Char} (h : r.step c = some r')
    (h' : r'.Reads rest r'') : r.Reads (c :: rest) r'' := by
  unfold Reads at *
  rw [List.foldlM_cons, h]
  exact h'

theorem reads_nil (r : Reader) : r.Reads [] r := rfl

theorem reads_cons_iff {r r'' : Reader} {c : Char} {rest : List Char} :
    r.Reads (c :: rest) r'' ↔ ∃ r', r.step c = some r' ∧ r'.Reads rest r'' := by
  unfold Reads
  rw [List.foldlM_cons, Option.bind_eq_bind, Option.bind_eq_some_iff]

end Reader

/-- Reads a text, in which all elements have to be closed at the end. -/
def read (s : String) : Option (List Markup) :=
  match s.toList.foldlM Reader.step ⟨.content, [], []⟩ with
  | some ⟨.content, [], content⟩ => some content
  | _ => none

theorem read_eq_some_iff {s : String} {content : List Markup} :
    read s = some content ↔
      Reader.Reads ⟨.content, [], []⟩ s.toList ⟨.content, [], content⟩ := by
  unfold read Reader.Reads
  split
  · rename_i found hfound
    rw [hfound]
    simp
  · rename_i hother
    constructor
    · intro h
      exact absurd h (by simp)
    · intro h
      exact absurd h (hother content)

/-! ### Angle brackets -/

/-- The number of angle brackets that are open. -/
def Mode.depth : Mode → ℕ
  | .content => 0
  | _ => 1

theorem ne_bracket_of_isUpper {c : Char} (h : Text.isUpper c = true) : c ≠ '<' ∧ c ≠ '>' := by
  constructor <;> rintro rfl <;> exact absurd h (by decide)

open Dot.Reader (balancedFrom)

theorem balancedFrom_of_ne {c : Char} (h : c ≠ '<' ∧ c ≠ '>') (depth : ℕ) (rest : List Char) :
    balancedFrom depth (c :: rest) = balancedFrom depth rest := by
  cases depth <;> simp [balancedFrom, h.1, h.2]

/-- What follows the name of a tag and its attributes closes at most the bracket of the tag. -/
theorem balancedFrom_stepAttrs {r r' : Reader} {tag : String} {attrs : List (String × String)}
    {c : Char} (h : r.stepAttrs tag attrs c = some r') (rest : List Char) :
    balancedFrom 1 (c :: rest) = balancedFrom r'.mode.depth rest := by
  unfold Reader.stepAttrs at h
  split_ifs at h with hblank hend
  · cases h
    rw [hblank]
    exact balancedFrom_of_ne (by decide) 1 rest
  · cases h
    rw [hend]
    rfl

theorem mode_of_closeTag {r r' : Reader} {tag : String} (h : r.closeTag tag = some r') :
    r'.mode = .content := by
  unfold Reader.closeTag at h
  split at h
  · cases h
  · split_ifs at h
    cases h
    rfl

/-- An angle bracket opens between tags only, and closes in tags only. -/
theorem balancedFrom_step {r r' : Reader} {c : Char} (h : r.step c = some r') (rest : List Char) :
    balancedFrom r.mode.depth (c :: rest) = balancedFrom r'.mode.depth rest := by
  obtain ⟨mode, frames, content⟩ := r
  cases mode with
  | content =>
    simp only [Reader.step] at h
    split_ifs at h with hopen hclose
    · cases h
      rw [hopen]
      rfl
    · cases h
      exact balancedFrom_of_ne ⟨hopen, hclose⟩ 0 rest
  | opening tag =>
    simp only [Reader.step] at h
    split_ifs at h with hupper hnil hslash
    · cases h
      exact balancedFrom_of_ne (ne_bracket_of_isUpper hupper) 1 rest
    · cases h
      rw [hslash]
      exact balancedFrom_of_ne (by decide) 1 rest
    · exact balancedFrom_stepAttrs h rest
  | closing tag =>
    simp only [Reader.step] at h
    split_ifs at h with hupper hend
    · cases h
      exact balancedFrom_of_ne (ne_bracket_of_isUpper hupper) 1 rest
    · rw [mode_of_closeTag h, hend.1]
      rfl
  | key tag attrs read =>
    simp only [Reader.step] at h
    split_ifs at h with hupper hequals
    · cases h
      exact balancedFrom_of_ne (ne_bracket_of_isUpper hupper) 1 rest
    · cases h
      rw [hequals.1]
      exact balancedFrom_of_ne (by decide) 1 rest
  | equals tag attrs key =>
    simp only [Reader.step] at h
    split_ifs at h with hquote
    cases h
    rw [hquote]
    exact balancedFrom_of_ne (by decide) 1 rest
  | value tag attrs key read =>
    simp only [Reader.step] at h
    split_ifs at h with hquote hbracket
    · cases h
      rw [hquote]
      exact balancedFrom_of_ne (by decide) 1 rest
    · cases h
      exact balancedFrom_of_ne (not_or.1 hbracket) 1 rest
  | attrs tag attrs => exact balancedFrom_stepAttrs h rest

theorem balancedFrom_reads {r r' : Reader} {text : List Char} (h : r.Reads text r') :
    balancedFrom r.mode.depth text = (r'.mode.depth == 0) := by
  induction text generalizing r with
  | nil =>
    cases h
    rfl
  | cons c rest ih =>
    obtain ⟨next, hstep, hrest⟩ := Reader.reads_cons_iff.1 h
    rw [balancedFrom_step hstep, ih hrest]

/-- In a text that can be read the angle brackets are balanced. -/
theorem balanced_of_read {s : String} {content : List Markup} (h : read s = some content) :
    balancedFrom 0 s.toList = true :=
  balancedFrom_reads (read_eq_some_iff.1 h)

/-! ### Tables -/

/-- The names of tags and attributes are in capital letters. -/
def IsKey (key : String) : Prop := key ≠ "" ∧ ∀ c ∈ key.toList, Text.isUpper c = true

/-- The values of attributes have no quotes and no angle brackets. -/
def IsValue (value : String) : Prop := ∀ c ∈ value.toList, c ≠ '"' ∧ c ≠ '<' ∧ c ≠ '>'

theorem IsKey.toList_ne_nil {key : String} (h : IsKey key) : key.toList ≠ [] :=
  fun hnil => h.1 (String.toList_eq_nil_iff.1 hnil)

-- only the characters that are there are tried
instance (key : String) : Decidable (IsKey key) :=
  @instDecidableAnd _ _ inferInstance (List.decidableBAll _ key.toList)

instance (value : String) : Decidable (IsValue value) := List.decidableBAll _ value.toList

/-- The elements of tables: a row stands in a table, a cell in a row and a table in a cell. -/
def nesting : List (String × String) := [("TABLE", "TR"), ("TR", "TD"), ("TD", "TABLE")]

/-- A piece of markup may stand in an element, and so may what it has inside. -/
inductive IsIn : (outer : String) → Markup → Prop
  | char {c : Char} (h : c ≠ '<' ∧ c ≠ '>') : IsIn "TD" (.char c)
  | element {outer tag : String} {attrs : List (String × String)} {content : List Markup}
      (htag : (outer, tag) ∈ nesting) (hattrs : ∀ a ∈ attrs, IsKey a.1 ∧ IsValue a.2)
      (hcontent : ∀ x ∈ content, IsIn tag x) : IsIn outer (.element tag attrs content)

theorem isIn_element_iff {outer tag : String} {attrs : List (String × String)}
    {content : List Markup} : IsIn outer (.element tag attrs content) ↔ (outer, tag) ∈ nesting ∧
      (∀ a ∈ attrs, IsKey a.1 ∧ IsValue a.2) ∧ ∀ x ∈ content, IsIn tag x := by
  constructor
  · rintro ⟨⟩
    exact ⟨‹_›, ‹_›, ‹_›⟩
  · rintro ⟨htag, hattrs, hcontent⟩
    exact .element htag hattrs hcontent

theorem isIn_word {s : String} (h : IsValue s) {x : Markup} (hx : x ∈ word s) : IsIn "TD" x := by
  obtain ⟨c, hc, rfl⟩ := List.mem_map.1 hx
  exact .char (h c hc).2

/-! ### Reading what was written -/

namespace Reader

/-- Reading a word that goes on letter by letter. -/
theorem reads_letters {p : Char → Prop} {r : List Char → Reader}
    (hstep : ∀ read c, p c → (r read).step c = some (r (read ++ [c]))) {w : List Char}
    (h : ∀ c ∈ w, p c) (read : List Char) : (r read).Reads w (r (read ++ w)) :=
  foldlM_collect hstep h read

variable {frames : List Frame} {content : List Markup} {tag : String}
  {attrs : List (String × String)}

theorem reads_attr {a : String × String} (hkey : IsKey a.1) (hvalue : IsValue a.2) :
    Reads ⟨.attrs tag attrs, frames, content⟩
      (' ' :: (a.1.toList ++ '=' :: '"' :: (a.2.toList ++ ['"'])))
      ⟨.attrs tag (attrs ++ [a]), frames, content⟩ := by
  obtain ⟨key, value⟩ := a
  have hletters : Reads ⟨.key tag attrs [], frames, content⟩ key.toList
      ⟨.key tag attrs key.toList, frames, content⟩ :=
    reads_letters (r := fun read => ⟨.key tag attrs read, frames, content⟩)
      (fun read c hc => by simp [step, hc]) hkey.2 []
  have hequals : step ⟨.key tag attrs key.toList, frames, content⟩ '=' =
      some ⟨.equals tag attrs key, frames, content⟩ := by
    simp [step, Text.isUpper, hkey.toList_ne_nil]
  have hplain : Reads ⟨.value tag attrs key [], frames, content⟩ value.toList
      ⟨.value tag attrs key value.toList, frames, content⟩ :=
    reads_letters (r := fun read => ⟨.value tag attrs key read, frames, content⟩)
      (fun read c hc => by simp [step, hc]) hvalue []
  have hquote : step ⟨.value tag attrs key value.toList, frames, content⟩ '"' =
      some ⟨.attrs tag (attrs ++ [(key, value)]), frames, content⟩ := by
    simp [step]
  exact .cons rfl (hletters.append (.cons hequals (.cons rfl (hplain.append
    (.cons hquote (reads_nil _))))))

theorem reads_attrs (attrs : List (String × String)) {more : List (String × String)}
    (h : ∀ a ∈ more, IsKey a.1 ∧ IsValue a.2) :
    Reads ⟨.attrs tag attrs, frames, content⟩ (attrsText more)
      ⟨.attrs tag (attrs ++ more), frames, content⟩ := by
  induction more generalizing attrs with
  | nil => simpa [attrsText] using reads_nil ⟨.attrs tag attrs, frames, content⟩
  | cons a more ih =>
    have ha := h a List.mem_cons_self
    have hmore := ih (attrs ++ [a]) fun b hb => h b (List.mem_cons_of_mem _ hb)
    rw [List.append_assoc] at hmore
    exact (reads_attr ha.1 ha.2).append hmore

/-- A blank or the end of the tag stands after its name, as after each of its attributes. -/
theorem step_opening (htag : IsKey tag) {c : Char} (hc : Text.isUpper c = false) :
    step ⟨.opening tag.toList, frames, content⟩ c =
      stepAttrs ⟨.opening tag.toList, frames, content⟩ tag [] c := by
  simp [step, hc, htag.toList_ne_nil]

theorem reads_name (htag : IsKey tag) {text : List Char} {r : Reader}
    (hhead : ∀ c ∈ text.head?, Text.isUpper c = false)
    (h : Reads ⟨.attrs tag [], frames, content⟩ text r) (hne : text ≠ []) :
    Reads ⟨.opening tag.toList, frames, content⟩ text r := by
  cases text with
  | nil => exact absurd rfl hne
  | cons c rest =>
    obtain ⟨r', hstep, hrest⟩ := reads_cons_iff.1 h
    refine .cons ?_ hrest
    rw [step_opening htag (hhead c rfl)]
    exact hstep

theorem head_attrsText (attrs : List (String × String)) :
    ∀ c ∈ (attrsText attrs ++ ['>']).head?, Text.isUpper c = false := by
  cases attrs <;> simp [attrsText, Text.isUpper]

theorem reads_openText (htag : IsKey tag) (hattrs : ∀ a ∈ attrs, IsKey a.1 ∧ IsValue a.2) :
    Reads ⟨.content, frames, content⟩ (openText tag attrs)
      ⟨.content, ⟨tag, attrs, content⟩ :: frames, []⟩ := by
  have hletters : Reads ⟨.opening [], frames, content⟩ tag.toList
      ⟨.opening tag.toList, frames, content⟩ :=
    reads_letters (r := fun read => ⟨.opening read, frames, content⟩)
      (fun read c hc => by simp [step, hc]) htag.2 []
  have hend : Reads ⟨.attrs tag attrs, frames, content⟩ ['>']
      ⟨.content, ⟨tag, attrs, content⟩ :: frames, []⟩ := rfl
  have hrest := reads_name htag (head_attrsText attrs) ((reads_attrs [] hattrs).append hend) (by simp)
  exact .cons rfl (hletters.append hrest)

theorem reads_closeText (htag : IsKey tag) (before : List Markup) :
    Reads ⟨.content, ⟨tag, attrs, before⟩ :: frames, content⟩ (closeText tag)
      ⟨.content, frames, before ++ [.element tag attrs content]⟩ := by
  have hletters : Reads ⟨.closing [], ⟨tag, attrs, before⟩ :: frames, content⟩ tag.toList
      ⟨.closing tag.toList, ⟨tag, attrs, before⟩ :: frames, content⟩ :=
    reads_letters (r := fun read => ⟨.closing read, ⟨tag, attrs, before⟩ :: frames, content⟩)
      (fun read c hc => by simp [step, hc]) htag.2 []
  have hend : step ⟨.closing tag.toList, ⟨tag, attrs, before⟩ :: frames, content⟩ '>' =
      some ⟨.content, frames, before ++ [.element tag attrs content]⟩ := by
    simp [step, closeTag, Text.isUpper, htag.toList_ne_nil]
  exact .cons rfl (.cons rfl (hletters.append (.cons hend (reads_nil _))))

theorem reads_flatMap (content : List Markup) {l : List Markup}
    (h : ∀ x ∈ l, ∀ content, Reads ⟨.content, frames, content⟩ x.text
      ⟨.content, frames, content ++ [x]⟩) :
    Reads ⟨.content, frames, content⟩ (l.flatMap text) ⟨.content, frames, content ++ l⟩ := by
  induction l generalizing content with
  | nil => simpa using reads_nil ⟨.content, frames, content⟩
  | cons x l ih =>
    have hrest := ih (content ++ [x]) fun y hy => h y (List.mem_cons_of_mem _ hy)
    rw [List.append_assoc] at hrest
    exact (h x List.mem_cons_self content).append hrest

theorem isKey_of_nesting {outer : String} (h : (outer, tag) ∈ nesting) : IsKey tag := by
  have hkeys : ∀ a ∈ nesting, IsKey a.2 := by decide
  exact hkeys _ h

/-- Reading what was written adds it to the content of the innermost element. -/
theorem reads_of_isIn {outer : String} {x : Markup} (h : IsIn outer x) (frames : List Frame)
    (content : List Markup) :
    Reads ⟨.content, frames, content⟩ x.text ⟨.content, frames, content ++ [x]⟩ := by
  induction h generalizing frames content with
  | @char c hc =>
    rw [text_char]
    refine .cons ?_ (reads_nil _)
    simp [step, hc.1, hc.2]
  | @element outer tag attrs inner htag hattrs hinner ih =>
    have hkey := isKey_of_nesting htag
    have hcontent := reads_flatMap [] fun x hx => ih x hx (⟨tag, attrs, content⟩ :: frames)
    rw [text_element]
    exact (reads_openText hkey hattrs).append (hcontent.append (reads_closeText hkey content))

end Reader

/-- A text is read as the table that it was written for. -/
theorem read_of_isIn {x : Markup} {outer s : String} (h : IsIn outer x) (hs : s.toList = x.text) :
    read s = some [x] := by
  rw [read_eq_some_iff, hs]
  exact Reader.reads_of_isIn h [] []

/-! ### Attributes -/

/-- The values of an attribute, in the order in which elements open. -/
def values (key : String) : Markup → List String
  | .char _ => []
  | .element _ attrs content =>
    (attrs.filter fun a => a.1 = key).map (·.2) ++ (content.map (values key)).flatten

@[simp] theorem values_element (key tag : String) (attrs : List (String × String))
    (content : List Markup) :
    (element tag attrs content).values key =
      (attrs.filter fun a => a.1 = key).map (·.2) ++ content.flatMap (values key) := by
  rw [values, List.flatMap_def]

@[simp] theorem flatMap_values_word (key s : String) : (word s).flatMap (values key) = [] := by
  rw [List.flatMap_eq_nil_iff]
  intro x hx
  obtain ⟨c, -, rfl⟩ := List.mem_map.1 hx
  rw [values]

end Markup
end ApiDiagrams
