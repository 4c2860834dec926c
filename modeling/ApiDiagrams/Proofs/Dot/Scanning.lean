import ApiDiagrams.Proofs.Dot.Quoting
import ApiDiagrams.Proofs.Dot.Reader
import Mathlib.Data.List.TakeWhile

/-!
# The tokens of written graphs

Every piece of text that a graph is written with takes the machine of the reader from between two
tokens to between two tokens, so that the tokens of pieces side by side stand side by side.

* `Lexes`: a piece and its tokens, with `Lexes.append`;
* `Ends`, `Lexes.unquoted`: a word and what ends it;
* `lexes_quoted`: a value between double quotes is one token, the restored value;
* `balancedFrom`, `lexes_html`: a text with balanced angle brackets is one token;
* `clauseTokens`, `lexes_format`: the clauses of a statement.
-/

namespace ApiDiagrams
namespace Dot
namespace Reader

theorem run_cons (m : Mode) (c : Char) (rest : List Char) :
    run m (c :: rest) =
      (step m c).bind fun r => (run r.2 rest).map fun q => (r.1 ++ q.1, q.2) := by
  rw [run]
  cases hs : step m c with
  | none => rfl
  | some r =>
    cases hr : run r.2 rest with
    | none => simp [hr]
    | some q => simp [hr]

theorem run_append (m : Mode) (a b : List Char) :
    run m (a ++ b) = (run m a).bind fun r => (run r.2 b).map fun q => (r.1 ++ q.1, q.2) := by
  induction a generalizing m with
  | nil =>
    change run m b = (run m b).map fun q => ([] ++ q.1, q.2)
    cases run m b <;> rfl
  | cons c a ih =>
    rw [List.cons_append, run_cons, run_cons]
    cases hs : step m c with
    | none => rfl
    | some r =>
      rw [Option.bind_some, Option.bind_some, ih]
      cases hr : run r.2 a with
      | none => rfl
      | some q =>
        rw [Option.bind_some, Option.map_some, Option.bind_some, Option.map_map]
        cases run q.2 b <;> simp

/-- The text takes the machine from between two tokens to between two tokens, with these tokens. -/
def Lexes (text : List Char) (ts : List Token) : Prop := run .between text = some (ts, .between)

instance (text : List Char) (ts : List Token) : Decidable (Lexes text ts) :=
  inferInstanceAs (Decidable (_ = _))

theorem Lexes.append {a b : List Char} {ts us : List Token} (ha : Lexes a ts) (hb : Lexes b us) :
    Lexes (a ++ b) (ts ++ us) := by
  unfold Lexes at *
  rw [run_append, ha, Option.bind_some, hb, Option.map_some]

/-- The tokens of a text stand before those of what follows it. -/
theorem tokens?_append {a : List Char} {ts : List Token} (h : Lexes a ts) (b : List Char) :
    tokens? (a ++ b) = (tokens? b).map (ts ++ ·) := by
  unfold tokens?
  rw [run_append, h, Option.bind_some]
  cases run .between b with
  | none => rfl
  | some r =>
    obtain ⟨us, m⟩ := r
    cases m with
    | word read => cases hw : word? read <;> simp [hw]
    | _ => simp

theorem tokens?_of_lexes {text : List Char} {ts : List Token} (h : Lexes text ts) :
    tokens? text = some ts := by
  unfold tokens?
  rw [h]

/-! ### Words -/

theorem run_word (read : List Char) {w : List Char} (h : ∀ c ∈ w, isBare c = true) :
    run (.word read) w = some ([], .word (w.reverse ++ read)) := by
  induction w generalizing read with
  | nil => rfl
  | cons c w ih =>
    rw [run_cons, step, if_pos (h c List.mem_cons_self), Option.bind_some,
      ih _ fun d hd => h d (List.mem_cons_of_mem _ hd)]
    simp

/-- A character that cannot go on with a word ends it. -/
theorem run_word_end (read : List Char) (hw : isUnquoted read.reverse = true) {c : Char}
    (hc : isBare c = false) (rest : List Char) :
    run (.word read) (c :: rest) =
      (run .between (c :: rest)).map fun r => (.word read.reverse :: r.1, r.2) := by
  rw [run_cons, run_cons, step, step, hc, if_neg Bool.false_ne_true, word?, if_pos hw,
    Option.bind_some]
  cases hs : start c with
  | none => rfl
  | some r =>
    rw [Option.map_some, Option.bind_some, Option.bind_some, Option.map_map]
    rfl

/-- The text ends a word that stands before it, and has these tokens. -/
def Ends (text : List Char) (ts : List Token) : Prop :=
  ∃ c rest, text = c :: rest ∧ isBare c = false ∧ Lexes text ts

theorem Lexes.ends {a b : List Char} {ts us : List Token} (ha : Lexes a ts) (hb : Lexes b us)
    (hc : a.head?.any (fun c => !isBare c) = true) : Ends (a ++ b) (ts ++ us) := by
  cases a with
  | nil => cases hc
  | cons c a => exact ⟨c, a ++ b, rfl, by simpa using hc, ha.append hb⟩

theorem isBare_of_isDigit {c : Char} (h : Text.isDigit c = true) : isBare c = true := by
  simp [isBare, Text.isWord, h]

theorem isBare_of_isLetter {c : Char} (h : isLetter c = true) : isBare c = true := by
  simp only [isLetter, isBare, Text.isWord, Bool.or_eq_true] at *
  tauto

theorem isBare_of_isAtom {w : List Char} (h : isAtom w = true) : ∀ c ∈ w, isBare c = true := by
  cases w with
  | nil => cases h
  | cons d w =>
    simp only [isAtom, Bool.and_eq_true, List.all_eq_true, Bool.or_eq_true] at h
    intro c hc
    rcases List.mem_cons.1 hc with rfl | hc
    · exact isBare_of_isLetter h.1
    · exact (h.2 c hc).elim isBare_of_isLetter isBare_of_isDigit

theorem isBare_of_isUnsigned {w : List Char} (h : isUnsigned w = true) :
    ∀ c ∈ w, isBare c = true := by
  have hdot : isBare '.' = true := by decide
  have hdigits : ∀ c ∈ w.takeWhile Text.isDigit, isBare c = true := fun c hc =>
    isBare_of_isDigit (List.mem_takeWhile_imp hc)
  intro c hc
  rw [← List.takeWhile_append_dropWhile (p := Text.isDigit) (l := w)] at hc
  unfold isUnsigned at h
  rcases List.mem_append.1 hc with hc | hc
  · exact hdigits c hc
  · split at h
    · rename_i hnil
      rw [hnil] at hc
      cases hc
    · rename_i d fraction hcons
      simp only [Bool.and_eq_true, beq_iff_eq, List.all_eq_true] at h
      rw [hcons] at hc
      rcases List.mem_cons.1 hc with rfl | hc
      · exact h.1.1 ▸ hdot
      · exact isBare_of_isDigit (h.1.2 c hc)

theorem ne_nil_of_isUnsigned {w : List Char} (h : isUnsigned w = true) : w ≠ [] := by
  rintro rfl
  cases h

/-- A word is made of bare characters, but for a minus sign in front. -/
theorem bare_of_isUnquoted {w : List Char} (h : isUnquoted w = true) :
    ∃ d v, (w = d :: v ∨ w = '-' :: d :: v) ∧ isBare d = true ∧ ∀ c ∈ v, isBare c = true := by
  have hsplit : ∀ u : List Char, u ≠ [] → (∀ c ∈ u, isBare c = true) →
      ∃ d v, u = d :: v ∧ isBare d = true ∧ ∀ c ∈ v, isBare c = true := by
    intro u hu hbare
    obtain ⟨d, v, rfl⟩ := List.exists_cons_of_ne_nil hu
    exact ⟨d, v, rfl, hbare d List.mem_cons_self, fun c hc => hbare c (List.mem_cons_of_mem _ hc)⟩
  rcases Bool.or_eq_true _ _ ▸ h with hatom | hnumeral
  · have hne : w ≠ [] := by
      rintro rfl
      cases hatom
    obtain ⟨d, v, rfl, hd, hv⟩ := hsplit w hne (isBare_of_isAtom hatom)
    exact ⟨d, v, Or.inl rfl, hd, hv⟩
  · unfold isNumeral at hnumeral
    split at hnumeral
    · rename_i u
      obtain ⟨d, v, rfl, hd, hv⟩ :=
        hsplit u (ne_nil_of_isUnsigned hnumeral) (isBare_of_isUnsigned hnumeral)
      exact ⟨d, v, Or.inr rfl, hd, hv⟩
    · obtain ⟨d, v, rfl, hd, hv⟩ :=
        hsplit w (ne_nil_of_isUnsigned hnumeral) (isBare_of_isUnsigned hnumeral)
      exact ⟨d, v, Or.inl rfl, hd, hv⟩

/-- A word is one token, whatever ends it. -/
theorem Lexes.unquoted {w : List Char} (hw : isUnquoted w = true) {text : List Char}
    {ts : List Token} (ht : Ends text ts) : Lexes (w ++ text) (.word w :: ts) := by
  obtain ⟨c, rest, rfl, hc, hr⟩ := ht
  obtain ⟨d, v, rfl | rfl, hd, hv⟩ := bare_of_isUnquoted hw
  · have hstart : start d = some ([], .word [d]) := if_pos hd
    have hend := run_word_end (v.reverse ++ [d]) (by simpa using hw) hc rest
    unfold Lexes at *
    rw [List.cons_append, run_cons, step, hstart, Option.bind_some, run_append, run_word [d] hv,
      Option.bind_some, hend, hr]
    simp
  · -- the hyphen could also have started an arrow
    have hne : d ≠ '>' := by
      rintro rfl
      revert hd
      decide
    have hstep : step .hyphen d = some ([], .word [d, '-']) := by
      rw [step, if_neg hne, if_pos hd]
    have hstart : start '-' = some ([], .hyphen) := by decide
    have hend := run_word_end (v.reverse ++ [d, '-']) (by simpa using hw) hc rest
    unfold Lexes at *
    rw [List.cons_append, run_cons, step, hstart, Option.bind_some, List.cons_append, run_cons,
      hstep, Option.bind_some, run_append, run_word [d, '-'] hv, Option.bind_some, hend, hr]
    simp

theorem isUnquoted_of_isIdentifier {w : List Char} (h : isIdentifier w = true) :
    isUnquoted w = true := by
  have hletter : ∀ {c : Char}, Text.isWord c = true → Text.isDigit c = false →
      isLetter c = true := by
    intro c hc hd
    simp only [Text.isWord, hd, Bool.or_false, Bool.or_eq_true] at hc
    simp only [isLetter, Bool.or_eq_true]
    tauto
  have hatom : isAtom w = true := by
    cases w with
    | nil => cases h
    | cons d w =>
      simp only [isIdentifier, isAtom, Bool.and_eq_true, Bool.not_eq_true', List.all_eq_true] at *
      refine ⟨hletter h.1.1 h.1.2, fun c hc => ?_⟩
      cases hd : Text.isDigit c with
      | true => simp
      | false => simp [hletter (h.2 c hc) hd]
  rw [isUnquoted, hatom, Bool.true_or]

theorem isIdentifier_of_isName {w : List Char} (h : isName w = true) : isIdentifier w = true := by
  simp only [isName, Bool.and_eq_true] at h
  exact h.1

/-! ### Values -/

/-- The characters that are read back of a value, when the run before it is odd or even. -/
def readBack (odd : Bool) (v : List Char) : List Char :=
  (joinLines (waiting odd ++ completeFrom odd (v.map .char))).map Text.ByteUnit.lossy

@[simp] theorem readBack_nil (odd : Bool) :
    readBack odd [] = if odd then ['\\', '\\'] else [] := by
  cases odd <;> rfl

@[simp] theorem readBack_backslash (odd : Bool) (v : List Char) :
    readBack odd ('\\' :: v) =
      if odd then '\\' :: '\\' :: readBack false v else readBack true v := by
  cases odd <;> simp [readBack, completeFrom, Text.ByteUnit.lossy]

@[simp] theorem readBack_quote (odd : Bool) (v : List Char) :
    readBack odd ('"' :: v) = (if odd then ['\\', '\\'] else []) ++ '"' :: readBack false v := by
  cases odd <;> simp [readBack, completeFrom, joinLines_cons, Text.ByteUnit.lossy]

theorem readBack_cons (odd : Bool) {c : Char} (hb : c ≠ '\\') (hq : c ≠ '"') (v : List Char) :
    readBack odd (c :: v) =
      if odd then if c = '\n' then readBack false v else '\\' :: c :: readBack false v
      else c :: readBack false v := by
  by_cases hline : c = '\n'
  · subst hline
    cases odd <;> simp [readBack, completeFrom, joinLines_cons, Text.ByteUnit.lossy]
  · cases odd <;>
      simp [readBack, completeFrom, joinLines_cons, Text.ByteUnit.lossy, hb, hq, hline]

/-- Between double quotes the machine counts backslashes as `escapeFrom` does: it stands behind an
unpaired one exactly when the run before is odd. -/
theorem run_escapeFrom (odd : Bool) (read v : List Char) :
    run (if odd then .escaped read else .quoted read) (escapeFrom odd v ++ ['"']) =
      some ([.quoted (read.reverse ++ readBack odd v)], .between) := by
  induction v generalizing odd read with
  | nil => cases odd <;> simp [escapeFrom, run, step]
  | cons c v ih =>
    by_cases hb : c = '\\'
    · subst hb
      cases odd with
      | false =>
        have := ih true read
        simpa [escapeFrom, run_cons, step] using this
      | true =>
        have := ih false ('\\' :: '\\' :: read)
        simpa [escapeFrom, run_cons, step] using this
    · by_cases hq : c = '"'
      · subst hq
        cases odd with
        | false =>
          have := ih false ('"' :: read)
          simpa [escapeFrom, run_cons, step] using this
        | true =>
          -- the run is completed by one backslash and the quote is kept by another
          have := ih false ('"' :: '\\' :: '\\' :: read)
          simpa [escapeFrom, run_cons, step] using this
      · cases odd with
        | false =>
          have := ih false (c :: read)
          simpa [escapeFrom, readBack_cons, run_cons, step, hb, hq] using this
        | true =>
          by_cases hline : c = '\n'
          · -- the line goes on
            have := ih false read
            simpa [escapeFrom, readBack_cons, run_cons, step, hb, hq, hline] using this
          · have := ih false (c :: '\\' :: read)
            simpa [escapeFrom, readBack_cons, run_cons, step, hb, hq, hline] using this

theorem toList_restored (v : String) : (restored v).toList = readBack false v.toList := by
  simp [restored, Text.Raw.lossy, complete, readBack]

theorem lexes_quoted (v : String) :
    Lexes ('"' :: (escapeFrom false v.toList ++ ['"'])) [.quoted (restored v).toList] := by
  have hstart : start '"' = some ([], .quoted []) := by decide
  have h := run_escapeFrom false [] v.toList
  unfold Lexes
  rw [run_cons, step, hstart, Option.bind_some, toList_restored]
  simpa using h

/-- Every angle bracket that closes does so for one that was opened before, and at the end all are
closed; `depth` of them are open at the start. -/
def balancedFrom : (depth : ℕ) → List Char → Bool
  | depth, [] => depth == 0
  | depth, c :: rest =>
    if c = '>' then
      match depth with
      | 0 => false
      | depth + 1 => balancedFrom depth rest
    else balancedFrom (if c = '<' then depth + 1 else depth) rest

theorem run_balanced {depth : ℕ} {t : List Char} (read : List Char)
    (h : balancedFrom depth t = true) :
    run (.html depth read) (t ++ ['>']) = some ([.html (read.reverse ++ t)], .between) := by
  induction t generalizing depth read with
  | nil =>
    have hd : depth = 0 := by simpa [balancedFrom] using h
    subst hd
    simp [run, step]
  | cons c t ih =>
    rw [List.cons_append, run_cons]
    by_cases hc : c = '>'
    · subst hc
      cases depth with
      | zero => simp [balancedFrom] at h
      | succ depth =>
        have h : balancedFrom depth t = true := by simpa [balancedFrom] using h
        simp [step, ih ('>' :: read) h]
    · have h : balancedFrom (if c = '<' then depth + 1 else depth) t = true := by
        rw [balancedFrom.eq_def] at h
        simpa [hc] using h
      simp [step, hc, ih (c :: read) h]

theorem lexes_html {t : List Char} (h : balancedFrom 0 t = true) :
    Lexes ('<' :: (t ++ ['>'])) [.html t] := by
  have hstart : start '<' = some ([], .html 0 []) := by decide
  unfold Lexes
  rw [run_cons, step, hstart, Option.bind_some, run_balanced [] h]
  rfl

/-! ### Clauses -/

/-- The token that a value is written as. -/
def Value.token : Value → Token
  | .plain text => .quoted text.toList
  | .html text => .html text.toList

@[simp] theorem Value.value?_token (v : Value) : v.token.value? = some v := by
  cases v <;> simp [Value.token, Token.value?]

/-- The tokens of clauses with commas between them. -/
def clauseTokens : Clauses → List Token
  | [] => []
  | [(k, v)] => [.word k.toList, .mark '=', v.token]
  | (k, v) :: cs => .word k.toList :: .mark '=' :: v.token :: .mark ',' :: clauseTokens cs

theorem clauseTokens_cons (k : String) (v : Value) {cs : Clauses} (h : cs ≠ []) :
    clauseTokens ((k, v) :: cs) =
      [.word k.toList, .mark '=', v.token] ++ .mark ',' :: clauseTokens cs := by
  cases cs with
  | nil => exact absurd rfl h
  | cons c cs => rfl

theorem lexes_mark {c : Char} (h : isMark c = true) : Lexes [c] [.mark c] := by
  simp only [isMark, Bool.or_eq_true, beq_iff_eq] at h
  rcases h with (((((rfl | rfl) | rfl) | rfl) | rfl) | rfl) | rfl <;> decide

theorem lexes_clause {k : String} (hk : isIdentifier k.toList = true) {v : List Char} {t : Token}
    (hv : Lexes v [t]) : Lexes (k.toList ++ '=' :: v) [.word k.toList, .mark '=', t] :=
  Lexes.unquoted (isUnquoted_of_isIdentifier hk) ((lexes_mark (by decide)).ends hv (by decide))

/-- Attributes as they are read: by name, with restored values. -/
def shown (entries : List (String × String)) : Clauses :=
  entries.map fun e => (e.1, .plain (restored e.2))

theorem toList_clause (k v : String) :
    (k ++ "=\"" ++ quoteValue v ++ "\"").toList =
      k.toList ++ '=' :: '"' :: (escapeFrom false v.toList ++ ['"']) := by
  simp

theorem lexes_entry {k : String} (hk : isIdentifier k.toList = true) (v : String) :
    Lexes (k ++ "=\"" ++ quoteValue v ++ "\"").toList
      [.word k.toList, .mark '=', Value.token (.plain (restored v))] := by
  rw [toList_clause, Value.token]
  exact lexes_clause hk (lexes_quoted v)

theorem lexes_format {a : Attrs} (h : ∀ e ∈ a.entries, isIdentifier e.1.toList = true) :
    Lexes a.format.toList (clauseTokens (shown a.entries)) := by
  obtain ⟨l⟩ := a
  unfold Attrs.format
  dsimp only at *
  induction l with
  | nil => rfl
  | cons e l ih =>
    obtain ⟨k, v⟩ := e
    have he := lexes_entry (h (k, v) List.mem_cons_self) v
    cases l with
    | nil => simpa [shown, clauseTokens] using he
    | cons x l =>
      have ih := ih fun y hy => h y (List.mem_cons_of_mem _ hy)
      have hcomma := lexes_mark (c := ',') (by decide)
      rw [List.map_cons, List.map_cons, String.intercalate_cons_cons, String.toList_append,
        String.toList_append]
      exact (he.append hcomma).append ih

end Reader
end Dot
end ApiDiagrams
