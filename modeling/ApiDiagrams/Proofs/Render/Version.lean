import ApiDiagrams.Proofs.Data.Keys
import ApiDiagrams.Proofs.Name
import ApiDiagrams.Proofs.Text.Ascii
import ApiDiagrams.Render.Version

/-!
# Reading the version of the layout tool

The layout tool says something like `dot - graphviz version 2.43.0 (0)`. What is looked for is the
first place where the announcing words, in any case of their letters, are followed by a digit or a
dot. The digits and dots from there on are cut at the dots, the empty pieces are left out, and the
numbers are taken up to the first that is too large.

* `Announces`, `StartsBanner`, `IsFirstRun`: the announcing words, and the first digits and dots
  that follow them;
* `findAnnounced_eq_some_iff`, `findAnnounced_eq_none_iff`: the search finds these;
* `IsFirstNumber`: the number in front of the digits and dots, which decides whether there is a
  version at all;
* `numbersOf_intercalate`: what is printed is read back;
* `parse_banner`: a printed version is read back from its banner, and every other text gives a
  version too.
-/

namespace ApiDiagrams
namespace Render
namespace Version

/-! ### Banners -/

/-- Words, in any case of their letters, that a version is announced with. -/
def Announces (words : List Char) : Prop :=
  words.map Text.foldCase = "dot version ".toList ∨
    words.map Text.foldCase = "graphviz version ".toList

/-- A digit or a dot. -/
def isDigitOrDot (c : Char) : Bool := Text.isDigit c || c == '.'

/-- The text starts with announcing words and a digit or dot. -/
def StartsBanner (text : List Char) : Prop :=
  ∃ words c rest, text = words ++ c :: rest ∧ Announces words ∧ isDigitOrDot c = true

/-- Somewhere in the text a version is announced. -/
def HoldsBanner (text : List Char) : Prop :=
  ∃ before banner, text = before ++ banner ∧ StartsBanner banner

/-- The digits and dots, all of them, that the text starts with behind announcing words. -/
def IsRun (text run : List Char) : Prop :=
  ∃ words after, text = words ++ (run ++ after) ∧ Announces words ∧ run ≠ [] ∧
    (∀ c ∈ run, isDigitOrDot c = true) ∧ ∀ c, after.head? = some c → isDigitOrDot c = false

/-- The digits and dots of the first version that is announced in the text. -/
def IsFirstRun (text run : List Char) : Prop :=
  ∃ before banner, text = before ++ banner ∧ IsRun banner run ∧
    ∀ k < before.length, ¬ StartsBanner (text.drop k)

theorem dropWord?_eq_some_iff {word text rest : List Char} :
    dropWord? word text = some rest ↔
      ∃ head, text = head ++ rest ∧ head.map Text.foldCase = word := by
  induction word generalizing text with
  | nil => simp [dropWord?]
  | cons w word ih =>
    cases text with
    | nil => simp [dropWord?]
    | cons c text =>
      constructor
      · intro h
        simp only [dropWord?, Option.ite_none_right_eq_some] at h
        obtain ⟨rfl, h⟩ := h
        obtain ⟨head, rfl, rfl⟩ := ih.1 h
        exact ⟨c :: head, rfl, rfl⟩
      · rintro ⟨head, htext, hhead⟩
        cases head with
        | nil => cases hhead
        | cons d head =>
          obtain ⟨rfl, rfl⟩ := List.cons.inj htext
          obtain ⟨rfl, rfl⟩ := List.cons.inj hhead
          simpa [dropWord?] using ih.2 ⟨head, rfl, rfl⟩

theorem dropWord?_append (word more text : List Char) :
    dropWord? (word ++ more) text = (dropWord? word text).bind (dropWord? more) := by
  induction word generalizing text with
  | nil => rfl
  | cons w word ih =>
    cases text with
    | nil => rfl
    | cons c text =>
      by_cases h : w = Text.foldCase c
      · simp [dropWord?, h, ih]
      · simp [dropWord?, h]

theorem dropWord?_disjoint {a b : Char} (h : a ≠ b) (word other text : List Char) :
    dropWord? (a :: word) text = none ∨ dropWord? (b :: other) text = none := by
  cases text with
  | nil => exact Or.inl rfl
  | cons c text =>
    by_cases ha : a = Text.foldCase c
    · exact Or.inr (if_neg fun hb => h (ha.trans hb.symm))
    · exact Or.inl (if_neg ha)

/-- The words are looked for one after the other, and the first that is found is kept. Nothing is
lost by that: no text starts with both. -/
theorem dropWord?_announcement (text : List Char) :
    ((dropWord? "dot".toList text).or (dropWord? "graphviz".toList text)).bind
        (dropWord? " version ".toList) =
      (dropWord? "dot version ".toList text).or (dropWord? "graphviz version ".toList text) := by
  have hdot : "dot version ".toList = "dot".toList ++ " version ".toList := by decide
  have hgraphviz : "graphviz version ".toList = "graphviz".toList ++ " version ".toList := by
    decide
  have hboth : dropWord? "dot".toList text = none ∨ dropWord? "graphviz".toList text = none :=
    dropWord?_disjoint (by decide) _ _ text
  rw [hdot, hgraphviz, dropWord?_append, dropWord?_append]
  generalize dropWord? "dot".toList text = dot at hboth ⊢
  generalize dropWord? "graphviz".toList text = graphviz at hboth ⊢
  rcases hboth with rfl | rfl
  · rfl
  · rw [Option.or_none, Option.bind_none, Option.or_none]

theorem announcement_eq_some_iff {text rest : List Char} :
    (dropWord? "dot version ".toList text).or (dropWord? "graphviz version ".toList text) =
        some rest ↔
      ∃ words, text = words ++ rest ∧ Announces words := by
  have hboth : dropWord? "dot version ".toList text = none ∨
      dropWord? "graphviz version ".toList text = none :=
    dropWord?_disjoint (by decide) _ _ text
  have hor : (dropWord? "dot version ".toList text).or (dropWord? "graphviz version ".toList text) =
        some rest ↔
      dropWord? "dot version ".toList text = some rest ∨
        dropWord? "graphviz version ".toList text = some rest := by
    generalize dropWord? "dot version ".toList text = dot at hboth ⊢
    generalize dropWord? "graphviz version ".toList text = graphviz at hboth ⊢
    rcases hboth with rfl | rfl <;> simp
  rw [hor, dropWord?_eq_some_iff, dropWord?_eq_some_iff, ← exists_or]
  exact exists_congr fun words => (and_or_left).symm

theorem announced?_eq_bind (text : List Char) :
    announced? text =
      ((dropWord? "dot version ".toList text).or (dropWord? "graphviz version ".toList text)).bind
        fun rest => if rest.takeWhile isDigitOrDot = [] then none else
          some (rest.takeWhile isDigitOrDot) := by
  rw [← dropWord?_announcement, Option.bind_assoc]
  refine congrArg (Option.bind _) (funext fun rest => ?_)
  refine congrArg (Option.bind _) (funext fun rest => ?_)
  rw [show (fun c => Text.isDigit c || c == '.') = isDigitOrDot from rfl]
  cases rest.takeWhile isDigitOrDot <;> rfl

theorem takeWhile_eq_iff {p : Char → Bool} {text run : List Char} :
    text.takeWhile p = run ↔
      ∃ after, text = run ++ after ∧ (∀ c ∈ run, p c = true) ∧
        ∀ c, after.head? = some c → p c = false := by
  constructor
  · rintro rfl
    refine ⟨text.dropWhile p, List.takeWhile_append_dropWhile.symm, fun c => List.mem_takeWhile_imp,
      fun c hc => ?_⟩
    have h := List.head?_dropWhile_not p text
    rwa [hc] at h
  · rintro ⟨after, rfl, hrun, hafter⟩
    rw [List.takeWhile_append_of_pos hrun]
    cases after with
    | nil => simp
    | cons c after => simp [hafter c rfl]

theorem announced?_eq_some_iff {text run : List Char} :
    announced? text = some run ↔ IsRun text run := by
  rw [announced?_eq_bind, Option.bind_eq_some_iff]
  constructor
  · rintro ⟨rest, hrest, hrun⟩
    obtain ⟨words, rfl, hwords⟩ := announcement_eq_some_iff.1 hrest
    rw [Option.ite_none_left_eq_some, Option.some.injEq] at hrun
    obtain ⟨hne, hrun⟩ := hrun
    obtain ⟨after, rfl, hmarks, hafter⟩ := takeWhile_eq_iff.1 hrun
    exact ⟨words, after, rfl, hwords, hrun ▸ hne, hmarks, hafter⟩
  · rintro ⟨words, after, rfl, hwords, hne, hmarks, hafter⟩
    have hrun := takeWhile_eq_iff.2 ⟨after, rfl, hmarks, hafter⟩
    refine ⟨run ++ after, announcement_eq_some_iff.2 ⟨words, rfl, hwords⟩, ?_⟩
    rw [hrun, if_neg hne]

theorem startsBanner_iff {text : List Char} : StartsBanner text ↔ ∃ run, IsRun text run := by
  constructor
  · rintro ⟨words, c, rest, rfl, hwords, hc⟩
    obtain ⟨after, hrest, hmarks, hafter⟩ :=
      takeWhile_eq_iff.1 (rfl : (c :: rest).takeWhile isDigitOrDot = _)
    exact ⟨_, words, after, hrest ▸ rfl, hwords, by simp [hc], hmarks, hafter⟩
  · rintro ⟨run, words, after, rfl, hwords, hne, hmarks, -⟩
    obtain ⟨c, run, rfl⟩ := List.exists_cons_of_ne_nil hne
    exact ⟨words, c, run ++ after, rfl, hwords, hmarks c List.mem_cons_self⟩

theorem announced?_eq_none_iff {text : List Char} :
    announced? text = none ↔ ¬ StartsBanner text := by
  rw [startsBanner_iff, not_exists, Option.eq_none_iff_forall_ne_some]
  exact forall_congr' fun run => not_congr announced?_eq_some_iff

theorem not_startsBanner_nil : ¬ StartsBanner [] := by
  rintro ⟨words, c, rest, h, -, -⟩
  exact absurd h.symm (List.append_ne_nil_of_right_ne_nil _ (List.cons_ne_nil _ _))

theorem holdsBanner_cons {c : Char} {text : List Char} :
    HoldsBanner (c :: text) ↔ StartsBanner (c :: text) ∨ HoldsBanner text := by
  constructor
  · rintro ⟨before, banner, h, hbanner⟩
    cases before with
    | nil => exact Or.inl (h ▸ hbanner)
    | cons d before => exact Or.inr ⟨before, banner, (List.cons.inj h).2, hbanner⟩
  · rintro (h | ⟨before, banner, rfl, hbanner⟩)
    · exact ⟨[], c :: text, rfl, h⟩
    · exact ⟨c :: before, banner, rfl, hbanner⟩

theorem isFirstRun_cons {c : Char} {text run : List Char} :
    IsFirstRun (c :: text) run ↔
      IsRun (c :: text) run ∨ ¬ StartsBanner (c :: text) ∧ IsFirstRun text run := by
  constructor
  · rintro ⟨before, banner, h, hrun, hfirst⟩
    cases before with
    | nil => exact Or.inl (h ▸ hrun)
    | cons d before =>
      refine Or.inr ⟨hfirst 0 (Nat.succ_pos _), before, banner, (List.cons.inj h).2, hrun,
        fun k hk => hfirst (k + 1) (Nat.succ_lt_succ hk)⟩
  · rintro (hrun | ⟨hstart, before, banner, rfl, hrun, hfirst⟩)
    · exact ⟨[], c :: text, rfl, hrun, fun k hk => absurd hk (Nat.not_lt_zero k)⟩
    · refine ⟨c :: before, banner, rfl, hrun, fun k hk => ?_⟩
      cases k with
      | zero => exact hstart
      | succ k => exact hfirst k (Nat.lt_of_succ_lt_succ hk)

/-- The search finds nothing exactly when no version is announced. -/
theorem findAnnounced_eq_none_iff {text : List Char} :
    findAnnounced text = none ↔ ¬ HoldsBanner text := by
  induction text with
  | nil =>
    refine iff_of_true rfl ?_
    rintro ⟨before, banner, h, hbanner⟩
    rw [(List.append_eq_nil_iff.1 h.symm).2] at hbanner
    exact not_startsBanner_nil hbanner
  | cons c text ih =>
    rw [findAnnounced, Option.or_eq_none_iff, announced?_eq_none_iff, ih, holdsBanner_cons, not_or]

/-- The search finds the digits and dots of the first version that is announced. -/
theorem findAnnounced_eq_some_iff {text run : List Char} :
    findAnnounced text = some run ↔ IsFirstRun text run := by
  induction text with
  | nil =>
    refine iff_of_false (by simp [findAnnounced]) ?_
    rintro ⟨before, banner, h, hrun, -⟩
    rw [(List.append_eq_nil_iff.1 h.symm).2] at hrun
    exact not_startsBanner_nil (startsBanner_iff.2 ⟨run, hrun⟩)
  | cons c text ih =>
    rw [findAnnounced, Option.or_eq_some_iff, announced?_eq_some_iff, announced?_eq_none_iff, ih,
      isFirstRun_cons]

/-! ### Numbers -/

/-- A number stands in front of the digits and dots, behind dots only. -/
def IsFirstNumber (run : List Char) (n : ℕ) : Prop :=
  ∃ k digits rest, run = List.replicate k '.' ++ (digits ++ rest) ∧ digits ≠ [] ∧
    (∀ c ∈ digits, Text.isDigit c = true) ∧ (∀ c, rest.head? = some c → c = '.') ∧
    Nat.ofDigitChars 10 digits 0 = n

/-- Numbers that make a version: at least one, and none below zero or too large. -/
def IsProper (numbers : List Int) : Prop :=
  numbers ≠ [] ∧ ∀ n ∈ numbers, 0 ≤ n ∧ n < 2 ^ 63

theorem half_eq : Word.half = 2 ^ 63 := rfl

theorem dot_not_mem {digits : List Char} (h : ∀ c ∈ digits, Text.isDigit c = true) :
    '.' ∉ digits := fun hdot => absurd (h _ hdot) (by decide)

/-- Dots in front only add empty pieces. -/
theorem filter_splitOn_dots (k : ℕ) (rest : List Char) :
    (Text.splitOn '.' (List.replicate k '.' ++ rest)).filter (· ≠ []) =
      (Text.splitOn '.' rest).filter (· ≠ []) := by
  induction k with
  | zero => rfl
  | succ k ih => simpa [List.replicate_succ, Text.splitOn] using ih

theorem exists_splitOn_digits {digits rest : List Char}
    (hdigits : ∀ c ∈ digits, Text.isDigit c = true) (hrest : ∀ c, rest.head? = some c → c = '.') :
    ∃ pieces, Text.splitOn '.' (digits ++ rest) = digits :: pieces := by
  cases rest with
  | nil => exact ⟨[], by rw [List.append_nil, Text.splitOn_of_not_mem (dot_not_mem hdigits)]⟩
  | cons c rest =>
    obtain rfl := hrest c rfl
    exact ⟨_, Text.splitOn_append (dot_not_mem hdigits) rest⟩

/-- The first number is written by the first piece that is not empty. -/
theorem IsFirstNumber.exists_pieces {run : List Char} {n : ℕ} (h : IsFirstNumber run n) :
    ∃ digits pieces, (Text.splitOn '.' run).filter (· ≠ []) = digits :: pieces ∧
      Text.decimalNumber digits = n := by
  obtain ⟨k, digits, rest, rfl, hne, hdigits, hrest, rfl⟩ := h
  obtain ⟨pieces, hpieces⟩ := exists_splitOn_digits hdigits hrest
  refine ⟨digits, pieces.filter (· ≠ []), ?_, Text.decimalNumber_eq digits⟩
  rw [filter_splitOn_dots, hpieces, List.filter_cons_of_pos (by simpa using hne)]

/-- A first number that is too large leaves no number at all. -/
theorem numbersOf_eq_nil {run : List Char} {n : ℕ} (h : IsFirstNumber run n) (hn : 2 ^ 63 ≤ n) :
    numbersOf run = [] := by
  obtain ⟨digits, pieces, hpieces, rfl⟩ := h.exists_pieces
  have hlarge : ¬ Text.decimalNumber digits < Word.half := Nat.not_lt.2 hn
  rw [numbersOf, hpieces, List.map_cons, List.takeWhile_cons_of_neg (by simpa using hlarge)]
  rfl

/-- Digits and dots are dots alone, or a first number stands in front. -/
theorem dots_or_isFirstNumber {run : List Char} (h : ∀ c ∈ run, isDigitOrDot c = true) :
    (∃ k, run = List.replicate k '.') ∨ ∃ n, IsFirstNumber run n := by
  obtain ⟨behind, hrun, hdots, hbehind⟩ := takeWhile_eq_iff.1 (rfl : run.takeWhile (· == '.') = _)
  have hreplicate : run.takeWhile (· == '.') =
      List.replicate (run.takeWhile (· == '.')).length '.' :=
    List.eq_replicate_iff.2 ⟨rfl, fun c hc => by simpa using hdots c hc⟩
  rw [hreplicate] at hrun
  have hmarks : ∀ c ∈ behind, isDigitOrDot c = true :=
    fun c hc => h c (hrun ▸ List.mem_append_right _ hc)
  cases behind with
  | nil => exact Or.inl ⟨_, hrun.trans (List.append_nil _)⟩
  | cons d behind =>
    have hd : Text.isDigit d = true := by
      simpa [isDigitOrDot, hbehind d rfl] using hmarks d List.mem_cons_self
    obtain ⟨rest, hsplit, hdigits, hrest⟩ :=
      takeWhile_eq_iff.1 (rfl : (d :: behind).takeWhile Text.isDigit = _)
    refine Or.inr ⟨_, _, _, rest, hsplit ▸ hrun, by simp [hd], hdigits, fun c hc => ?_, rfl⟩
    have hmem : c ∈ d :: behind := hsplit ▸ List.mem_append_right _ (List.mem_of_head? hc)
    simpa [isDigitOrDot, hrest c hc] using hmarks c hmem

theorem numbersOf_mem {run : List Char} {n : Int} (h : n ∈ numbersOf run) : 0 ≤ n ∧ n < 2 ^ 63 := by
  obtain ⟨m, hm, rfl⟩ := List.mem_map.1 h
  have hlt : m < Word.half := by simpa using List.mem_takeWhile_imp hm
  rw [half_eq] at hlt
  exact ⟨Int.natCast_nonneg m, Int.ofNat_lt.2 hlt⟩

/-- Printed numbers are read back. -/
theorem numbersOf_intercalate {numbers : List ℕ} (hne : numbers ≠ [])
    (h : ∀ n ∈ numbers, n < 2 ^ 63) :
    numbersOf (Text.intercalate ['.'] (numbers.map (Nat.toDigits 10))) =
      numbers.map Int.ofNat := by
  have hdots : ∀ p ∈ numbers.map (Nat.toDigits 10), '.' ∉ p := by
    intro p hp
    obtain ⟨n, -, rfl⟩ := List.mem_map.1 hp
    exact dot_not_mem fun c => Text.isDigit_of_mem_toDigits
  have hpieces : (numbers.map (Nat.toDigits 10)).filter (· ≠ []) =
      numbers.map (Nat.toDigits 10) := by
    refine List.filter_eq_self.2 fun p hp => ?_
    obtain ⟨n, -, rfl⟩ := List.mem_map.1 hp
    simp [Nat.toDigits_ne_nil]
  have hread : (numbers.map (Nat.toDigits 10)).map Text.decimalNumber = numbers := by
    rw [List.map_map]
    refine List.map_id'' (fun n => ?_) numbers
    rw [Function.comp_apply, Text.decimalNumber_eq, Nat.ofDigitChars_ten_toDigits]
  have hsmall : numbers.takeWhile (· < Word.half) = numbers :=
    List.takeWhile_eq_self_iff.2 fun n hn => decide_eq_true (h n hn)
  rw [numbersOf, Text.splitOn_intercalate (by simpa using hne) hdots, hpieces, hread, hsmall]

/-! ### Reading a banner -/

/-- What the layout tool says in front of its version, in any case of its letters. -/
def IsGreeting (words : String) : Prop :=
  Text.equalFold "dot - graphviz version " words = true ∨
    Text.equalFold "dot version " words = true

/-- The text does not go on with a digit or dot. -/
def EndsNumbers (suffix : String) : Prop :=
  ∀ c, suffix.toList.head? = some c → isDigitOrDot c = false

theorem StartsBanner.isPrefix {text : List Char} (h : StartsBanner text) :
    "dot version ".toList <+: text.map Text.foldCase ∨
      "graphviz version ".toList <+: text.map Text.foldCase := by
  obtain ⟨words, c, rest, rfl, hwords | hwords, -⟩ := h
  · exact Or.inl ⟨(c :: rest).map Text.foldCase, by rw [← hwords, List.map_append]⟩
  · exact Or.inr ⟨(c :: rest).map Text.foldCase, by rw [← hwords, List.map_append]⟩

/-- The name of the program does not hide the name of the package behind it. -/
theorem not_startsBanner_of_lt {words : List Char}
    (h : words.map Text.foldCase = "dot - graphviz version ".toList) (rest : List Char) {k : ℕ}
    (hk : k < 6) : ¬ StartsBanner ((words ++ rest).drop k) := by
  intro hstart
  have hprefix := hstart.isPrefix
  rw [List.map_drop, List.map_append, h] at hprefix
  interval_cases k <;> simp [List.cons_prefix_cons] at hprefix

theorem exists_announces {words : String} (h : IsGreeting words) :
    ∃ before announcing, words.toList = before ++ announcing ∧ Announces announcing ∧
      ∀ rest, ∀ k < before.length, ¬ StartsBanner ((words.toList ++ rest).drop k) := by
  rcases h with h | h
  · have hfold := (Text.equalFold_iff.1 h).symm
    refine ⟨words.toList.take 6, words.toList.drop 6, (List.take_append_drop 6 _).symm, Or.inr ?_,
      fun rest k hk => not_startsBanner_of_lt hfold rest ?_⟩
    · rw [List.map_drop, hfold]
      decide
    · exact lt_of_lt_of_le hk (List.length_take_le 6 _)
  · exact ⟨[], words.toList, rfl, Or.inl (Text.equalFold_iff.1 h).symm,
      fun rest k hk => absurd hk (Nat.not_lt_zero k)⟩

/-- Behind a greeting the search finds the digits and dots that follow it. -/
theorem findAnnounced_greeting {words : String} {run rest : List Char} (h : IsGreeting words)
    (hne : run ≠ []) (hrun : ∀ c ∈ run, isDigitOrDot c = true)
    (hrest : ∀ c, rest.head? = some c → isDigitOrDot c = false) :
    findAnnounced (words.toList ++ (run ++ rest)) = some run := by
  obtain ⟨before, announcing, hwords, hannounces, hfirst⟩ := exists_announces h
  refine findAnnounced_eq_some_iff.2 ⟨before, announcing ++ (run ++ rest), ?_,
    ⟨announcing, rest, rfl, hannounces, hne, hrun, hrest⟩, hfirst (run ++ rest)⟩
  rw [hwords, List.append_assoc]

theorem text_eq {numbers : List ℕ} (hne : numbers ≠ []) (hzero : numbers ≠ [0]) :
    text ⟨numbers.map Int.ofNat⟩ = String.intercalate "." (numbers.map Nat.repr) := by
  have hknown : isUnknown ⟨numbers.map Int.ofNat⟩ = false := by
    simpa [isUnknown, unknown] using ⟨hne, hzero⟩
  rw [text, if_neg (by simp [hknown]), List.map_map]
  rfl

theorem isDigitOrDot_of_mem {numbers : List ℕ} {c : Char}
    (h : c ∈ (String.intercalate "." (numbers.map Nat.repr)).toList) : isDigitOrDot c = true := by
  rcases Text.mem_intercalate h with h | ⟨part, hpart, hc⟩
  · obtain rfl : c = '.' := by simpa using h
    decide
  · obtain ⟨n, -, rfl⟩ := List.mem_map.1 hpart
    rw [Nat.toList_repr] at hc
    simp [isDigitOrDot, Text.isDigit_of_mem_toDigits hc]

/-- A printed version is read back from its banner. -/
theorem parse_greeting {numbers : List ℕ} {words suffix : String} (hne : numbers ≠ [])
    (hzero : numbers ≠ [0]) (h : ∀ n ∈ numbers, n < 2 ^ 63) (hwords : IsGreeting words)
    (hsuffix : EndsNumbers suffix) :
    parse (words ++ text ⟨numbers.map Int.ofNat⟩ ++ suffix) = ⟨numbers.map Int.ofNat⟩ := by
  have hlist : (String.intercalate "." (numbers.map Nat.repr)).toList =
      Text.intercalate ['.'] (numbers.map (Nat.toDigits 10)) := by
    rw [Text.toList_intercalate, List.map_map]
    exact congrArg (Text.intercalate ['.']) (List.map_congr_left fun n _ => Nat.toList_repr)
  have hnumbers := numbersOf_intercalate hne h
  have hrun : (String.intercalate "." (numbers.map Nat.repr)).toList ≠ [] := by
    intro hnil
    rw [← hlist, hnil] at hnumbers
    exact hne (List.map_eq_nil_iff.1 hnumbers.symm)
  have hfind := findAnnounced_greeting hwords hrun (fun c => isDigitOrDot_of_mem) hsuffix
  rw [text_eq hne hzero, parse, String.toList_append, String.toList_append, List.append_assoc,
    hfind, Option.map_some, hlist, hnumbers]
  obtain ⟨n, numbers, rfl⟩ := List.exists_cons_of_ne_nil hne
  rfl

/-- What is read is a version, whatever the layout tool says. -/
theorem isProper_parse (output : String) : IsProper (parse output).numbers := by
  have hunknown : IsProper unknown.numbers := by
    refine ⟨List.cons_ne_nil _ _, fun n hn => ?_⟩
    obtain rfl := List.mem_singleton.1 hn
    norm_num
  unfold parse
  split
  · rename_i n numbers h
    obtain ⟨run, -, hrun⟩ := Option.map_eq_some_iff.1 h
    exact ⟨List.cons_ne_nil _ _, fun m hm => numbersOf_mem (hrun ▸ hm)⟩
  · exact hunknown

/-- Without a banner there is no version. -/
theorem parse_eq_unknown {output : String} (h : ¬ HoldsBanner output.toList) :
    parse output = unknown := by
  rw [parse, findAnnounced_eq_none_iff.2 h]
  rfl

/-- Without a first number that can be kept there is no version. -/
theorem parse_eq_unknown_of_isFirstRun {output : String} {run : List Char}
    (h : IsFirstRun output.toList run) (hlarge : ∀ n, IsFirstNumber run n → 2 ^ 63 ≤ n) :
    parse output = unknown := by
  have hrun : ∀ c ∈ run, isDigitOrDot c = true := by
    obtain ⟨-, -, -, ⟨-, -, -, -, -, hrun, -⟩, -⟩ := h
    exact hrun
  have hnil : numbersOf run = [] := by
    rcases dots_or_isFirstNumber hrun with ⟨k, rfl⟩ | ⟨n, hn⟩
    · have hdots := filter_splitOn_dots k []
      rw [List.append_nil] at hdots
      rw [numbersOf, hdots]
      rfl
    · exact numbersOf_eq_nil hn (hlarge n hn)
  rw [parse, findAnnounced_eq_some_iff.2 h, Option.map_some, hnil]

/-- Versions and banners. A printed version is read back from its banner, whatever follows it; and
whatever the layout tool says, a version is read, the unknown one when there is no banner or no
first number that can be kept. -/
theorem parse_banner :
    (∀ (numbers : List Int) (words suffix : String), IsProper numbers → numbers ≠ [0] →
      IsGreeting words → EndsNumbers suffix →
        parse (words ++ text ⟨numbers⟩ ++ suffix) = ⟨numbers⟩) ∧
    ∀ output : String, IsProper (parse output).numbers ∧
      (¬ HoldsBanner output.toList → parse output = unknown) ∧
      ∀ run, IsFirstRun output.toList run → (∀ n, IsFirstNumber run n → 2 ^ 63 ≤ n) →
        parse output = unknown := by
  refine ⟨?_, fun output => ⟨isProper_parse output, parse_eq_unknown,
    fun run => parse_eq_unknown_of_isFirstRun⟩⟩
  rintro numbers words suffix ⟨hne, hbounds⟩ hzero hwords hsuffix
  lift numbers to List ℕ using fun n hn => (hbounds n hn).1
  have hsmall : ∀ n ∈ numbers, n < 2 ^ 63 := fun n hn => by
    exact_mod_cast (hbounds n (List.mem_map_of_mem hn)).2
  exact parse_greeting (fun h => hne (congrArg _ h)) (fun h => hzero (congrArg _ h)) hsmall hwords
    hsuffix

/-- A banner that is read, a text without one, and a banner whose first number is too large. -/
theorem parse_banner_of_graphviz :
    parse ("DOT - Graphviz Version " ++ text ⟨[2, 43, 0]⟩ ++ " (0)") = ⟨[2, 43, 0]⟩ ∧
      parse "command not found" = unknown ∧
      parse "dot version .9223372036854775808.1" = unknown := by
  refine ⟨parse_banner.1 [2, 43, 0] "DOT - Graphviz Version " " (0)" ?_ ?_ ?_ ?_,
    (parse_banner.2 _).2.1 ?_, (parse_banner.2 _).2.2 ".9223372036854775808.1".toList ?_ ?_⟩
  · exact ⟨by decide, by decide⟩
  · decide
  · exact Or.inl (by decide)
  · intro c hc
    obtain rfl : ' ' = c := by simpa using hc
    decide
  · exact findAnnounced_eq_none_iff.1 (by decide)
  · exact findAnnounced_eq_some_iff.1 (by decide)
  · intro n hn
    obtain ⟨digits, pieces, hpieces, rfl⟩ := hn.exists_pieces
    have hsplit : (Text.splitOn '.' ".9223372036854775808.1".toList).filter (· ≠ []) =
        ["9223372036854775808".toList, "1".toList] := by decide
    obtain ⟨rfl, -⟩ := List.cons.inj (hpieces.symm.trans hsplit)
    decide

end Version
end Render
end ApiDiagrams
