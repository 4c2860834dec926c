import ApiDiagrams.Time.Moment
import ApiDiagrams.Proofs.Text.Ascii

/-!
# Moments as text and back

A moment is cut into a day and a time of day, the day into a year, a month and a day of the month.
The numbers have fixed widths, so that each is read where it was written; only the fraction of a
second loses its trailing zeros, which the missing digits stand for.

* `digits?_decimalDigits`, `fraction_fractionText`, `clock?_text`: numbers and times of day;
* `yearOfDay_spec`, `monthOfDay_spec`: the year of a day and the month in it;
* `date?_day`: dates are read back;
* `Moment.parse?_text`: moments that can be written are read back; `Moment.mem_text`: with which
  characters they are written.
-/

namespace ApiDiagrams
namespace Time

/-! ### Numbers and times of day -/

theorem digits?_decimalDigits {width n : ℕ} (hw : 0 < width) (hn : n < 10 ^ width)
    (rest : List Char) :
    digits? width (Text.decimalDigits '0' width n ++ rest) = some (n, rest) := by
  have hlen := Text.length_decimalDigits hw hn
  have htake : (Text.decimalDigits '0' width n ++ rest).take width =
      Text.decimalDigits '0' width n := List.take_left' hlen
  have hdrop : (Text.decimalDigits '0' width n ++ rest).drop width = rest := List.drop_left' hlen
  have hdigits : (Text.decimalDigits '0' width n).all Text.isDigit = true :=
    List.all_eq_true.2 fun c hc => Text.isDigit_of_mem_decimalDigits hc
  rw [digits?, htake, hdrop, hlen, hdigits, Text.decimalNumber_decimalDigits]
  simp

theorem after?_cons (c : Char) (rest : List Char) : after? c (c :: rest) = some rest := by
  simp [after?]

/-- The fraction of a second is read back, and the zeros that were left out count. -/
theorem fraction_fractionText {nanos : ℕ} (h : nanos < second) (rest : List Char) :
    fraction (Moment.fractionText nanos ++ 'Z' :: rest) = (nanos, 'Z' :: rest) := by
  by_cases h0 : nanos = 0
  · subst h0
    cases rest <;> simp [Moment.fractionText, fraction]
  · obtain ⟨k, hk⟩ := Text.exists_dropTrailing_zeros (Text.decimalDigits '0' 9 nanos)
    have hlen : (Text.decimalDigits '0' 9 nanos).length = 9 :=
      Text.length_decimalDigits (by norm_num) h
    have hnumber := Text.decimalNumber_decimalDigits 9 nanos
    have hdigits : ∀ c ∈ Text.dropTrailing (· == '0') (Text.decimalDigits '0' 9 nanos),
        Text.isDigit c = true := by
      intro c hc
      have hmem : c ∈ Text.decimalDigits '0' 9 nanos := by
        rw [hk]
        exact List.mem_append_left _ hc
      exact Text.isDigit_of_mem_decimalDigits hmem
    rw [Moment.fractionText, beq_eq_false_iff_ne.2 h0]
    generalize Text.dropTrailing (· == '0') (Text.decimalDigits '0' 9 nanos) = ds at *
    rw [hk, List.length_append, List.length_replicate] at hlen
    rw [hk, Text.decimalNumber_append_zeros] at hnumber
    cases ds with
    | nil => exact absurd hnumber.symm (by simpa [Text.decimalNumber] using h0)
    | cons d ds =>
      have hspan : Text.span Text.isDigit (d :: (ds ++ 'Z' :: rest)) = (d :: ds, 'Z' :: rest) :=
        Text.span_append hdigits (by simp +decide)
      have htake : (d :: ds).take 9 = d :: ds := List.take_of_length_le (by omega)
      have hmissing : 9 - (d :: ds).length = k := by omega
      simp only [Bool.false_eq_true, if_false, List.cons_append, fraction, beq_self_eq_true,
        Bool.true_or, hdigits d List.mem_cons_self, Bool.and_self, if_true, hspan, htake, hmissing]
      rw [Nat.mul_comm, ← hnumber]
      rfl

/-- The text of a time of day, in nanoseconds. -/
def clockText (time : ℕ) : List Char :=
  let seconds := time / second
  Text.decimalDigits '0' 2 (seconds / 3600) ++ ':' ::
    (Text.decimalDigits '0' 2 (seconds / 60 % 60) ++ ':' ::
      (Text.decimalDigits '0' 2 (seconds % 60) ++ Moment.fractionText (time % second)))

theorem clock?_text {time : ℕ} (h : time < 86400 * second) (rest : List Char) :
    clock? (clockText time ++ 'Z' :: rest) = some (time, 'Z' :: rest) := by
  have hday : time / second < 86400 := Nat.div_lt_of_lt_mul (by rwa [Nat.mul_comm])
  have hfraction := fraction_fractionText (Nat.mod_lt time (by decide : 0 < second)) rest
  have htime : time / second * second + time % second = time := Nat.div_add_mod' time second
  rw [clockText]
  generalize time / second = seconds at *
  have hh : seconds / 3600 < 24 := by omega
  have hm : seconds / 60 % 60 < 60 := by omega
  have hs : seconds % 60 < 60 := by omega
  have hsum : (seconds / 3600 * 60 + seconds / 60 % 60) * 60 + seconds % 60 = seconds := by omega
  have two : ∀ n < 60, ∀ rest, digits? 2 (Text.decimalDigits '0' 2 n ++ rest) = some (n, rest) :=
    fun n hn => digits?_decimalDigits (by norm_num) (by omega)
  simp only [List.append_assoc, List.cons_append, clock?, hour?, two _ (hh.trans (by norm_num)),
    Option.some_or, Option.bind_eq_bind, Option.bind_some, after?_cons, two _ hm, two _ hs,
    hfraction, hh, hm, hs, decide_true, Bool.and_self, if_true, hsum, htime]

/-! ### The calendar -/

/-- The length of a year tells leap years. -/
theorem daysBeforeYear_succ (year : ℕ) :
    daysBeforeYear (year + 1) = daysBeforeYear year + if isLeap year then 366 else 365 := by
  have h4 : (year + 1 + 3) / 4 = (year + 3) / 4 + if year % 4 = 0 then 1 else 0 := by
    split_ifs <;> omega
  have h100 : (year + 1 + 99) / 100 = (year + 99) / 100 + if year % 100 = 0 then 1 else 0 := by
    split_ifs <;> omega
  have h400 : (year + 1 + 399) / 400 = (year + 399) / 400 + if year % 400 = 0 then 1 else 0 := by
    split_ifs <;> omega
  have hle : (year + 99) / 100 ≤ 365 * year + (year + 3) / 4 := by omega
  have hleap : isLeap year = true ↔ year % 4 = 0 ∧ (year % 100 ≠ 0 ∨ year % 400 = 0) := by
    simp [isLeap]
  unfold daysBeforeYear
  rw [h4, h100, h400]
  by_cases h : isLeap year = true
  · obtain ⟨hfour, hcentury⟩ := hleap.1 h
    rw [if_pos h, if_pos hfour]
    split_ifs <;> omega
  · rw [if_neg h]
    rw [hleap] at h
    split_ifs <;> omega

theorem daysBeforeYear_mono : Monotone daysBeforeYear :=
  monotone_nat_of_le_succ fun year => by
    rw [daysBeforeYear_succ]
    exact Nat.le_add_right _ _

/-- Each turn of the search goes on by a year, until the year is the one of the day. -/
theorem foldl_nextYear {day first : ℕ} (h : daysBeforeYear first ≤ day) (turns : ℕ) :
    ∃ year, (List.range turns).foldl
        (fun y _ => if daysBeforeYear (y + 1) ≤ day then y + 1 else y) first = year ∧
      daysBeforeYear year ≤ day ∧
      (day < daysBeforeYear (year + 1) ∨ year = first + turns) := by
  induction turns with
  | zero => exact ⟨first, rfl, h, Or.inr rfl⟩
  | succ turns ih =>
    obtain ⟨year, hyear, hle, hnext⟩ := ih
    rw [List.range_succ, List.foldl_append, hyear, List.foldl_cons, List.foldl_nil]
    split_ifs with hstep
    · exact ⟨year + 1, rfl, hstep, Or.inr (by omega)⟩
    · exact ⟨year, rfl, hle, Or.inl (by omega)⟩

/-- The year of a day is the one that the day lies in. -/
theorem yearOfDay_spec {day : ℕ} (h : day < daysBeforeYear 10000) :
    daysBeforeYear (Moment.yearOfDay day) ≤ day ∧
      day < daysBeforeYear (Moment.yearOfDay day + 1) := by
  have hfirst : daysBeforeYear (day / 366) ≤ day := by
    unfold daysBeforeYear
    omega
  obtain ⟨year, hyear, hle, hnext⟩ := foldl_nextYear hfirst 30
  obtain rfl : Moment.yearOfDay day = year := hyear
  refine ⟨hle, hnext.resolve_right fun hend => ?_⟩
  -- the years fall behind by less than thirty in ten thousand years
  rw [hend] at hle
  unfold daysBeforeYear at h hle
  omega

/-- The number of days of a year before a month. -/
def daysBeforeMonth (year month : ℕ) : ℕ :=
  ((List.range (month - 1)).map fun m => daysOfMonth year (m + 1)).foldl (· + ·) 0

theorem daysBefore_eq (year month day : ℕ) : daysBefore year month day =
    daysBeforeYear year + daysBeforeMonth year month + (day - 1) := rfl

theorem daysBeforeMonth_succ (year : ℕ) {month : ℕ} (h : 1 ≤ month) :
    daysBeforeMonth year (month + 1) = daysBeforeMonth year month + daysOfMonth year month := by
  obtain ⟨k, rfl⟩ := Nat.exists_eq_add_of_le' h
  simp [daysBeforeMonth, List.range_succ]

/-- The months make up the year. -/
theorem daysBeforeMonth_thirteen (year : ℕ) :
    daysBeforeMonth year 13 = if isLeap year then 366 else 365 := by
  unfold daysBeforeMonth daysOfMonth
  cases isLeap year <;> rfl

/-- A date of a year. -/
structure IsDate (year month day : ℕ) : Prop where
  inYear : 1 ≤ month ∧ month ≤ 12
  inMonth : 1 ≤ day ∧ day ≤ daysOfMonth year month

theorem monthOfDay_spec (year fuel month day : ℕ) (hmonth : 1 ≤ month) (hfuel : month + fuel = 13)
    (hday : daysBeforeMonth year month + day < daysBeforeMonth year 13) :
    IsDate year (Moment.monthOfDay year fuel month day).1
        (Moment.monthOfDay year fuel month day).2 ∧
      daysBeforeMonth year (Moment.monthOfDay year fuel month day).1 +
        ((Moment.monthOfDay year fuel month day).2 - 1) = daysBeforeMonth year month + day := by
  induction fuel generalizing month day with
  | zero =>
    obtain rfl : month = 13 := hfuel
    omega
  | succ fuel ih =>
    rw [Moment.monthOfDay]
    split_ifs with hlt
    · exact ⟨⟨⟨hmonth, by omega⟩, Nat.succ_pos day, Nat.succ_le_of_lt hlt⟩, rfl⟩
    · have hsucc := daysBeforeMonth_succ year hmonth
      obtain ⟨hdate, hsum⟩ := ih (month + 1) (day - daysOfMonth year month) (by omega) (by omega)
        (by omega)
      exact ⟨hdate, by omega⟩

/-! ### Dates -/

theorem date?_text {year month day : ℕ} (hyear : year < 10000) (h : IsDate year month day)
    (rest : List Char) :
    date? (Text.decimalDigits '0' 4 year ++ '-' :: (Text.decimalDigits '0' 2 month ++
      '-' :: Text.decimalDigits '0' 2 day) ++ rest) = some (daysBefore year month day, rest) := by
  obtain ⟨⟨hm1, hm2⟩, hd1, hd2⟩ := h
  have hmax : daysOfMonth year month ≤ 31 := by
    unfold daysOfMonth
    split_ifs <;> norm_num
  have two : ∀ n < 100, ∀ rest, digits? 2 (Text.decimalDigits '0' 2 n ++ rest) = some (n, rest) :=
    fun n hn => digits?_decimalDigits (by norm_num) hn
  simp only [List.append_assoc, List.cons_append, date?, digits?_decimalDigits (by norm_num : 0 < 4) hyear, Option.bind_eq_bind,
    Option.bind_some, after?_cons, two month (by omega), two day (by omega), hm1, hm2, hd1, hd2,
    decide_true, Bool.and_self, if_true]

/-- The text of the date of a day. -/
def dateText (day : ℕ) : List Char :=
  let year := Moment.yearOfDay day
  let date := Moment.monthOfDay year 12 1 (day - daysBeforeYear year)
  Text.decimalDigits '0' 4 year ++ '-' :: (Text.decimalDigits '0' 2 date.1 ++
    '-' :: Text.decimalDigits '0' 2 date.2)

/-- The date of a day is read back. -/
theorem date?_day {day : ℕ} (h : day < daysBeforeYear 10000) (rest : List Char) :
    date? (dateText day ++ rest) = some (day, rest) := by
  obtain ⟨hle, hlt⟩ := yearOfDay_spec h
  have hyear : Moment.yearOfDay day < 10000 := by
    by_contra hge
    have hmono := daysBeforeYear_mono (not_lt.1 hge)
    omega
  have hlength := daysBeforeYear_succ (Moment.yearOfDay day)
  have hthirteen := daysBeforeMonth_thirteen (Moment.yearOfDay day)
  have hfirst : daysBeforeMonth (Moment.yearOfDay day) 1 = 0 := rfl
  obtain ⟨hdate, hsum⟩ := monthOfDay_spec (Moment.yearOfDay day) 12 1
    (day - daysBeforeYear (Moment.yearOfDay day)) le_rfl rfl (by omega)
  have hread := date?_text hyear hdate rest
  rw [daysBefore_eq, Nat.add_assoc, hsum, hfirst, Nat.zero_add, Nat.add_sub_cancel' hle] at hread
  exact hread

namespace Moment

/-- The nanoseconds of a day. -/
def dayLength : ℤ := (86400 * second : ℕ)

theorem text_eq (moment : ℤ) : text moment = dateText (moment / dayLength + epochDay).toNat ++
    'T' :: (clockText (moment % dayLength).toNat ++ ['Z']) := by
  rcases hdate : monthOfDay (yearOfDay (moment / dayLength + epochDay).toNat) 12 1
    ((moment / dayLength + epochDay).toNat -
      daysBeforeYear (yearOfDay (moment / dayLength + epochDay).toNat)) with ⟨month, day⟩
  simp only [dayLength] at hdate
  simp only [text, dateText, clockText, dayLength, hdate, List.append_assoc, List.cons_append]

/-- A moment that can be written is read back from its text. -/
theorem parse?_text {moment : ℤ} (h : isWritable moment = true) :
    parse? (text moment) = some moment := by
  have hlength : dayLength = 86400000000000 := rfl
  have hsecond : second = 1000000000 := rfl
  obtain ⟨hlow, hhigh⟩ : 0 ≤ moment / dayLength + epochDay ∧
      moment / dayLength + epochDay < (daysBeforeYear 10000 : ℕ) := by
    simpa [isWritable, dayLength] using h
  have hpos : 0 ≤ moment % dayLength := Int.emod_nonneg _ (by decide)
  have hlt : moment % dayLength < dayLength := Int.emod_lt_of_pos _ (by decide)
  have hsplit : moment / dayLength * dayLength + moment % dayLength = moment :=
    Int.ediv_mul_add_emod moment dayLength
  have hdate := date?_day (by omega : (moment / dayLength + epochDay).toNat < daysBeforeYear 10000)
  have hclock := clock?_text (by omega : (moment % dayLength).toNat < 86400 * second)
  rw [text_eq, parse?, hdate]
  simp only [Option.bind_eq_bind, Option.bind_some, after?_cons, hclock, zone?, List.isEmpty_nil,
    if_true, Option.some.injEq]
  rw [Int.toNat_of_nonneg hlow, Int.toNat_of_nonneg hpos, hsecond]
  rw [hlength] at hsplit ⊢
  omega

/-! ### The characters of a moment -/

theorem mem_fractionText {nanos : ℕ} {c : Char} (h : c ∈ fractionText nanos) :
    Text.isDigit c = true ∨ c = '.' := by
  unfold fractionText at h
  split_ifs at h
  · cases h
  · rcases List.mem_cons.1 h with rfl | hc
    · exact Or.inr rfl
    · obtain ⟨k, hk⟩ := Text.exists_dropTrailing_zeros (Text.decimalDigits '0' 9 nanos)
      have hmem : c ∈ Text.decimalDigits '0' 9 nanos := by
        rw [hk]
        exact List.mem_append_left _ hc
      exact Or.inl (Text.isDigit_of_mem_decimalDigits hmem)

/-- Moments are written with digits and five other characters. -/
theorem mem_text {moment : ℤ} {c : Char} (h : c ∈ text moment) :
    Text.isDigit c = true ∨ c ∈ ['-', 'T', ':', '.', 'Z'] := by
  have digits : ∀ {width n : ℕ}, c ∈ Text.decimalDigits '0' width n →
      Text.isDigit c = true ∨ c ∈ ['-', 'T', ':', '.', 'Z'] :=
    fun hc => Or.inl (Text.isDigit_of_mem_decimalDigits hc)
  simp only [text_eq, dateText, clockText, List.mem_append, List.mem_cons, List.not_mem_nil,
    or_false] at h
  rcases h with (h | rfl | h | rfl | h) | rfl | (h | rfl | h | rfl | h | h) | rfl
  · exact digits h
  · simp
  · exact digits h
  · simp
  · exact digits h
  · simp
  · exact digits h
  · simp
  · exact digits h
  · simp
  · exact digits h
  · rcases mem_fractionText h with hc | rfl
    · exact Or.inl hc
    · simp
  · simp

end Moment
end Time
end ApiDiagrams
