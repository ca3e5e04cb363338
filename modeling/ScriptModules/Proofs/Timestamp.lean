import Mathlib
import ScriptModules.Proofs.Text.Decimal
import ScriptModules.Timestamp

/-!
# Times that are written and read

A time is read as it was written.  There are two halves to this.  Days are turned into dates
and back: within an era the formula for the year is checked at the first and the last day of
every year, and is monotone in between.  And each part of the text ends where the next one
begins, at a character that is no digit.
-/

namespace ScriptModules.Timestamp

open Text (EndsDigits)

/-! ## Years of an era -/

/-- The days of an era before a year. -/
def yearStart (year : Nat) : Nat :=
  365 * year + year / 4 - year / 100 + year / 400

/-- The year of an era in which a day is. -/
def yearOf (dayOfEra : Nat) : Nat :=
  (dayOfEra - dayOfEra / 1460 + dayOfEra / 36524 - dayOfEra / 146096) / 365

theorem yearOf_mono {day other : Nat} (h : day ≤ other) : yearOf day ≤ yearOf other := by
  have hfours : day - day / 1460 ≤ other - other / 1460 := by omega
  have hcenturies : day / 36524 + other / 146096 ≤ other / 36524 + day / 146096 := by omega
  unfold yearOf
  omega

theorem yearOf_bounds : ∀ year < 400, yearOf (yearStart year) = year ∧
    yearOf (yearStart (year + 1) - 1) = year := by
  decide +kernel

/-- A year before a leap year has the leap day, its last one. -/
theorem yearStart_succ : ∀ year < 400, yearStart (year + 1) = yearStart year +
    if (year + 1) % 4 = 0 ∧ ((year + 1) % 100 ≠ 0 ∨ (year + 1) % 400 = 0) then 366 else 365 := by
  decide +kernel

/-- Every day before the end of some year is in that year or in one before. -/
theorem exists_year (years day : Nat) (h : day < yearStart years) :
    ∃ year < years, yearStart year ≤ day ∧ day < yearStart (year + 1) := by
  induction years with
  | zero => cases h
  | succ years ih =>
      by_cases hbefore : day < yearStart years
      · obtain ⟨year, hlt, hyear⟩ := ih hbefore
        exact ⟨year, Nat.lt_succ_of_lt hlt, hyear⟩
      · exact ⟨years, Nat.lt_succ_self years, Nat.le_of_not_lt hbefore, h⟩

/-- The year of a day is the one it is in. -/
theorem yearOf_spec {day : Nat} (h : day < 146097) : yearOf day < 400 ∧
    yearStart (yearOf day) ≤ day ∧ day < yearStart (yearOf day + 1) := by
  obtain ⟨year, hlt, hstart, hend⟩ := exists_year 400 day h
  obtain ⟨hfirst, hlast⟩ := yearOf_bounds year hlt
  have hle := yearOf_mono hstart
  have hge := yearOf_mono (Nat.le_sub_one_of_lt hend)
  have hyear : yearOf day = year := by omega
  rw [hyear]
  exact ⟨hlt, hstart, hend⟩

/-! ## Months -/

/-- The month of a year that begins with March, counted from zero. -/
def monthOf (dayOfYear : Nat) : Nat :=
  (5 * dayOfYear + 2) / 153

/-- The days of the year before a month. -/
def monthStart (month : Nat) : Nat :=
  (153 * month + 2) / 5

theorem monthOf_spec : ∀ day < 366, monthOf day < 12 ∧ monthStart (monthOf day) ≤ day ∧
    day - monthStart (monthOf day) + 1 ≤
      if monthOf day = 11 then (if day = 365 then 29 else 28)
      else if monthOf day = 1 ∨ monthOf day = 3 ∨ monthOf day = 6 ∨ monthOf day = 8 then 30
      else 31 := by
  decide +kernel

/-! ## Dates -/

/-- The year that begins with March, the month and the day of the month of a day. -/
theorem ofDays_eq (days : Int) : ∃ (era : Int) (dayOfEra : Nat), dayOfEra < 146097 ∧
    days + 719468 = era * 146097 + dayOfEra ∧
      let year := yearOf dayOfEra
      let dayOfYear := dayOfEra - yearStart year
      let month := monthOf dayOfYear
      let day := dayOfYear - monthStart month + 1
      dayOfYear < 366 ∧
        (dayOfYear = 365 → (year + 1) % 4 = 0 ∧ ((year + 1) % 100 ≠ 0 ∨ (year + 1) % 400 = 0)) ∧
        Date.ofDays days = if month < 10 then ⟨era * 400 + year, month + 3, day⟩
          else ⟨era * 400 + year + 1, month - 9, day⟩ := by
  have hera := Int.mul_fdiv_add_fmod (days + 719468) 146097
  have hnonneg := Int.fmod_nonneg_of_pos (days + 719468) (show (0 : Int) < 146097 by decide)
  have hlt := Int.fmod_lt_of_pos (days + 719468) (show (0 : Int) < 146097 by decide)
  obtain ⟨dayOfEra, hday⟩ := Int.eq_ofNat_of_zero_le hnonneg
  have hbound : dayOfEra < 146097 := by omega
  obtain ⟨hyear, hstart, hend⟩ := yearOf_spec hbound
  have hlength := yearStart_succ _ hyear
  refine ⟨(days + 719468).fdiv 146097, dayOfEra, hbound, by omega, ?_, fun hleap => ?_, ?_⟩
  · split at hlength <;> omega
  · split at hlength
    · assumption
    · omega
  · have hyearStart : yearStart (yearOf dayOfEra) =
        365 * yearOf dayOfEra + yearOf dayOfEra / 4 - yearOf dayOfEra / 100 := by
      unfold yearStart
      omega
    unfold Date.ofDays
    simp only [hday, Int.toNat_natCast]
    rw [hyearStart]
    rfl

/-- Every day has a date, and the date has that day. -/
theorem toDays_ofDays (days : Int) : (Date.ofDays days).toDays = days := by
  obtain ⟨era, dayOfEra, hbound, heq, hlt, -, hdate⟩ := ofDays_eq days
  obtain ⟨hyear, hstart, -⟩ := yearOf_spec hbound
  obtain ⟨hmonth, hday, -⟩ := monthOf_spec _ hlt
  generalize yearOf dayOfEra = year at *
  generalize hdayOfYear : dayOfEra - yearStart year = dayOfYear at *
  generalize monthOf dayOfYear = month at *
  have hera : (era * 400 + (year : Int)).fdiv 400 = era := by
    rw [Int.fdiv_eq_ediv_of_nonneg _ (by decide)]
    omega
  have hrest : (era * 400 + (year : Int)).fmod 400 = year := by
    rw [Int.fmod_eq_emod_of_nonneg _ (by decide)]
    omega
  have hpassed : yearStart year = 365 * year + year / 4 - year / 100 := by
    unfold yearStart
    omega
  unfold monthStart at hday hdate
  rw [hdate]
  unfold Date.toDays
  by_cases hlate : month < 10
  · have hmarch : ¬ month + 3 ≤ 2 := by omega
    have hafter : 2 < month + 3 := by omega
    simp only [if_pos hlate, if_neg hmarch, if_pos hafter, hera, hrest]
    omega
  · have hwinter : month - 9 ≤ 2 := by omega
    have hbefore : ¬ 2 < month - 9 := by omega
    simp only [if_neg hlate, if_pos hwinter, if_neg hbefore, Int.add_sub_cancel, hera, hrest]
    omega

/-- A date that is in the calendar. -/
structure Date.IsValid (date : Date) : Prop where
  month : 1 ≤ date.month ∧ date.month ≤ 12
  day : 1 ≤ date.day ∧ date.day ≤ daysInMonth date.year date.month

theorem isValid_ofDays (days : Int) : (Date.ofDays days).IsValid := by
  obtain ⟨era, dayOfEra, hbound, -, hlt, hleap, hdate⟩ := ofDays_eq days
  obtain ⟨hmonth, -, hday⟩ := monthOf_spec _ hlt
  generalize yearOf dayOfEra = year at *
  generalize dayOfEra - yearStart year = dayOfYear at *
  generalize monthOf dayOfYear = month at *
  rw [hdate]
  by_cases hlate : month < 10
  · have hnotFeb : month ≠ 11 := by omega
    rw [if_pos hlate]
    rw [if_neg hnotFeb] at hday
    refine ⟨⟨by simp, by simp only; omega⟩, by simp, ?_⟩
    simp only [daysInMonth]
    split at hday <;> split <;> (try split) <;> omega
  · rw [if_neg hlate]
    refine ⟨⟨by simp only; omega, by simp only; omega⟩, by simp, ?_⟩
    by_cases hfeb : month = 11
    · subst hfeb
      simp only [if_true] at hday
      have hlength : daysInMonth (era * 400 + year + 1) 2 =
          if (era * 400 + (year : Int) + 1) % 4 = 0 ∧ ((era * 400 + (year : Int) + 1) % 100 ≠ 0 ∨
            (era * 400 + (year : Int) + 1) % 400 = 0) then 29 else 28 := rfl
      show dayOfYear - monthStart 11 + 1 ≤ daysInMonth (era * 400 + year + 1) 2
      rw [hlength]
      split at hday
      · rename_i hlast
        have hdays := hleap hlast
        rw [if_pos (by omega)]
        exact hday
      · split <;> omega
    · obtain rfl : month = 10 := by omega
      exact hday

/-- The last day of the last year that dates go to. -/
def lastDay : Int := 95026236

/-- From 1970 on, days have years that can be read. -/
theorem year_ofDays {days : Int} (h : 0 ≤ days) (hl : days ≤ lastDay) :
    0 ≤ (Date.ofDays days).year ∧ isYear (Date.ofDays days).year = true := by
  obtain ⟨era, dayOfEra, hbound, heq, -, -, hdate⟩ := ofDays_eq days
  obtain ⟨hyear, hstart, hend⟩ := yearOf_spec hbound
  unfold lastDay at hl
  have hlast : era = 655 → yearOf dayOfEra ≤ 142 ∧
      (yearOf dayOfEra = 142 → monthOf (dayOfEra - yearStart (yearOf dayOfEra)) < 10) := by
    intro hera
    have hle : yearOf dayOfEra ≤ yearOf 52169 := yearOf_mono (by omega)
    have hlastYear : yearOf 52169 = 142 := by decide
    refine ⟨hlastYear ▸ hle, fun hsame => ?_⟩
    have hfirst : yearStart 142 = 51864 := by decide
    rw [hsame, hfirst, monthOf]
    omega
  generalize yearOf dayOfEra = year at *
  generalize monthOf (dayOfEra - yearStart year) = month at *
  rw [hdate]
  simp only [isYear, Bool.and_eq_true, decide_eq_true_eq]
  split <;> simp only <;> omega

/-! ## Digits at the front -/

theorem isBlank_of_isDigit {c : Char} (h : c.isDigit = true) : isBlank c = false := by
  have hbounds : 48 ≤ c.toNat ∧ c.toNat ≤ 57 := by
    simp only [Char.isDigit, Bool.and_eq_true, decide_eq_true_eq] at h
    exact h
  have hnot : ∀ n, 48 ≤ n → n ≤ 57 → isBlank (Char.ofNat n) = false := by decide +kernel
  rw [← Char.ofNat_toNat c]
  exact hnot c.toNat hbounds.1 hbounds.2

theorem trimStart_cons {c : Char} (h : isBlank c = false) (rest : List Char) :
    trimStart (c :: rest) = c :: rest := by
  simp [trimStart, h]

theorem mem_padded {width n : Nat} {c : Char} (h : c ∈ padded width n) : c.isDigit = true := by
  rcases List.mem_append.mp h with hzero | hdigit
  · rw [List.eq_of_mem_replicate hzero]
    rfl
  · rw [Nat.toString_eq_repr, Nat.toList_repr] at hdigit
    exact Text.isDigit_of_mem_toDigits hdigit

theorem length_padded {width n : Nat} (h : n < 10 ^ width) (hw : 0 < width) :
    (padded width n).length = width := by
  have hle := (Nat.length_toDigits_le_iff (b := 10) (n := n) (by decide) hw).mpr h
  simp only [padded, Nat.toString_eq_repr, Nat.toList_repr, List.length_append,
    List.length_replicate]
  omega

theorem padded_ne_nil (width n : Nat) : padded width n ≠ [] := by
  simp [padded]

theorem numeral_padded (width n : Nat) : Text.numeral 10 (padded width n) = n := by
  rw [Text.numeral_eq_ofDigitChars fun _ => mem_padded, padded, Nat.ofDigitChars_append,
    Nat.ofDigitChars_replicate_zero, Nat.mul_zero, Nat.toString_eq_repr, Nat.toList_repr,
    Nat.ofDigitChars_ten_toDigits]

/-- A number ends with its digits, or when there are enough of them. -/
theorem readNumber_append {width : Nat} {digits rest : List Char}
    (hd : ∀ c ∈ digits, c.isDigit = true) (hn : digits ≠ []) (hl : digits.length ≤ width)
    (hr : digits.length = width ∨ EndsDigits rest) :
    readNumber width (digits ++ rest) = some (Text.numeral 10 digits, rest) := by
  obtain ⟨first, more, rfl⟩ := List.exists_cons_of_ne_nil hn
  have htrim : trimStart (first :: more ++ rest) = first :: more ++ rest :=
    trimStart_cons (isBlank_of_isDigit (hd first List.mem_cons_self)) _
  have hends : EndsDigits (rest.take (width - (first :: more).length)) := by
    rcases hr with hfull | hends
    · rw [hfull, Nat.sub_self]
      exact fun c hc => nomatch hc
    · intro c hc
      rw [List.head?_take] at hc
      split at hc
      · cases hc
      · exact hends c hc
  have htaken : ((first :: more ++ rest).take width).takeWhile Char.isDigit = first :: more := by
    rw [List.take_append, List.take_of_length_le hl]
    exact Text.takeWhile_isDigit_append hd hends
  simp only [readNumber, htrim, htaken, List.cons_ne_nil, if_false, List.drop_left]

theorem readNumber_padded {width n : Nat} (h : n < 10 ^ width) (hw : 0 < width)
    (rest : List Char) : readNumber width (padded width n ++ rest) = some (n, rest) := by
  have hlength := length_padded h hw
  rw [readNumber_append (fun _ => mem_padded) (padded_ne_nil width n) hlength.le (Or.inl hlength),
    numeral_padded]

/-! ## The parts of a text -/

theorem readMark_cons {mark : Char} (h : isBlank mark = false) (rest : List Char) :
    readMark mark (mark :: rest) = some rest := by
  simp [readMark, trimStart_cons h]

theorem readYear_writeYear {year : Int} (h : 0 ≤ year) (rest : List Char) :
    readYear (writeYear year ++ '-' :: rest) = some (year, '-' :: rest) := by
  unfold writeYear
  by_cases hshort : year ≤ 9999
  · rw [if_pos ⟨h, hshort⟩]
    have hread := @readNumber_padded 4 year.toNat (by omega) (by decide) ('-' :: rest)
    obtain ⟨first, more, hpadded⟩ := List.exists_cons_of_ne_nil (padded_ne_nil 4 year.toNat)
    have hdigit : first.isDigit = true := mem_padded (hpadded ▸ List.mem_cons_self)
    rw [hpadded] at hread ⊢
    unfold readYear
    rw [List.cons_append] at hread ⊢
    rw [trimStart_cons (isBlank_of_isDigit hdigit)]
    split
    · rename_i heq
      cases heq
      cases hdigit
    · rename_i heq
      cases heq
      cases hdigit
    · rw [hread, Option.map_some]
      simp only [Int.toNat_of_nonneg h]
  · have hlong : ¬ (0 ≤ year ∧ year ≤ 9999) := fun hboth => hshort hboth.2
    rw [if_neg hlong, if_neg (Int.not_lt.mpr h), List.cons_append]
    have hends : EndsDigits ('-' :: rest) := Text.endsDigits_cons (by decide)
    have hread := @readNumber_append (padded 4 year.natAbs ++ '-' :: rest).length
      (padded 4 year.natAbs) ('-' :: rest) (fun _ => mem_padded) (padded_ne_nil 4 year.natAbs)
      (by rw [List.length_append]; exact Nat.le_add_right _ _) (Or.inr hends)
    obtain ⟨first, more, hpadded⟩ := List.exists_cons_of_ne_nil (padded_ne_nil 4 year.natAbs)
    have hdigit : first.isDigit = true := mem_padded (hpadded ▸ List.mem_cons_self)
    have hhead : (padded 4 year.natAbs ++ '-' :: rest).head?.any Char.isDigit = true := by
      simp [hpadded, hdigit]
    unfold readYear
    rw [trimStart_cons (by decide)]
    simp only [hhead, if_true, readYear.signed, hread, numeral_padded, Option.map_some]
    rw [Int.natAbs_of_nonneg h]

/-- A fraction is read with its digits, and the missing ones are zeros. -/
theorem readFraction_digits {digits : List Char} (hd : ∀ c ∈ digits, c.isDigit = true)
    (hn : digits ≠ []) (hl : digits.length ≤ 9) {rest : List Char} (hr : EndsDigits rest) :
    readFraction ('.' :: (digits ++ rest)) =
      some (Text.numeral 10 digits * 10 ^ (9 - digits.length), rest) := by
  simp only [readFraction, Text.takeWhile_isDigit_append hd hr, if_neg hn,
    List.take_of_length_le hl, List.drop_left]

theorem readFraction_writeFraction {nanos : Nat} (h : nanos < 1000000000) (rest : List Char)
    (hr : EndsDigits ('Z' :: rest)) :
    readFraction (writeFraction nanos ++ 'Z' :: rest) = some (nanos, 'Z' :: rest) := by
  have hpadded : ∀ width number : Nat, 0 < width → width ≤ 9 → number < 10 ^ width →
      readFraction ('.' :: (padded width number ++ 'Z' :: rest)) =
        some (number * 10 ^ (9 - width), 'Z' :: rest) := by
    intro width number hw hle hlt
    have hlength := length_padded hlt hw
    rw [readFraction_digits (fun _ => mem_padded) (padded_ne_nil _ _) (hlength.trans_le hle) hr,
      numeral_padded, hlength]
  unfold writeFraction
  split
  · rename_i hzero
    rw [hzero]
    rfl
  split
  · rename_i hmillis
    rw [List.cons_append, hpadded 3 _ (by decide) (by decide) (by omega)]
    have hback : nanos / 1000000 * 10 ^ (9 - 3) = nanos := by omega
    rw [hback]
  split
  · rename_i hmicros
    rw [List.cons_append, hpadded 6 _ (by decide) (by decide) (by omega)]
    have hback : nanos / 1000 * 10 ^ (9 - 6) = nanos := by omega
    rw [hback]
  · rw [List.cons_append, hpadded 9 _ (by decide) (by decide) (by omega)]
    simp

/-! ## Times -/

/-- A time from 1970 on, of a date that can be read, and not in a leap second. -/
structure IsReadable (t : Timestamp) : Prop where
  nonneg : 0 ≤ t.seconds
  date : t.seconds.fdiv 86400 ≤ lastDay
  nanos : t.nanos < 1000000000

/-- Such a time is read as it was written. -/
theorem read?_write {t : Timestamp} (h : t.IsReadable) : read? t.write = some t := by
  obtain ⟨hseconds, hlast, hnanos⟩ := h
  have hdays : 0 ≤ t.seconds.fdiv 86400 := by
    rw [Int.fdiv_eq_ediv_of_nonneg _ (by decide)]
    omega
  have hsplit := Int.mul_fdiv_add_fmod t.seconds 86400
  have hnonneg := Int.fmod_nonneg_of_pos t.seconds (show (0 : Int) < 86400 by decide)
  have hlt := Int.fmod_lt_of_pos t.seconds (show (0 : Int) < 86400 by decide)
  obtain ⟨second, hsecond⟩ := Int.eq_ofNat_of_zero_le hnonneg
  obtain ⟨hyear, hisYear⟩ := year_ofDays hdays hlast
  obtain ⟨hmonth, hday⟩ := isValid_ofDays (t.seconds.fdiv 86400)
  have hback := toDays_ofDays (t.seconds.fdiv 86400)
  have hlength : daysInMonth (Date.ofDays (t.seconds.fdiv 86400)).year
      (Date.ofDays (t.seconds.fdiv 86400)).month ≤ 31 := by
    unfold daysInMonth
    split
    · split <;> decide
    · split <;> decide
  have hnoLeap : ¬ 1000000000 ≤ t.nanos := by omega
  have hfraction := readFraction_writeFraction hnanos []
    (Text.endsDigits_cons (c := 'Z') (by decide))
  generalize hdate : Date.ofDays (t.seconds.fdiv 86400) = date at *
  have hpair : ∀ (number : Nat) (rest : List Char), number < 100 →
      readNumber 2 (padded 2 number ++ rest) = some (number, rest) :=
    fun number rest hnumber => readNumber_padded hnumber (by decide) rest
  have hhyphen : isBlank '-' = false := by decide
  have hcolon : isBlank ':' = false := by decide
  have hzone : readZone ['Z'] = some (0, []) := by decide
  have hend : trimStart [] = [] := rfl
  have hmonths := fun rest => hpair date.month rest (by omega)
  have hday' := fun rest => hpair date.day rest (by omega)
  have hhours := fun rest => hpair (second / 3600) rest (by omega)
  have hminutes := fun rest => hpair (second / 60 % 60) rest (by omega)
  have hrest := fun rest => hpair (second % 60) rest (by omega)
  have hsum : 86400 * Date.toDays ⟨date.year, date.month, date.day⟩ +
      (3600 * ((second / 3600 : Nat) : Int) + 60 * ((second / 60 % 60 : Nat) : Int) +
        ((second % 60 : Nat) : Int)) - 0 = t.seconds := by
    rw [hback]
    omega
  have hnot60 : ¬ second % 60 = 60 := by omega
  simp only [write, hdate, read?, hsecond, Int.toNat_natCast, if_neg hnoLeap, Nat.mod_eq_of_lt hnanos,
    Nat.add_zero, List.append_assoc, List.cons_append, bind, Option.bind,
    readYear_writeYear hyear, readMark_cons hhyphen, readMark_cons hcolon, hmonths, hday', hhours,
    hminutes, hrest, hfraction, hzone, hend, true_or, if_true, if_neg hnot60, Nat.sub_zero]
  rw [if_pos ⟨trivial, hisYear, hmonth.1, hmonth.2, hday.1, hday.2, by omega, by omega, by omega⟩,
    hsum, hdate, if_pos hisYear]
  rfl

/-- The characters that times are written with. -/
def IsWritten (c : Char) : Prop :=
  c.isDigit = true ∨ c ∈ ['-', '+', 'T', ':', '.', 'Z']

theorem isWritten_padded (width n : Nat) : ∀ c ∈ padded width n, IsWritten c :=
  fun _ hc => Or.inl (mem_padded hc)

theorem isWritten_writeYear (year : Int) : ∀ c ∈ writeYear year, IsWritten c := by
  unfold writeYear
  split
  · exact isWritten_padded 4 _
  · refine List.forall_mem_cons.mpr ⟨Or.inr ?_, isWritten_padded 4 _⟩
    split <;> simp

theorem isWritten_writeFraction (nanos : Nat) : ∀ c ∈ writeFraction nanos, IsWritten c := by
  have hpoint : IsWritten '.' := Or.inr (by simp)
  unfold writeFraction
  split
  · exact fun c hc => nomatch hc
  split
  · exact List.forall_mem_cons.mpr ⟨hpoint, isWritten_padded 3 _⟩
  split
  · exact List.forall_mem_cons.mpr ⟨hpoint, isWritten_padded 6 _⟩
  · exact List.forall_mem_cons.mpr ⟨hpoint, isWritten_padded 9 _⟩

/-- A time is written with them only. -/
theorem isWritten_write (t : Timestamp) : ∀ c ∈ t.write, IsWritten c := by
  have hmarks : ∀ c ∈ ['-', 'T', ':', 'Z'], IsWritten c := by
    simp [IsWritten]
  obtain ⟨hhyphen, htime, hcolon, hzone⟩ : IsWritten '-' ∧ IsWritten 'T' ∧ IsWritten ':' ∧
      IsWritten 'Z' := by simpa using hmarks
  simp only [write, List.forall_mem_append, List.forall_mem_cons]
  refine ⟨⟨⟨⟨⟨⟨⟨isWritten_writeYear _, hhyphen, ?_⟩, hhyphen, ?_⟩, htime, ?_⟩, hcolon, ?_⟩,
    hcolon, ?_⟩, isWritten_writeFraction _⟩, hzone, fun c hc => nomatch hc⟩
  all_goals exact isWritten_padded 2 _

end ScriptModules.Timestamp
