import NodeProvisioner.Time.Date

/-!
# Days and dates

A day of an era lies in a century, in a group of four years, in a year, and so many days after its
start: four numbers that determine the year and the day of the year (`Parts`). The formula for the
year of an era is exact because the terms that it subtracts are the leap days up to that day; only
the last day of a leap year needs care.

Main statement: the date of a day is a valid date, and its day is that day again.
-/

namespace NodeProvisioner.Date

/-! ## Days of an era -/

/-- Where a day lies in its era: after so many centuries, groups of four years, years and days. A
year has a day with the number 365 only if it ends in a leap day. -/
structure Parts (dayOfEra century group year day : Int) : Prop where
  centuries : 0 ≤ century ∧ century ≤ 3
  groups : 0 ≤ group ∧ group ≤ 24
  years : 0 ≤ year ∧ year ≤ 3
  days : 0 ≤ day ∧ day ≤ 365
  leap : day = 365 → year = 3 ∧ (group = 24 → century = 3)
  sum : dayOfEra = 36524 * century + 1461 * group + 365 * year + day

theorem exists_parts (dayOfEra : Int) (first : 0 ≤ dayOfEra) (last : dayOfEra ≤ 146096) :
    ∃ century group year day, Parts dayOfEra century group year day := by
  obtain ⟨century, h₁⟩ : ∃ c, c = min 3 (dayOfEra / 36524) := ⟨_, rfl⟩
  obtain ⟨inCentury, h₂⟩ : ∃ r, r = dayOfEra - 36524 * century := ⟨_, rfl⟩
  obtain ⟨group, h₃⟩ : ∃ g, g = min 24 (inCentury / 1461) := ⟨_, rfl⟩
  obtain ⟨inGroup, h₄⟩ : ∃ r, r = inCentury - 1461 * group := ⟨_, rfl⟩
  obtain ⟨year, h₅⟩ : ∃ y, y = min 3 (inGroup / 365) := ⟨_, rfl⟩
  refine ⟨century, group, year, inGroup - 365 * year, ?_, ?_, ?_, ?_, ?_, ?_⟩ <;> omega

/-- The year of an era that a day lies in. -/
def yearOfEra (dayOfEra : Int) : Int :=
  (dayOfEra - dayOfEra / 1460 + dayOfEra / 36524 - dayOfEra / 146096) / 365

/-- The centuries that a day lies after. The last day of an era would count as one more. -/
theorem century_eq {dayOfEra century group year day : Int}
    (h : Parts dayOfEra century group year day) :
    dayOfEra / 36524 - dayOfEra / 146096 = century := by
  obtain ⟨centuries, groups, years, days, leap, sum⟩ := h
  -- the last day of an era is the only one that would count as a fifth century
  by_cases last : day = 365 ∧ group = 24
  · obtain ⟨rfl, rfl⟩ := last
    obtain ⟨rfl, era⟩ := leap rfl
    have := era rfl
    omega
  · have inCentury : 1461 * group + 365 * year + day ≤ 36523 := by omega
    have centuries : dayOfEra / 36524 = century := by omega
    have era : dayOfEra / 146096 = 0 := by omega
    omega

/-- **The year of an era that a day lies in.** -/
theorem yearOfEra_eq {dayOfEra century group year day : Int}
    (h : Parts dayOfEra century group year day) :
    yearOfEra dayOfEra = 100 * century + 4 * group + year := by
  have centuries := century_eq h
  obtain ⟨_, groups, years, days, leap, sum⟩ := h
  unfold yearOfEra
  rw [Int.add_sub_assoc, centuries]
  -- the day is one less than it might be if a leap day has been counted too early
  by_cases early : 24 * century + group + 365 * year + day < 1460
  · have inGroups : dayOfEra / 1460 = 25 * century + group := by omega
    rw [inGroups]
    omega
  · have inGroups : dayOfEra / 1460 = 25 * century + group + 1 := by omega
    rw [inGroups]
    omega

/-! ## Days of a year that begins in March -/

/-- The month, counted from March, that a day of the year lies in. -/
def monthFromMarch (dayOfYear : Int) : Int := (5 * dayOfYear + 2) / 153

/-- The date of a day of the year that begins in March. -/
def ofYear (year dayOfYear : Int) : Date :=
  let fromMarch := monthFromMarch dayOfYear
  let month := if fromMarch < 10 then fromMarch + 3 else fromMarch - 9
  ⟨year + (if month ≤ 2 then 1 else 0), month.toNat,
    (dayOfYear - (153 * fromMarch + 2) / 5 + 1).toNat⟩

theorem ofDays_eq {n century group year day : Int}
    (h : Parts ((n + 719468) % eraLength) century group year day) :
    ofDays n = ofYear (100 * century + 4 * group + year + (n + 719468) / eraLength * 400) day := by
  have inEra := yearOfEra_eq h
  obtain ⟨_, groups, years, days, leap, sum⟩ := h
  have inYear : (n + 719468) % eraLength - (365 * yearOfEra ((n + 719468) % eraLength)
      + yearOfEra ((n + 719468) % eraLength) / 4
      - yearOfEra ((n + 719468) % eraLength) / 100) = day := by
    rw [inEra]
    omega
  have unfolded : ofDays n = ofYear (yearOfEra ((n + 719468) % eraLength)
      + (n + 719468) / eraLength * 400) ((n + 719468) % eraLength
        - (365 * yearOfEra ((n + 719468) % eraLength)
          + yearOfEra ((n + 719468) % eraLength) / 4
          - yearOfEra ((n + 719468) % eraLength) / 100)) := rfl
  rw [unfolded, inYear, inEra]

/-- The days of the year are counted off month by month. -/
theorem toDays_ofYear (era yearOfEra : Int) {day : Int} (inEra : 0 ≤ yearOfEra ∧ yearOfEra ≤ 399)
    (inYear : 0 ≤ day ∧ day ≤ 365) :
    (ofYear (yearOfEra + era * 400) day).toDays
      = era * eraLength + (yearOfEra * 365 + yearOfEra / 4 - yearOfEra / 100 + day) - 719468 := by
  obtain ⟨fromMarch, eq⟩ : ∃ m, m = monthFromMarch day := ⟨_, rfl⟩
  have bounds : 0 ≤ fromMarch ∧ fromMarch ≤ 11 := by
    unfold monthFromMarch at eq
    omega
  have first : (153 * fromMarch + 2) / 5 ≤ day := by
    unfold monthFromMarch at eq
    omega
  unfold toDays ofYear eraLength
  rw [← eq]
  simp only
  -- January and February belong to the next year
  by_cases sameYear : fromMarch < 10
  · simp only [if_pos sameYear]
    have notYet : ¬ fromMarch + 3 ≤ 2 := by omega
    have notYet' : ¬ (fromMarch + 3).toNat ≤ 2 := by omega
    have back : (((fromMarch + 3).toNat : Int) + 9) % 12 = fromMarch := by omega
    simp only [if_neg notYet, if_neg notYet', back]
    omega
  · simp only [if_neg sameYear]
    have already : fromMarch - 9 ≤ 2 := by omega
    have already' : (fromMarch - 9).toNat ≤ 2 := by omega
    have back : (((fromMarch - 9).toNat : Int) + 9) % 12 = fromMarch := by omega
    simp only [if_pos already, if_pos already', back]
    omega

/-- **The day of the date of a day is that day.** -/
theorem toDays_ofDays (n : Int) : (ofDays n).toDays = n := by
  obtain ⟨century, group, year, day, parts⟩ :=
    exists_parts ((n + 719468) % eraLength) (by unfold eraLength; omega)
      (by unfold eraLength; omega)
  rw [ofDays_eq parts]
  obtain ⟨centuries, groups, years, days, leap, sum⟩ := parts
  rw [toDays_ofYear _ _ (by omega) days]
  have hundreds : (100 * century + 4 * group + year) / 100 = century := by omega
  have fours : (100 * century + 4 * group + year) / 4 = 25 * century + group := by omega
  rw [hundreds, fours]
  unfold eraLength at sum ⊢
  omega

/-! ## Valid dates -/

theorem isLeap_iff (year : Int) :
    isLeap year = true ↔ year % 4 = 0 ∧ (year % 100 ≠ 0 ∨ year % 400 = 0) := by
  unfold isLeap
  simp only [Bool.and_eq_true, Bool.or_eq_true, decide_eq_true_eq]

/-- The month of a year that begins in March, as it is counted from January. -/
def monthOf (fromMarch : Nat) : Nat := if fromMarch < 10 then fromMarch + 3 else fromMarch - 9

/-- A month is as long as it is to the start of the next, except for February. -/
theorem monthLength_monthOf (year : Int) : ∀ fromMarch : Nat, fromMarch < 11 →
    monthLength year (monthOf fromMarch)
      = (153 * (fromMarch + 1) + 2) / 5 - (153 * fromMarch + 2) / 5
  | 0, _ | 1, _ | 2, _ | 3, _ | 4, _ | 5, _ | 6, _ | 7, _ | 8, _ | 9, _ | 10, _ => rfl
  | _ + 11, h => absurd h (by omega)

theorem ofYear_eq {year day : Int} {fromMarch : Nat} (h : monthFromMarch day = fromMarch) :
    ofYear year day = ⟨year + (if monthOf fromMarch ≤ 2 then 1 else 0), monthOf fromMarch,
      (day - (153 * fromMarch + 2) / 5 + 1).toNat⟩ := by
  have month : (if (fromMarch : Int) < 10 then (fromMarch : Int) + 3 else fromMarch - 9)
      = (monthOf fromMarch : Int) := by
    unfold monthOf
    split <;> split <;> omega
  have small : ((monthOf fromMarch : Int) ≤ 2) = (monthOf fromMarch ≤ 2) := by
    rw [eq_iff_iff]
    omega
  unfold ofYear
  rw [h]
  simp only [month, small, Int.toNat_natCast]

/-- A day of the year that begins in March makes a valid date: there is a last day of February in
leap years only. -/
theorem isValid_ofYear {year day : Int} (inYear : 0 ≤ day ∧ day ≤ 365)
    (leap : day = 365 → isLeap (year + 1) = true) : (ofYear year day).isValid = true := by
  obtain ⟨fromMarch, eq⟩ : ∃ m : Nat, monthFromMarch day = m :=
    Int.eq_ofNat_of_zero_le (by unfold monthFromMarch; omega)
  have range : 153 * (fromMarch : Int) ≤ 5 * day + 2 ∧ 5 * day + 2 < 153 * fromMarch + 153 := by
    unfold monthFromMarch at eq
    omega
  have month : 1 ≤ monthOf fromMarch ∧ monthOf fromMarch ≤ 12 := by
    unfold monthOf
    split <;> omega
  rw [ofYear_eq eq]
  unfold isValid
  simp only [Bool.and_eq_true, decide_eq_true_eq]
  refine ⟨⟨month, by omega⟩, ?_⟩
  -- every month but February ends where the next one begins
  by_cases earlier : fromMarch < 11
  · rw [monthLength_monthOf _ fromMarch earlier]
    have start : (153 * (fromMarch : Int) + 2) / 5 = ((153 * fromMarch + 2) / 5 : Nat) := by omega
    have next : day < ((153 * (fromMarch + 1) + 2) / 5 : Nat) := by omega
    rw [start]
    omega
  · obtain rfl : fromMarch = 11 := by omega
    have days : monthLength (year + 1) 2 = if isLeap (year + 1) then 29 else 28 := rfl
    show _ ≤ monthLength (year + 1) 2
    rw [days]
    split
    · omega
    · rename_i common
      have short : day ≠ 365 := fun last => common (leap last)
      omega

/-- **The date of a day is a valid date.** -/
theorem isValid_ofDays (n : Int) : (ofDays n).isValid = true := by
  obtain ⟨century, group, year, day, parts⟩ :=
    exists_parts ((n + 719468) % eraLength) (by unfold eraLength; omega)
      (by unfold eraLength; omega)
  rw [ofDays_eq parts]
  obtain ⟨centuries, groups, years, days, leap, sum⟩ := parts
  refine isValid_ofYear days ?_
  intro last
  obtain ⟨rfl, era⟩ := leap last
  rw [isLeap_iff]
  by_cases group24 : group = 24
  · have := era group24
    omega
  · omega

/-- A date is valid in another year too, unless that year lacks a leap day. -/
theorem isValid_of_leap {d : Date} {year : Int} (valid : d.isValid = true)
    (leap : isLeap d.year = true → isLeap year = true) :
    isValid ⟨year, d.month, d.day⟩ = true := by
  have longer : monthLength d.year d.month ≤ monthLength year d.month := by
    unfold monthLength
    split
    · split
      · next h => simp [leap h]
      · split <;> decide
    all_goals exact Nat.le_refl _
  unfold isValid at valid ⊢
  simp only [Bool.and_eq_true, decide_eq_true_eq] at valid ⊢
  exact ⟨valid.1, Nat.le_trans valid.2 longer⟩

/-- The month and the day of a valid date have two digits at most. -/
theorem bounds_of_isValid {d : Date} (h : d.isValid = true) :
    (1 ≤ d.month ∧ d.month ≤ 12) ∧ 1 ≤ d.day ∧ d.day ≤ 31 := by
  unfold isValid at h
  simp only [Bool.and_eq_true, decide_eq_true_eq] at h
  obtain ⟨⟨⟨h₁, h₂⟩, h₃⟩, h₄⟩ := h
  refine ⟨⟨h₁, h₂⟩, h₃, Nat.le_trans h₄ ?_⟩
  unfold monthLength
  split
  · split <;> decide
  all_goals decide

/-! ## Dates in order -/

/-- The days of the years before a year, from the year zero on. -/
def yearStart (year : Int) : Int :=
  year / 400 * eraLength + (year % 400 * 365 + year % 400 / 4 - year % 400 / 100)

theorem yearStart_eq (year : Int) :
    yearStart year = 365 * year + (year / 4 - year / 100) + year / 400 := by
  unfold yearStart eraLength
  omega

/-- A year has 365 days at least. -/
theorem yearStart_mono {a b : Int} (le : a ≤ b) : yearStart a + 365 * (b - a) ≤ yearStart b := by
  have leapDays : a / 4 - a / 100 ≤ b / 4 - b / 100 := by omega
  have eras : a / 400 ≤ b / 400 := Int.ediv_le_ediv (by decide) le
  rw [yearStart_eq, yearStart_eq]
  omega

/-- From January on, the year that began in March is the one before. -/
theorem toDays_early {d : Date} (valid : d.isValid = true) (early : d.month ≤ 2) :
    ∃ day, 306 ≤ day ∧ day ≤ 367 ∧ d.toDays = yearStart (d.year - 1) + day - 719468 := by
  obtain ⟨⟨m₁, _⟩, d₁, d₂⟩ := bounds_of_isValid valid
  have fromMarch : ((d.month : Int) + 9) % 12 = d.month + 9 := by omega
  refine ⟨(153 * (d.month + 9) + 2) / 5 + d.day - 1, by omega, by omega, ?_⟩
  unfold toDays yearStart
  simp only [if_pos early, fromMarch]
  omega

theorem toDays_late {d : Date} (valid : d.isValid = true) (late : ¬ d.month ≤ 2) :
    ∃ day, 0 ≤ day ∧ day ≤ 305 ∧ d.toDays = yearStart d.year + day - 719468 := by
  obtain ⟨⟨_, m₂⟩, d₁, d₂⟩ := bounds_of_isValid valid
  have fromMarch : ((d.month : Int) + 9) % 12 = d.month - 3 := by omega
  refine ⟨(153 * (d.month - 3) + 2) / 5 + d.day - 1, by omega, by omega, ?_⟩
  unfold toDays yearStart
  simp only [if_neg late, fromMarch]
  omega

theorem toDays_newYear (year : Int) :
    toDays ⟨year, 1, 1⟩ = yearStart (year - 1) + 306 - 719468 := by
  simp only [toDays, yearStart, if_pos (show 1 ≤ 2 by decide)]
  omega

theorem toDays_newYearsEve (year : Int) :
    toDays ⟨year, 12, 31⟩ = yearStart year + 305 - 719468 := by
  simp only [toDays, yearStart, if_neg (show ¬ 12 ≤ 2 by decide)]
  omega

/-- A date does not come before the first day of its own year or of an earlier one. -/
theorem newYear_le_iff {d : Date} {least : Int} (valid : d.isValid = true) :
    toDays ⟨least, 1, 1⟩ ≤ d.toDays ↔ least ≤ d.year := by
  rw [toDays_newYear]
  constructor
  · refine fun first => Int.not_lt.mp fun before => ?_
    by_cases early : d.month ≤ 2
    · obtain ⟨day, _, _, eq⟩ := toDays_early valid early
      have start := yearStart_mono (show d.year - 1 ≤ least - 1 by omega)
      omega
    · obtain ⟨day, _, _, eq⟩ := toDays_late valid early
      have start := yearStart_mono (show d.year ≤ least - 1 by omega)
      omega
  · intro le
    by_cases early : d.month ≤ 2
    · obtain ⟨day, _, _, eq⟩ := toDays_early valid early
      have start := yearStart_mono (show least - 1 ≤ d.year - 1 by omega)
      omega
    · obtain ⟨day, _, _, eq⟩ := toDays_late valid early
      have start := yearStart_mono (show least - 1 ≤ d.year by omega)
      omega

/-- A date does not come after the last day of its own year or of a later one. -/
theorem le_newYearsEve_iff {d : Date} {greatest : Int} (valid : d.isValid = true) :
    d.toDays ≤ toDays ⟨greatest, 12, 31⟩ ↔ d.year ≤ greatest := by
  rw [toDays_newYearsEve]
  constructor
  · refine fun last => Int.not_lt.mp fun after => ?_
    by_cases early : d.month ≤ 2
    · obtain ⟨day, _, _, eq⟩ := toDays_early valid early
      have start := yearStart_mono (show greatest ≤ d.year - 1 by omega)
      omega
    · obtain ⟨day, _, _, eq⟩ := toDays_late valid early
      have start := yearStart_mono (show greatest ≤ d.year by omega)
      omega
  · intro le
    by_cases early : d.month ≤ 2
    · obtain ⟨day, _, _, eq⟩ := toDays_early valid early
      have start := yearStart_mono (show d.year - 1 ≤ greatest by omega)
      omega
    · obtain ⟨day, _, _, eq⟩ := toDays_late valid early
      have start := yearStart_mono (show d.year ≤ greatest by omega)
      omega

end NodeProvisioner.Date
