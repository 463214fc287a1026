import NodeProvisioner.Proofs.Codec.Records
import NodeProvisioner.Proofs.Json.Numbers
import NodeProvisioner.Proofs.Time.Dates
import NodeProvisioner.Time.Timestamp

/-!
# Timestamps are read back

A timestamp is written in the strict form of RFC 3339: every number has its full width, and there is
no space. The lenient reader reads numbers of this width in full, and finds each separator at once.

Fractions of a second are not written. So it is the second of a timestamp that is read back, if the
calendar has it, and the whole of a timestamp with whole seconds. Whatever has been read is in the
calendar.
-/

namespace NodeProvisioner.Timestamp

open Json (EndsRun endsRun_cons takeWhile_run isRun_toDigits toNat_of_isDigit)

/-! ## Numbers of a fixed width -/

/-- The digits of a number of a fixed width. -/
def paddedChars (width n : Nat) : List Char :=
  List.replicate (width - (Nat.toDigits 10 n).length) '0' ++ Nat.toDigits 10 n

theorem toList_padded (width n : Nat) : (padded width n).toList = paddedChars width n :=
  String.toList_ofList

theorem isDigit_paddedChars (width n : Nat) : ∀ c ∈ paddedChars width n, c.isDigit = true := by
  intro c mem
  rcases List.mem_append.mp mem with mem | mem
  · rw [List.eq_of_mem_replicate mem]
    rfl
  · exact (isRun_toDigits n).isDigit c mem

theorem length_paddedChars {width n : Nat} (pos : 0 < width) (h : n < Nat.pow 10 width) :
    (paddedChars width n).length = width := by
  have short := (Nat.length_toDigits_le_iff (b := 10) (by decide) pos).mpr h
  rw [paddedChars, List.length_append, List.length_replicate]
  omega

theorem digitsValue_paddedChars (width n : Nat) : digitsValue (paddedChars width n) = n := by
  have value : digitsValue (paddedChars width n)
      = Nat.ofDigitChars 10 (paddedChars width n) 0 := rfl
  rw [value, paddedChars, Nat.ofDigitChars_append, Nat.ofDigitChars_replicate_zero, Nat.mul_zero,
    Nat.ofDigitChars_ten_toDigits]

theorem paddedChars_ne_nil (width n : Nat) : paddedChars width n ≠ [] :=
  List.append_ne_nil_of_right_ne_nil _ Nat.toDigits_ne_nil

/-- A number is read in full that has no more digits than are asked for. -/
theorem number_paddedChars {most : Option Nat} {width n : Nat} (small : n < 0x8000000000000000)
    (fits : ∀ w, most = some w → (paddedChars width n).length ≤ w) {rest : List Char}
    (stop : EndsRun rest) : number most (paddedChars width n ++ rest) = .ok (n, rest) := by
  have run := takeWhile_run (isDigit_paddedChars width n) stop
  have nonempty : (paddedChars width n).isEmpty = false := by
    rw [List.isEmpty_eq_false_iff]
    exact paddedChars_ne_nil width n
  have dropped : (paddedChars width n ++ rest).drop (paddedChars width n).length = rest :=
    List.drop_left
  unfold number
  rw [run]
  split
  · rename_i eq
    exact absurd (List.append_eq_nil_iff.mp eq).1 (paddedChars_ne_nil width n)
  · cases most with
    | none =>
      simp only [nonempty, digitsValue_paddedChars, small, dropped, if_true, Bool.false_eq_true,
        if_false]
    | some w =>
      simp only [List.take_of_length_le (fits w rfl), nonempty, digitsValue_paddedChars, small,
        dropped, if_true, Bool.false_eq_true, if_false]

/-- **A number of a fixed width is read in full.** -/
theorem number_padded (width : Nat) {n : Nat} (pos : 0 < width) (h : n < Nat.pow 10 width)
    (small : n < 0x8000000000000000) {rest : List Char} (stop : EndsRun rest) :
    number (some width) (paddedChars width n ++ rest) = .ok (n, rest) := by
  refine number_paddedChars small (fun w eq => ?_) stop
  cases eq
  exact Nat.le_of_eq (length_paddedChars pos h)

/-! ## Fields and separators -/

theorem isBlank_of_isDigit {c : Char} (h : c.isDigit = true) : Text.isBlank c = false := by
  have digit := toNat_of_isDigit h
  unfold Text.isBlank
  simp only [Bool.or_eq_false_iff, Bool.and_eq_false_iff, decide_eq_false_iff_not]
  omega

/-- There is no space to take off in front of a number. -/
theorem trimLeft_padded (width n : Nat) (rest : List Char) :
    Text.trimLeft (paddedChars width n ++ rest) = paddedChars width n ++ rest := by
  have digits := isDigit_paddedChars width n
  have ne := paddedChars_ne_nil width n
  cases eq : paddedChars width n with
  | nil => exact absurd eq ne
  | cons c more =>
    have solid := isBlank_of_isDigit (digits c (eq ▸ List.mem_cons_self))
    rw [Text.trimLeft, List.cons_append, List.dropWhile_cons, solid]
    rfl

theorem field_padded {least greatest n : Nat} (h : n < 100) (range : least ≤ n ∧ n ≤ greatest)
    {rest : List Char} (stop : EndsRun rest) :
    field least greatest (paddedChars 2 n ++ rest) = .ok (n, rest) := by
  unfold field
  rw [trimLeft_padded, number_padded 2 (by decide) h (by omega) stop]
  simp only [bind, Except.bind, if_pos range]
  rfl

theorem yearField_padded {n : Nat} (h : n < 10000) {rest : List Char} (stop : EndsRun rest) :
    yearField (paddedChars 4 n ++ rest) = .ok ((n : Int), rest) := by
  have digits := isDigit_paddedChars 4 n
  have read := number_padded 4 (by decide) h (by omega) stop
  obtain ⟨bound, eq⟩ : ∃ b : Int, b = 0x80000000 := ⟨_, rfl⟩
  have range : -bound ≤ (n : Int) ∧ (n : Int) < bound := by omega
  unfold yearField
  rw [trimLeft_padded, ← eq]
  cases spelled : paddedChars 4 n with
  | nil => exact absurd spelled (paddedChars_ne_nil 4 n)
  | cons c more =>
    have digit := digits c (spelled ▸ List.mem_cons_self)
    rw [spelled, List.cons_append] at read
    rw [List.cons_append]
    split
    · rename_i sign
      cases sign
      exact absurd digit (by decide)
    · rename_i sign
      cases sign
      exact absurd digit (by decide)
    · rw [read]
      exact if_pos range

/-- A year with a sign is a number of any width. -/
theorem yearField_signed {n : Nat} (h : n ≤ 262143) {rest : List Char} (stop : EndsRun rest) :
    yearField ('-' :: (paddedChars 4 n ++ rest)) = .ok (-(n : Int), rest) ∧
      yearField ('+' :: (paddedChars 4 n ++ rest)) = .ok ((n : Int), rest) := by
  have read : number none (paddedChars 4 n ++ rest) = .ok (n, rest) := by
    refine number_paddedChars (by omega) ?_ stop
    exact fun _ => nofun
  obtain ⟨bound, eq⟩ : ∃ b : Int, b = 0x80000000 := ⟨_, rfl⟩
  have below : -bound ≤ -(n : Int) ∧ -(n : Int) < bound := by omega
  have above : -bound ≤ (n : Int) ∧ (n : Int) < bound := by omega
  constructor
  · have trimmed : Text.trimLeft ('-' :: (paddedChars 4 n ++ rest))
        = '-' :: (paddedChars 4 n ++ rest) := rfl
    unfold yearField
    rw [trimmed, ← eq]
    simp only [read]
    exact if_pos below
  · have trimmed : Text.trimLeft ('+' :: (paddedChars 4 n ++ rest))
        = '+' :: (paddedChars 4 n ++ rest) := rfl
    unfold yearField
    rw [trimmed, ← eq]
    simp only [read]
    exact if_pos above

/-- The characters of a year. -/
def yearChars (year : Int) : List Char :=
  if 0 ≤ year ∧ year ≤ 9999 then paddedChars 4 year.toNat
  else (if year < 0 then '-' else '+') :: paddedChars 4 year.natAbs

theorem toList_yearText (year : Int) : (yearText year).toList = yearChars year := by
  unfold yearText yearChars
  split
  · exact toList_padded 4 _
  · rw [String.toList_append, toList_padded]
    split <;> rfl

/-- **Every year of the calendar is read in full.** -/
theorem yearField_yearChars {year : Int} (range : -262143 ≤ year ∧ year ≤ 262142)
    {rest : List Char} (stop : EndsRun rest) :
    yearField (yearChars year ++ rest) = .ok (year, rest) := by
  unfold yearChars
  by_cases short : 0 ≤ year ∧ year ≤ 9999
  · rw [if_pos short, yearField_padded (by omega) stop, Int.toNat_of_nonneg short.1]
  · obtain ⟨minus, plus⟩ := yearField_signed (n := year.natAbs) (by omega) stop
    rw [if_neg short, List.cons_append]
    by_cases negative : year < 0
    · have value : -(year.natAbs : Int) = year := by omega
      rw [if_pos negative, minus, value]
    · have value : (year.natAbs : Int) = year := by omega
      rw [if_neg negative, plus, value]

theorem separator_self {c : Char} (solid : Text.isBlank c = false) (rest : List Char) :
    separator c (c :: rest) = .ok rest := by
  unfold separator
  rw [Text.trimLeft, List.dropWhile_cons, solid]
  simp

/-! ## The whole timestamp -/

/-- The date of a timestamp. -/
def date (t : Timestamp) : Date := Date.ofDays (t.seconds / 86400)

/-- The year of a timestamp. -/
def year (t : Timestamp) : Int := t.date.year

/-- The calendar has the second of the timestamp. In a leap second the nanoseconds count on. -/
structure IsInCalendar (t : Timestamp) : Prop where
  first : firstSecond ≤ t.seconds
  last : t.seconds ≤ lastSecond
  nanos : t.nanos < 2000000000
  leap : 1000000000 ≤ t.nanos → t.seconds % 60 = 59

/-- A timestamp with whole seconds, of a year of four digits. -/
structure IsWhole (t : Timestamp) : Prop where
  nanos : t.nanos = 0
  year : 0 ≤ t.year ∧ t.year ≤ 9999

instance (t : Timestamp) : Decidable t.IsWhole :=
  decidable_of_iff (t.nanos = 0 ∧ 0 ≤ t.year ∧ t.year ≤ 9999)
    ⟨fun ⟨h, g⟩ => ⟨h, g⟩, fun ⟨h, g⟩ => ⟨h, g⟩⟩

/-- The timestamp as it is written, without the fraction of its second. -/
def truncated (t : Timestamp) : Timestamp :=
  ⟨t.seconds, if 1000000000 ≤ t.nanos then 1000000000 else 0⟩

/-- The fields of a timestamp with their separators. -/
def fieldChars (date : Date) (hour minute second : Nat) : List Char :=
  yearChars date.year ++ '-' :: (paddedChars 2 date.month ++ '-' :: (paddedChars 2 date.day ++ 'T' ::
    (paddedChars 2 hour ++ ':' :: (paddedChars 2 minute ++ ':' :: (paddedChars 2 second ++
      ['Z'])))))

theorem parse_fieldChars {date : Date} {hour minute second : Nat} (valid : date.isValid = true)
    (hy : -262143 ≤ date.year ∧ date.year ≤ 262142) (hh : hour ≤ 23) (hmin : minute ≤ 59)
    (hs : second ≤ 60)
    (there : firstSecond ≤ date.toDays * 86400 + (hour * 3600 + minute * 60 + min second 59) ∧
      date.toDays * 86400 + (hour * 3600 + minute * 60 + min second 59) ≤ lastSecond) :
    parse (String.ofList (fieldChars date hour minute second))
      = .ok ⟨date.toDays * 86400 + (hour * 3600 + minute * 60 + min second 59),
        if second = 60 then 1000000000 else 0⟩ := by
  obtain ⟨hm, hd⟩ := Date.bounds_of_isValid valid
  have stop {c : Char} {rest : List Char} (h : c.isDigit = false) : EndsRun (c :: rest) :=
    endsRun_cons h rest
  unfold parse
  rw [String.toList_ofList, fieldChars, yearField_yearChars hy (stop (by decide))]
  simp only [bind, Except.bind]
  rw [separator_self (by decide)]
  simp only
  rw [field_padded (by omega) hm (stop (by decide))]
  simp only
  rw [separator_self (by decide)]
  simp only
  rw [field_padded (by omega) hd (stop (by decide))]
  simp only [true_or, if_true, pure, Except.pure]
  rw [field_padded (by omega) ⟨Nat.zero_le _, hh⟩ (stop (by decide))]
  simp only
  rw [separator_self (by decide)]
  simp only
  rw [field_padded (by omega) ⟨Nat.zero_le _, hmin⟩ (stop (by decide))]
  simp only
  rw [separator_self (by decide)]
  simp only
  rw [field_padded (by omega) ⟨Nat.zero_le _, hs⟩ (stop (by decide))]
  have fraction : fraction ['Z'] = .ok (0, ['Z']) := rfl
  have offset : offset (Text.trimLeft ['Z']) = .ok (0, []) := rfl
  have blank : (Text.trimLeft []).isEmpty = true := rfl
  have inRange : (date.isValid && decide (-262143 ≤ date.year) && decide (date.year ≤ 262142) &&
      decide (Int.natAbs 0 < 86400)) = true := by
    rw [valid]
    simp only [Bool.true_and, Bool.and_eq_true, decide_eq_true_eq]
    omega
  have inCalendar : (decide (firstSecond ≤ date.toDays * 86400
      + (hour * 3600 + minute * 60 + min second 59)) && decide (date.toDays * 86400
      + (hour * 3600 + minute * 60 + min second 59) ≤ lastSecond)) = true := by
    rw [decide_eq_true there.1, decide_eq_true there.2]
    rfl
  simp only [fraction, offset, blank, inRange, if_true, Nat.zero_add, Int.sub_zero, inCalendar]

theorem print_eq {t : Timestamp} : t.print = String.ofList (fieldChars t.date
    ((t.seconds % 86400).toNat / 3600) ((t.seconds % 86400).toNat / 60 % 60)
    ((t.seconds % 86400).toNat % 60 + t.nanos / 1000000000)) := by
  apply String.toList_inj.mp
  unfold print
  simp only [toString, String.toList_append, toList_yearText, toList_padded, String.toList_ofList,
    fieldChars, List.append_assoc]
  rfl

/-- **The second of a timestamp is read back if the calendar has it.** -/
theorem parse_print_eq {t : Timestamp} (h : t.IsInCalendar) : parse t.print = .ok t.truncated := by
  have valid : t.date.isValid = true := Date.isValid_ofDays _
  have days : t.date.toDays = t.seconds / 86400 := Date.toDays_ofDays _
  have first := h.first
  have last := h.last
  have leap := h.leap
  have nanos := h.nanos
  have year : -262143 ≤ t.date.year ∧ t.date.year ≤ 262142 := by
    refine ⟨(Date.newYear_le_iff valid).mp ?_, (Date.le_newYearsEve_iff valid).mp ?_⟩
    · rw [firstSecond] at first
      omega
    · rw [lastSecond] at last
      omega
  -- in a leap second the last second before it is counted again
  have seconds : t.date.toDays * 86400 + (((t.seconds % 86400).toNat / 3600 : Nat) * 3600
      + ((t.seconds % 86400).toNat / 60 % 60 : Nat) * 60
      + (min ((t.seconds % 86400).toNat % 60 + t.nanos / 1000000000) 59 : Nat)) = t.seconds := by
    omega
  rw [print_eq, parse_fieldChars valid year (by omega) (by omega) (by omega)
    (by rw [seconds]; exact ⟨first, last⟩), seconds, truncated]
  congr 2
  by_cases leaping : 1000000000 ≤ t.nanos
  · rw [if_pos leaping, if_pos (by omega)]
  · rw [if_neg leaping, if_neg (by omega)]

theorem IsWhole.isInCalendar {t : Timestamp} (h : t.IsWhole) : t.IsInCalendar := by
  have valid : t.date.isValid = true := Date.isValid_ofDays _
  have days : t.date.toDays = t.seconds / 86400 := Date.toDays_ofDays _
  have year := h.year
  have nanos := h.nanos
  have first : (⟨-262143, 1, 1⟩ : Date).toDays ≤ t.date.toDays :=
    (Date.newYear_le_iff valid).mpr (Int.le_trans (by decide) year.1)
  have last : t.date.toDays ≤ (⟨262142, 12, 31⟩ : Date).toDays :=
    (Date.le_newYearsEve_iff valid).mpr (Int.le_trans year.2 (by decide))
  refine ⟨?_, ?_, by omega, by omega⟩
  · rw [firstSecond]
    omega
  · rw [lastSecond]
    omega

/-- **A timestamp with whole seconds, of a year of four digits, is read back.** -/
theorem parse_print {t : Timestamp} (h : t.IsWhole) : parse t.print = .ok t := by
  rw [parse_print_eq h.isInCalendar, truncated, h.nanos]
  obtain ⟨seconds, nanos⟩ := t
  obtain rfl : nanos = 0 := h.nanos
  rfl

/-! ## What has been read -/

/-- So many digits make up a number less than this power of ten. -/
theorem digitsValue_lt (digits : List Char) (h : ∀ c ∈ digits, c.isDigit = true) :
    digitsValue digits < Nat.pow 10 digits.length := by
  show digitsValue digits < 10 ^ digits.length
  have general : ∀ (digits : List Char) (n : Nat), (∀ c ∈ digits, c.isDigit = true) →
      digits.foldl (fun n c => 10 * n + (c.toNat - '0'.toNat)) n < (n + 1) * 10 ^ digits.length := by
    intro digits
    induction digits with
    | nil => intro n _; simp
    | cons c rest ih =>
      intro n h
      have digit : c.toNat - '0'.toNat ≤ 9 := by
        have bounds := toNat_of_isDigit (h c List.mem_cons_self)
        have zero : '0'.toNat = 48 := rfl
        omega
      have more := ih (10 * n + (c.toNat - '0'.toNat)) fun d mem => h d (List.mem_cons_of_mem _ mem)
      rw [List.foldl_cons, List.length_cons, Nat.pow_succ]
      refine Nat.lt_of_lt_of_le more ?_
      calc (10 * n + (c.toNat - '0'.toNat) + 1) * 10 ^ rest.length
          ≤ ((n + 1) * 10) * 10 ^ rest.length := Nat.mul_le_mul_right _ (by omega)
        _ = (n + 1) * (10 ^ rest.length * 10) := by rw [Nat.mul_assoc, Nat.mul_comm 10]
  have := general digits 0 h
  rwa [Nat.zero_add, Nat.one_mul] at this

/-- Nine digits are less than a second of nanoseconds. -/
theorem fraction_lt {cs rest : List Char} {n : Nat} (h : fraction cs = .ok (n, rest)) :
    n < 1000000000 := by
  unfold fraction at h
  split at h
  · rename_i cs
    obtain ⟨⟨m, left⟩, read, h⟩ := bind_eq_ok_iff.mp h
    cases h
    unfold number at read
    split at read
    · cases read
    · simp only at read
      split at read
      · cases read
      · split at read
        · cases read
          have digits : ∀ c ∈ (cs.takeWhile Char.isDigit).take 9, c.isDigit = true := fun c mem =>
            List.all_eq_true.mp List.all_takeWhile c (List.mem_of_mem_take mem)
          have value : digitsValue ((cs.takeWhile Char.isDigit).take 9)
              < 10 ^ ((cs.takeWhile Char.isDigit).take 9).length := digitsValue_lt _ digits
          rw [List.length_take] at value
          -- zeros make up for the digits that are missing
          have filled : min 9 (cs.takeWhile Char.isDigit).length
              + (9 - (cs.takeWhile Char.isDigit).length) = 9 := by omega
          calc digitsValue ((cs.takeWhile Char.isDigit).take 9)
                * 10 ^ (9 - (cs.takeWhile Char.isDigit).length)
              < 10 ^ min 9 (cs.takeWhile Char.isDigit).length
                * 10 ^ (9 - (cs.takeWhile Char.isDigit).length) :=
                Nat.mul_lt_mul_of_pos_right value (Nat.pow_pos (by decide))
            _ = 10 ^ 9 := by rw [← Nat.pow_add, filled]
        · cases read
  · cases h
    decide

theorem field_le {least greatest n : Nat} {cs rest : List Char}
    (h : field least greatest cs = .ok (n, rest)) : least ≤ n ∧ n ≤ greatest := by
  obtain ⟨⟨m, left⟩, _, h⟩ := bind_eq_ok_iff.mp h
  simp only at h
  split at h
  · cases h
    assumption
  · cases h

theorem magnitude_minutes {cs rest : List Char} {n : Int}
    (h : offset.magnitude cs = .ok (n, rest)) : n % 60 = 0 := by
  obtain ⟨⟨hours, left⟩, _, h⟩ := bind_eq_ok_iff.mp h
  obtain ⟨⟨minutes, left'⟩, _, h⟩ := bind_eq_ok_iff.mp h
  simp only at h
  split at h
  · cases h
    omega
  · cases h

theorem signed_minutes {cs rest : List Char} {n : Int}
    (h : offset.signed cs = .ok (n, rest)) : n % 60 = 0 := by
  unfold offset.signed at h
  split at h
  · exact magnitude_minutes h
  · obtain ⟨⟨m, left⟩, read, h⟩ := map_eq_ok_iff.mp h
    cases h
    have := magnitude_minutes read
    omega
  · obtain ⟨⟨m, left⟩, read, h⟩ := map_eq_ok_iff.mp h
    cases h
    have := magnitude_minutes read
    omega
  · cases h

/-- An offset is of whole minutes. -/
theorem offset_minutes {cs rest : List Char} {n : Int} (h : offset cs = .ok (n, rest)) :
    n % 60 = 0 := by
  unfold offset at h
  split at h
  · cases h
  · cases h
    rfl
  · cases h
    rfl
  · split at h
    · cases h
      rfl
    · exact signed_minutes h
  · exact signed_minutes h

/-- **What has been read is in the calendar.** -/
theorem isInCalendar_of_parse {s : String} {t : Timestamp} (h : parse s = .ok t) :
    t.IsInCalendar := by
  obtain ⟨⟨year, cs⟩, _, h⟩ := bind_eq_ok_iff.mp h
  obtain ⟨cs, _, h⟩ := bind_eq_ok_iff.mp h
  obtain ⟨⟨month, cs⟩, _, h⟩ := bind_eq_ok_iff.mp h
  obtain ⟨cs, _, h⟩ := bind_eq_ok_iff.mp h
  obtain ⟨⟨day, cs⟩, _, h⟩ := bind_eq_ok_iff.mp h
  simp only at h
  split at h
  · cases h
  · split at h
    · obtain ⟨cs, _, h⟩ := bind_eq_ok_iff.mp h
      obtain ⟨⟨hour, cs⟩, _, h⟩ := bind_eq_ok_iff.mp h
      obtain ⟨cs, _, h⟩ := bind_eq_ok_iff.mp h
      obtain ⟨⟨minute, cs⟩, _, h⟩ := bind_eq_ok_iff.mp h
      obtain ⟨cs, _, h⟩ := bind_eq_ok_iff.mp h
      obtain ⟨⟨second, cs⟩, seconds, h⟩ := bind_eq_ok_iff.mp h
      obtain ⟨⟨nanos, cs⟩, fractional, h⟩ := bind_eq_ok_iff.mp h
      obtain ⟨⟨shift, cs⟩, shifted, h⟩ := bind_eq_ok_iff.mp h
      have fractional := fraction_lt fractional
      have seconds := field_le seconds
      have shifted := offset_minutes shifted
      simp only at h
      split at h
      · split at h
        · split at h
          · rename_i inCalendar
            rw [Bool.and_eq_true, decide_eq_true_eq, decide_eq_true_eq] at inCalendar
            cases h
            refine ⟨inCalendar.1, inCalendar.2, ?_, ?_⟩
            · show nanos + (if second = 60 then 1000000000 else 0) < 2000000000
              split <;> omega
            · show 1000000000 ≤ nanos + (if second = 60 then 1000000000 else 0) →
                ((⟨year, month, day⟩ : Date).toDays * 86400 + (hour * 3600 + minute * 60
                  + (min second 59 : Nat)) - shift) % 60 = 59
              intro leap
              split at leap
              · omega
              · omega
          · cases h
        · cases h
      · cases h
    · cases h

/-- What has been read and is written is read as the same second. -/
theorem parse_print_of_parse {s : String} {t : Timestamp} (h : parse s = .ok t) :
    ∃ t', parse t.print = .ok t' ∧ t'.seconds = t.seconds :=
  ⟨t.truncated, parse_print_eq (isInCalendar_of_parse h), rfl⟩

end NodeProvisioner.Timestamp
