import NodeProvisioner.Json.Lexeme
import NodeProvisioner.Json.Printer

/-!
# Numbers are read back

The scanner of numbers finds the parts of a number that has been written by the rules, in any of
the ways that these allow (`Numeral.Spells`), and stops behind it, provided that what follows does
not go on with the number.

What the printer writes is written by these rules. An integer has neither a fraction nor an
exponent, so it is read as the same integer if it fits sixty-four bits. A floating-point number
always has a fraction or an exponent, so it is read as a floating-point number if it is in range;
which one is up to the arithmetic of the reader.
-/

namespace NodeProvisioner.Json

open Decimal (ofDigits)

/-! ## Runs of digits -/

theorem toNat_of_isDigit {c : Char} (h : c.isDigit = true) : 48 ≤ c.toNat ∧ c.toNat ≤ 57 := by
  simpa [Char.isDigit, UInt32.le_iff_toNat_le] using h

/-- What follows does not go on with a run of digits. -/
def EndsRun (rest : List Char) : Prop := ∀ c more, rest = c :: more → c.isDigit = false

/-- What follows does not go on with a number. -/
def EndsNumber (rest : List Char) : Prop :=
  ∀ c more, rest = c :: more → c.isDigit = false ∧ c ≠ '.' ∧ c ≠ 'e' ∧ c ≠ 'E'

theorem endsRun_cons {c : Char} (h : c.isDigit = false) (more : List Char) :
    EndsRun (c :: more) := by
  intro d rest eq
  cases eq
  exact h

theorem EndsNumber.endsRun {rest : List Char} (h : EndsNumber rest) : EndsRun rest :=
  fun c more eq => (h c more eq).1

theorem endsNumber_nil : EndsNumber [] := by
  intro c more eq
  cases eq

theorem endsNumber_cons {c : Char} (digit : c.isDigit = false) (point : c ≠ '.') (lower : c ≠ 'e')
    (upper : c ≠ 'E') (more : List Char) : EndsNumber (c :: more) := by
  intro d rest eq
  cases eq
  exact ⟨digit, point, lower, upper⟩

/-- A run of digits: at least one. -/
structure IsRun (digits : List Char) : Prop where
  ne_nil : digits ≠ []
  isDigit : ∀ c ∈ digits, c.isDigit = true

theorem takeWhile_run {digits rest : List Char} (h : ∀ c ∈ digits, c.isDigit = true)
    (stop : EndsRun rest) : (digits ++ rest).takeWhile Char.isDigit = digits := by
  rw [List.takeWhile_append_of_pos h]
  cases rest with
  | nil => rw [List.takeWhile_nil, List.append_nil]
  | cons c more =>
    rw [List.takeWhile_cons, stop c more rfl]
    exact List.append_nil digits

theorem dropWhile_run {digits rest : List Char} (h : ∀ c ∈ digits, c.isDigit = true)
    (stop : EndsRun rest) : (digits ++ rest).dropWhile Char.isDigit = rest := by
  rw [List.dropWhile_append_of_pos h]
  cases rest with
  | nil => rfl
  | cons c more =>
    rw [List.dropWhile_cons, stop c more rfl]
    rfl

theorem isRun_toDigits (n : Nat) : IsRun (Nat.toDigits 10 n) :=
  ⟨Nat.toDigits_ne_nil, fun _ h => Nat.isDigit_of_mem_toDigits (by decide) (by decide) h⟩

theorem isRun_zero : IsRun ['0'] := by
  refine ⟨List.cons_ne_nil _ _, ?_⟩
  intro c mem
  rw [List.mem_singleton.mp mem]
  rfl

theorem isRun_zeros_append {digits : List Char} (h : IsRun digits) (zeros : Nat) :
    IsRun (List.replicate zeros '0' ++ digits) := by
  refine ⟨List.append_ne_nil_of_right_ne_nil _ h.ne_nil, fun c mem => ?_⟩
  obtain mem | mem := List.mem_append.mp mem
  · rw [List.eq_of_mem_replicate mem]
    rfl
  · exact h.isDigit c mem

/-- The digits before the point: a single zero, or a run that starts with another digit. -/
inductive IsWhole : List Char → Prop where
  | zero : IsWhole ['0']
  | leading {d : Char} {tail : List Char} : d ≠ '0' → IsRun (d :: tail) → IsWhole (d :: tail)

theorem IsWhole.isRun {digits : List Char} (h : IsWhole digits) : IsRun digits := by
  cases h with
  | zero => exact isRun_zero
  | leading _ run => exact run

/-- The digits of a positive number start with one that is not zero. -/
theorem toDigits_head {n : Nat} (h : 0 < n) :
    ∃ d tail, Nat.toDigits 10 n = d :: tail ∧ d ≠ '0' := by
  -- the first digit of a number is that of the number without its last digit
  induction n using Nat.base_induction 10 (by decide) with
  | single m hm =>
    refine ⟨m.digitChar, [], Nat.toDigits_of_lt_base hm, ?_⟩
    rw [ne_eq, Nat.digitChar_eq_zero]
    omega
  | digit m k hk hm ih =>
    obtain ⟨d, tail, eq, ne⟩ := ih hm
    refine ⟨d, tail ++ Nat.toDigits 10 k, ?_, ne⟩
    rw [← Nat.toDigits_append_toDigits (by decide) hm hk, eq, List.cons_append]

theorem isWhole_toDigits (n : Nat) : IsWhole (Nat.toDigits 10 n) := by
  cases n with
  | zero => exact .zero
  | succ n =>
    obtain ⟨d, tail, eq, ne⟩ := toDigits_head (Nat.succ_pos n)
    have run := isRun_toDigits (n + 1)
    rw [eq] at run ⊢
    exact .leading ne run

theorem ofDigits_eq (digits : List Char) : ofDigits digits = Nat.ofDigitChars 10 digits 0 := rfl

theorem ofDigits_toDigits (n : Nat) : ofDigits (Nat.toDigits 10 n) = n :=
  Nat.ofDigitChars_ten_toDigits

theorem ofDigits_zeros (zeros : Nat) : ofDigits (List.replicate zeros '0') = 0 := by
  rw [ofDigits_eq, Nat.ofDigitChars_replicate_zero, Nat.mul_zero]

theorem ofDigits_zeros_append (zeros : Nat) (digits : List Char) :
    ofDigits (List.replicate zeros '0' ++ digits) = ofDigits digits := by
  rw [ofDigits_eq, Nat.ofDigitChars_append, Nat.ofDigitChars_replicate_zero, Nat.mul_zero,
    ← ofDigits_eq]

/-- Digits that come after others shift these to the left. -/
theorem ofDigits_append (digits more : List Char) :
    ofDigits (digits ++ more) = Nat.pow 10 more.length * ofDigits digits + ofDigits more := by
  rw [ofDigits_eq, Nat.ofDigitChars_append, Nat.ofDigitChars_eq_ofDigitChars_zero]
  rfl

/-! ## Parts of a number -/

theorem scanWhole_run {digits rest : List Char} (h : IsWhole digits) (stop : EndsRun rest)
    (p : Place) : ∃ q, scanWhole false p (digits ++ rest) = .ok (digits, q, rest) := by
  cases h with
  | zero =>
    refine ⟨p.after '0', ?_⟩
    rw [List.singleton_append]
    cases rest with
    | nil => rfl
    | cons c more =>
      unfold scanWhole
      simp only [stop c more rfl, Bool.false_eq_true, if_false]
  | @leading d tail ne run =>
    have isDigit := run.isDigit d List.mem_cons_self
    refine ⟨p.afterAll (d :: tail), ?_⟩
    have take := takeWhile_run run.isDigit stop
    have drop := dropWhile_run run.isDigit stop
    rw [List.cons_append] at take drop ⊢
    rw [scanWhole]
    · rw [if_pos isDigit, take, drop]
    · exact ne

theorem scanFraction_run {digits rest : List Char} (h : IsRun digits) (stop : EndsRun rest)
    (p : Place) : ∃ q, scanFraction false p (digits ++ rest) = .ok (digits, q, rest) := by
  obtain ⟨ne, isDigit⟩ := h
  refine ⟨p.afterAll digits, ?_⟩
  have take := takeWhile_run isDigit stop
  have drop := dropWhile_run isDigit stop
  cases digits with
  | nil => exact absurd rfl ne
  | cons d tail =>
    rw [List.cons_append] at take drop ⊢
    rw [scanFraction]
    rw [if_pos (isDigit d List.mem_cons_self), take, drop]

/-- The ways to write the sign of an exponent: a plus may be left out. -/
inductive SpellsSign : Bool → List Char → Prop where
  | absent : SpellsSign false []
  | plus : SpellsSign false ['+']
  | minus : SpellsSign true ['-']

theorem scanExponent_spells {negative : Bool} {sign digits rest : List Char}
    (signed : SpellsSign negative sign) (h : IsRun digits) (stop : EndsRun rest) (p : Place) :
    ∃ q, scanExponent false p (sign ++ (digits ++ rest)) = .ok ((negative, digits), q, rest) := by
  obtain ⟨ne, isDigit⟩ := h
  have take := takeWhile_run isDigit stop
  have drop := dropWhile_run isDigit stop
  cases digits with
  | nil => exact absurd rfl ne
  | cons d tail =>
    have first := isDigit d List.mem_cons_self
    rw [List.cons_append] at take drop ⊢
    cases signed with
    | absent =>
      refine ⟨p.afterAll (d :: tail), ?_⟩
      rw [List.nil_append, scanExponent]
      · simp only
        rw [if_pos first, take, drop]
      -- a digit is not taken for a sign
      · rintro rest ⟨⟩
        exact absurd first (by decide)
      · rintro rest ⟨⟩
        exact absurd first (by decide)
    | plus =>
      refine ⟨(p.after '+').afterAll (d :: tail), ?_⟩
      rw [List.singleton_append, scanExponent]
      simp only
      rw [if_pos first, take, drop]
    | minus =>
      refine ⟨(p.after '-').afterAll (d :: tail), ?_⟩
      rw [List.singleton_append, scanExponent]
      simp only
      rw [if_pos first, take, drop]

/-! ## Whole numbers and all others -/

/-- The ways to write an exponent. -/
inductive SpellsExponent : Option (Bool × List Char) → List Char → Prop where
  | absent : SpellsExponent none []
  | present {letter : Char} {negative : Bool} {sign digits : List Char} :
      letter = 'e' ∨ letter = 'E' → SpellsSign negative sign →
      SpellsExponent (some (negative, digits)) (letter :: (sign ++ digits))

namespace Numeral

/-- The fraction with its point. -/
def fractionChars : Option (List Char) → List Char
  | none => []
  | some digits => '.' :: digits

/-- A number is made by the rules. -/
structure IsProper (n : Numeral) : Prop where
  whole : IsWhole n.whole
  fraction : ∀ digits, n.fraction = some digits → IsRun digits
  exponent : ∀ negative digits, n.exponent = some (negative, digits) → IsRun digits

/-- The ways to write a number after its sign. -/
def Spells (n : Numeral) (cs : List Char) : Prop :=
  n.IsProper ∧ ∃ exponent, SpellsExponent n.exponent exponent ∧
    cs = n.whole ++ (fractionChars n.fraction ++ exponent)

end Numeral

/-- A number begins with a digit. -/
theorem Numeral.Spells.exists_digit {n : Numeral} {cs : List Char} (h : n.Spells cs) :
    ∃ c more, cs = c :: more ∧ c.isDigit = true := by
  obtain ⟨proper, exponent, _, rfl⟩ := h
  obtain ⟨ne, isDigit⟩ := proper.whole.isRun
  cases first : n.whole with
  | nil => exact absurd first ne
  | cons c tail => exact ⟨c, _, rfl, isDigit c (first ▸ List.mem_cons_self)⟩

theorem SpellsExponent.endsRun {e : Option (Bool × List Char)} {cs rest : List Char}
    (h : SpellsExponent e cs) (stop : EndsNumber rest) : EndsRun (cs ++ rest) := by
  cases h with
  | absent => exact stop.endsRun
  | present letter => rcases letter with rfl | rfl <;> exact endsRun_cons (by decide) _

theorem endsRun_fractionChars {cs : List Char} (stop : EndsRun cs) (f : Option (List Char)) :
    EndsRun (Numeral.fractionChars f ++ cs) := by
  cases f with
  | none => exact stop
  | some f => exact endsRun_cons (by decide) _

theorem no_exponent (rest : List Char) : EndsNumber rest →
    (match rest with
      | 'e' :: _ => true
      | 'E' :: _ => true
      | _ => false) = false := by
  intro stop
  cases rest with
  | nil => rfl
  | cons c more =>
    obtain ⟨_, _, lower, upper⟩ := stop c more rfl
    split <;> simp_all

/-- Reads the fraction of a number with its point, if there is one. -/
def scanPoint (lenient : Bool) (p : Place) (cs : List Char) :
    Except Fault (Option (List Char) × Place × List Char) :=
  match cs with
  | '.' :: rest => do
    let (digits, q, rest) ← scanFraction lenient (p.after '.') rest
    pure (some digits, q, rest)
  | _ => pure (none, p, cs)

/-- Reads the exponent of a number with its letter, if there is one. -/
def scanLetter (lenient : Bool) (p : Place) (cs : List Char) :
    Except Fault (Option (Bool × List Char) × Place × List Char) :=
  let isExponent := match cs with
    | 'e' :: _ => true
    | 'E' :: _ => true
    | _ => false
  if isExponent then do
    let (exponent, q, rest) ← scanExponent lenient (p.after 'e') (cs.drop 1)
    pure (some exponent, q, rest)
  else pure (none, p, cs)

/-- A number is read part by part. -/
theorem scanNumber_eq (lenient negative : Bool) (p : Place) (cs : List Char) :
    scanNumber lenient negative p cs = (do
      let (whole, p, cs) ← scanWhole lenient p cs
      let (fraction, p, cs) ← scanPoint lenient p cs
      let (exponent, p, cs) ← scanLetter lenient p cs
      return ⟨⟨negative, whole, fraction, exponent⟩, p, cs⟩) := by
  have ending : ∀ (whole : List Char) (fraction : Option (List Char)) (p : Place) (cs : List Char),
      (if (match cs with
          | 'e' :: _ => true
          | 'E' :: _ => true
          | _ => false) = true then do
        let (exponent, q, rest) ← scanExponent lenient (p.after 'e') (cs.drop 1)
        return ⟨⟨negative, whole, fraction, some exponent⟩, q, rest⟩
      else return ⟨⟨negative, whole, fraction, none⟩, p, cs⟩ : Except Fault ScannedNumber) = (do
        let (exponent, p, cs) ← scanLetter lenient p cs
        return ⟨⟨negative, whole, fraction, exponent⟩, p, cs⟩) := by
    intro whole fraction p cs
    unfold scanLetter
    by_cases letter : (match cs with
        | 'e' :: _ => true
        | 'E' :: _ => true
        | _ => false) = true
    · simp only [if_pos letter]
      cases scanExponent lenient (p.after 'e') (cs.drop 1) <;> rfl
    · simp only [if_neg letter]
      rfl
  unfold scanNumber
  refine bind_congr fun parts => ?_
  obtain ⟨whole, q, rest⟩ := parts
  simp only
  split
  · rename_i more
    rw [scanPoint]
    cases scanFraction lenient (q.after '.') more with
    | error fault => rfl
    | ok parts => exact ending whole (some parts.1) parts.2.1 parts.2.2
  · rename_i other
    rw [scanPoint]
    · exact ending whole none q rest
    · exact other

/-- **A number that is written by the rules is read back.** -/
theorem scanNumber_spells {n : Numeral} {cs : List Char} (h : n.Spells cs) {rest : List Char}
    (stop : EndsNumber rest) (p : Place) :
    ∃ q, scanNumber false n.negative p (cs ++ rest) = .ok ⟨n, q, rest⟩ := by
  obtain ⟨negative, whole, fraction, e⟩ := n
  obtain ⟨⟨isWhole, isFraction, isExponent⟩, exponent, spelled, rfl⟩ := h
  have stops := spelled.endsRun stop
  obtain ⟨q₁, wholeRead⟩ := scanWhole_run isWhole (endsRun_fractionChars stops fraction) p
  obtain ⟨q₂, fractionRead⟩ : ∃ q, scanPoint false q₁
      (Numeral.fractionChars fraction ++ (exponent ++ rest))
        = .ok (fraction, q, exponent ++ rest) := by
    cases fraction with
    | some digits =>
      obtain ⟨q, read⟩ := scanFraction_run (isFraction digits rfl) stops (q₁.after '.')
      refine ⟨q, ?_⟩
      simp only [Numeral.fractionChars, List.cons_append, scanPoint, read]
      rfl
    | none =>
      refine ⟨q₁, ?_⟩
      rw [Numeral.fractionChars, List.nil_append]
      unfold scanPoint
      -- what follows the digits is no point
      split
      · rename_i more point
        cases spelled with
        | absent => exact absurd rfl (stop _ _ point).2.1
        | present either => rcases either with rfl | rfl <;> cases point
      · rfl
  obtain ⟨q₃, exponentRead⟩ : ∃ q, scanLetter false q₂ (exponent ++ rest) = .ok (e, q, rest) := by
    cases spelled with
    | absent =>
      refine ⟨q₂, ?_⟩
      rw [List.nil_append]
      unfold scanLetter
      exact if_neg (Bool.not_eq_true _ ▸ no_exponent _ stop)
    | present either signed =>
      obtain ⟨q, read⟩ := scanExponent_spells signed (isExponent _ _ rfl) stop.endsRun
        (q₂.after 'e')
      refine ⟨q, ?_⟩
      rcases either with rfl | rfl <;>
        simp only [List.cons_append, List.append_assoc, scanLetter, if_true, List.drop_one,
          List.tail_cons, read] <;> rfl
  refine ⟨q₃, ?_⟩
  rw [List.append_assoc, List.append_assoc, scanNumber_eq, wholeRead]
  simp only [bind, Except.bind, fractionRead, exponentRead]
  rfl

/-! ## Only numbers are read -/

theorem isRun_takeWhile {c : Char} (h : c.isDigit = true) (cs : List Char) :
    IsRun ((c :: cs).takeWhile Char.isDigit) := by
  refine ⟨?_, List.all_eq_true.mp List.all_takeWhile⟩
  rw [List.takeWhile_cons, h]
  exact List.cons_ne_nil _ _

theorem isWhole_of_scanWhole {lenient : Bool} {p q : Place} {cs digits rest : List Char}
    (h : scanWhole lenient p cs = .ok (digits, q, rest)) :
    IsWhole digits ∧ cs = digits ++ rest := by
  unfold scanWhole at h
  split at h
  · cases h
  · split at h
    · split at h
      · cases h
      · cases h
        exact ⟨.zero, rfl⟩
    · cases h
      exact ⟨.zero, rfl⟩
  · rename_i c more zero
    split at h
    · rename_i digit
      cases h
      refine ⟨?_, List.takeWhile_append_dropWhile.symm⟩
      have run := isRun_takeWhile digit more
      rw [List.takeWhile_cons, if_pos digit] at run ⊢
      exact .leading zero run
    · cases h

theorem isRun_of_scanFraction {lenient : Bool} {p q : Place} {cs digits rest : List Char}
    (h : scanFraction lenient p cs = .ok (digits, q, rest)) :
    IsRun digits ∧ cs = digits ++ rest := by
  unfold scanFraction at h
  split at h
  · cases h
  · split at h
    · rename_i digit
      cases h
      exact ⟨isRun_takeWhile digit _, List.takeWhile_append_dropWhile.symm⟩
    · cases h

theorem spellsSign_of_scanExponent {lenient negative : Bool} {p q : Place}
    {cs digits rest : List Char}
    (h : scanExponent lenient p cs = .ok ((negative, digits), q, rest)) :
    ∃ sign, SpellsSign negative sign ∧ IsRun digits ∧ cs = sign ++ (digits ++ rest) := by
  unfold scanExponent at h
  split at h
  rename_i negative' p' more parts
  have run : negative' = negative ∧ IsRun digits ∧ more = digits ++ rest := by
    split at h
    · cases h
    · split at h
      · rename_i digit
        cases h
        exact ⟨rfl, isRun_takeWhile digit _, List.takeWhile_append_dropWhile.symm⟩
      · cases h
  obtain ⟨rfl, digits, rfl⟩ := run
  split at parts
  · cases parts
    exact ⟨['+'], .plus, digits, rfl⟩
  · cases parts
    exact ⟨['-'], .minus, digits, rfl⟩
  · cases parts
    exact ⟨[], .absent, digits, rfl⟩

theorem isRun_of_scanPoint {lenient : Bool} {p q : Place} {cs rest : List Char}
    {fraction : Option (List Char)} (h : scanPoint lenient p cs = .ok (fraction, q, rest)) :
    (∀ digits, fraction = some digits → IsRun digits) ∧
      cs = Numeral.fractionChars fraction ++ rest := by
  unfold scanPoint at h
  split at h
  · rename_i more
    cases read : scanFraction lenient (p.after '.') more with
    | error fault =>
      rw [read] at h
      cases h
    | ok parts =>
      obtain ⟨digits, q', rest'⟩ := parts
      rw [read] at h
      cases h
      obtain ⟨run, rfl⟩ := isRun_of_scanFraction read
      refine ⟨?_, rfl⟩
      rintro _ ⟨⟩
      exact run
  · cases h
    exact ⟨nofun, rfl⟩

theorem spellsExponent_of_scanLetter {lenient : Bool} {p q : Place} {cs rest : List Char}
    {e : Option (Bool × List Char)} (h : scanLetter lenient p cs = .ok (e, q, rest)) :
    ∃ exponent, SpellsExponent e exponent ∧
      (∀ negative digits, e = some (negative, digits) → IsRun digits) ∧
      cs = exponent ++ rest := by
  have read {letter : Char} {more : List Char} (either : letter = 'e' ∨ letter = 'E')
      (h : (do
        let (exponent, q, rest) ← scanExponent lenient (p.after 'e') more
        pure (some exponent, q, rest) : Except Fault _) = .ok (e, q, rest)) :
      ∃ exponent, SpellsExponent e exponent ∧
        (∀ negative digits, e = some (negative, digits) → IsRun digits) ∧
        letter :: more = exponent ++ rest := by
    cases scanned : scanExponent lenient (p.after 'e') more with
    | error fault =>
      rw [scanned] at h
      cases h
    | ok parts =>
      obtain ⟨⟨negative, digits⟩, q', rest'⟩ := parts
      rw [scanned] at h
      cases h
      obtain ⟨sign, signed, run, rfl⟩ := spellsSign_of_scanExponent scanned
      refine ⟨letter :: (sign ++ digits), .present either signed, ?_, ?_⟩
      · rintro _ _ ⟨⟩
        exact run
      · rw [List.cons_append, List.append_assoc]
  unfold scanLetter at h
  split at h
  · exact read (.inl rfl) h
  · exact read (.inr rfl) h
  · cases h
    exact ⟨[], .absent, nofun, rfl⟩

/-- **Whatever is read as a number is written by the rules.** -/
theorem spells_of_scanNumber {lenient negative : Bool} {p : Place} {cs : List Char}
    {s : ScannedNumber} (h : scanNumber lenient negative p cs = .ok s) :
    s.numeral.negative = negative ∧ ∃ spelling, s.numeral.Spells spelling ∧
      cs = spelling ++ s.rest := by
  rw [scanNumber_eq] at h
  cases wholeRead : scanWhole lenient p cs with
  | error fault =>
    rw [wholeRead] at h
    cases h
  | ok parts =>
    obtain ⟨whole, p₁, rest₁⟩ := parts
    rw [wholeRead] at h
    cases fractionRead : scanPoint lenient p₁ rest₁ with
    | error fault =>
      simp only [bind, Except.bind, fractionRead] at h
      cases h
    | ok parts =>
      obtain ⟨fraction, p₂, rest₂⟩ := parts
      cases exponentRead : scanLetter lenient p₂ rest₂ with
      | error fault =>
        simp only [bind, Except.bind, fractionRead, exponentRead] at h
        cases h
      | ok parts =>
        obtain ⟨e, p₃, rest₃⟩ := parts
        simp only [bind, Except.bind, fractionRead, exponentRead] at h
        cases h
        obtain ⟨isWhole, rfl⟩ := isWhole_of_scanWhole wholeRead
        obtain ⟨isFraction, rfl⟩ := isRun_of_scanPoint fractionRead
        obtain ⟨exponent, spelled, isExponent, rfl⟩ := spellsExponent_of_scanLetter exponentRead
        refine ⟨rfl, _, ⟨⟨isWhole, isFraction, isExponent⟩, exponent, spelled, rfl⟩, ?_⟩
        simp only [List.append_assoc]

/-! ## The printer's way -/

/-- The sign of an exponent, which is always written. -/
def exponentSign (negative : Bool) : Char := if negative then '-' else '+'

theorem spellsSign_exponentSign (negative : Bool) :
    SpellsSign negative [exponentSign negative] := by
  cases negative with
  | false => exact .plus
  | true => exact .minus

namespace Numeral

/-- The exponent with its letter and its sign. -/
def exponentChars : Option (Bool × List Char) → List Char
  | none => []
  | some (negative, digits) => 'e' :: exponentSign negative :: digits

/-- The spelling of a number without its sign. -/
def spell (n : Numeral) : List Char :=
  n.whole ++ (fractionChars n.fraction ++ exponentChars n.exponent)

theorem IsProper.spells {n : Numeral} (h : n.IsProper) : n.Spells n.spell := by
  refine ⟨h, exponentChars n.exponent, ?_, rfl⟩
  cases n.exponent with
  | none => exact .absent
  | some e => exact .present (.inl rfl) (spellsSign_exponentSign e.1)

end Numeral

/-! ## Values of numbers -/

/-- The number is not kept as an integer: it is read as a floating-point number, or is out of
range. -/
def Numeral.Floats (n : Numeral) : Prop := n.value? = none ∨ ∃ x, n.value? = some (.float x)

theorem floats_of_float? {n : Numeral} (h : n.value? = n.float?.map .float) : n.Floats := by
  unfold Numeral.Floats
  rw [h]
  cases n.float? with
  | none => exact .inl rfl
  | some x => exact .inr ⟨x, rfl⟩

theorem floats_of_fraction {n : Numeral} (h : n.fraction ≠ none) : n.Floats := by
  obtain ⟨negative, whole, fraction, exponent⟩ := n
  cases fraction with
  | none => exact absurd rfl h
  | some digits => exact floats_of_float? rfl

theorem floats_of_exponent {n : Numeral} (h : n.exponent ≠ none) : n.Floats := by
  obtain ⟨negative, whole, fraction, exponent⟩ := n
  cases exponent with
  | none => exact absurd rfl h
  | some e => cases fraction <;> exact floats_of_float? rfl

/-- The number that an integer is printed as. -/
def Numeral.ofInt : Int → Numeral
  | .ofNat n => ⟨false, Nat.toDigits 10 n, none, none⟩
  | .negSucc n => ⟨true, Nat.toDigits 10 (n + 1), none, none⟩

theorem isProper_ofInt (i : Int) : (Numeral.ofInt i).IsProper := by
  cases i with
  | ofNat n => exact ⟨isWhole_toDigits n, nofun, nofun⟩
  | negSucc n => exact ⟨isWhole_toDigits (n + 1), nofun, nofun⟩

/-- The integers that a reader keeps as integers. -/
def Fits (i : Int) : Prop := -0x8000000000000000 ≤ i ∧ i < 0x10000000000000000

instance (i : Int) : Decidable (Fits i) := inferInstanceAs (Decidable (_ ∧ _))

/-- **A printed integer is read as itself if it fits.** -/
theorem value?_ofInt {i : Int} (h : Fits i) : (Numeral.ofInt i).value? = some (.int i) := by
  obtain ⟨least, greatest⟩ := h
  cases i with
  | ofNat n =>
    have small : n < 0x10000000000000000 := by simp at greatest; omega
    unfold Numeral.value? Numeral.ofInt
    simp only [ofDigits_toDigits, Bool.false_eq_true, if_false, if_pos small]
    rfl
  | negSucc n =>
    have small : 0 < n + 1 ∧ n + 1 ≤ 0x8000000000000000 := by omega
    unfold Numeral.value? Numeral.ofInt
    simp only [ofDigits_toDigits, if_true, if_pos small]
    rfl

/-- A printed integer that does not fit is not kept as an integer. -/
theorem floats_ofInt {i : Int} (h : ¬ Fits i) : (Numeral.ofInt i).Floats := by
  apply floats_of_float?
  unfold Fits at h
  cases i with
  | ofNat n =>
    have large : ¬ n < 0x10000000000000000 := by simp at h; omega
    unfold Numeral.value? Numeral.ofInt
    simp only [ofDigits_toDigits, Bool.false_eq_true, if_false, if_neg large]
  | negSucc n =>
    have large : ¬ (0 < n + 1 ∧ n + 1 ≤ 0x8000000000000000) := by omega
    unfold Numeral.value? Numeral.ofInt
    simp only [ofDigits_toDigits, if_true, if_neg large]

/-! ## The lexeme of a number -/

/-- A number with its sign. -/
def Numeral.signed (n : Numeral) : List Char :=
  (if n.negative then ['-'] else []) ++ n.spell

theorem intChars_eq (i : Int) : intChars i = (Numeral.ofInt i).signed := by
  cases i with
  | ofNat n => exact (List.append_nil _).symm
  | negSucc n => exact congrArg ('-' :: ·) (List.append_nil _).symm

end NodeProvisioner.Json
