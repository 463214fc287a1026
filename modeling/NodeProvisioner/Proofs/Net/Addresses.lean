import NodeProvisioner.Net.Address
import NodeProvisioner.Proofs.Decimal.Naturals

/-!
# Addresses in decimal

An octet is read in decimal only as it is written, with the shortest row of its digits. So four
octets with points between them have one text.

Main statement: `IpAddress.fourOctets?_eq_some_iff`.
-/

namespace NodeProvisioner.IpAddress

open Json (IsRun IsWhole EndsRun isRun_toDigits isWhole_toDigits endsRun_cons takeWhile_run)

/-! ## Numbers -/

theorem isDigit_iff (c : Char) : c.isDigit = true ↔ '0' ≤ c ∧ c ≤ '9' := by
  simp [Char.isDigit, Char.le_def]

theorem digitValue?_ten (c : Char) :
    digitValue? 10 c = if c.isDigit then some (c.toNat - '0'.toNat) else none := by
  unfold digitValue? Text.hexValue?
  by_cases digit : c.isDigit = true
  · have small : c.toNat - '0'.toNat < 10 := by
      have bounds := Json.toNat_of_isDigit digit
      have zero : '0'.toNat = 48 := rfl
      omega
    rw [if_pos digit, if_pos ((isDigit_iff c).mp digit), Option.filter_some,
      if_pos (decide_eq_true small)]
  · rw [if_neg digit, if_neg (mt (isDigit_iff c).mpr digit)]
    -- the other digits are of larger bases
    split
    · rw [Option.filter_some, if_neg (by simp)]
    · split
      · rw [Option.filter_some, if_neg (by simp)]
      · rfl

theorem filterMap_digitValue? {digits : List Char} (h : ∀ c ∈ digits, c.isDigit = true) :
    digits.filterMap (digitValue? 10) = digits.map fun c => c.toNat - '0'.toNat := by
  induction digits with
  | nil => rfl
  | cons c rest ih =>
    rw [List.filterMap_cons, digitValue?_ten, if_pos (h c List.mem_cons_self),
      ih fun c mem => h c (List.mem_cons_of_mem _ mem), List.map_cons]

/-- A number in decimal is a run of digits, if there are not too many. -/
theorem number?_ten (most : Nat) {digits rest : List Char} (h : ∀ c ∈ digits, c.isDigit = true)
    (stop : EndsRun rest) :
    number? 10 most (digits ++ rest) = if digits.isEmpty || digits.length > most then none
      else some (Decimal.ofDigits digits, rest) := by
  have isDigit : (fun c => (digitValue? 10 c).isSome) = Char.isDigit := by
    funext c
    rw [digitValue?_ten]
    cases c.isDigit <;> rfl
  unfold number?
  simp only [isDigit, takeWhile_run h stop, filterMap_digitValue? h, List.isEmpty_map,
    List.length_map, List.foldl_map, List.drop_left]
  rfl

/-- Every text goes on from some digits to something else. -/
theorem exists_digits (cs : List Char) : ∃ digits rest, cs = digits ++ rest ∧
    (∀ c ∈ digits, c.isDigit = true) ∧ EndsRun rest := by
  refine ⟨cs.takeWhile Char.isDigit, cs.dropWhile Char.isDigit,
    List.takeWhile_append_dropWhile.symm, List.all_eq_true.mp List.all_takeWhile, ?_⟩
  intro c more eq
  have first := List.head?_dropWhile_not Char.isDigit cs
  rw [eq] at first
  exact Bool.eq_false_iff.mpr (by simpa using first)

/-! ## Octets -/

theorem isWhole_iff {digits : List Char} :
    IsWhole digits ↔ IsRun digits ∧ ¬(digits.head? = some '0' ∧ 1 < digits.length) := by
  constructor
  · intro whole
    refine ⟨whole.isRun, ?_⟩
    rintro ⟨zero, more⟩
    cases whole with
    | zero => exact absurd more (by decide)
    | leading ne _ => exact ne (Option.some.inj zero)
  · rintro ⟨run, plain⟩
    obtain _ | ⟨c, _ | ⟨d, more⟩⟩ := digits
    · exact absurd rfl run.ne_nil
    · by_cases zero : c = '0'
      · exact zero ▸ .zero
      · exact .leading zero run
    · exact .leading (fun zero => plain ⟨congrArg some zero, by simp⟩) run

/-- Digits are read as an octet if there is no zero before them in vain and their number is not too
large. -/
theorem octet?_digits {digits rest : List Char} (h : ∀ c ∈ digits, c.isDigit = true)
    (stop : EndsRun rest) {o : UInt8} {after : List Char} :
    octet? (digits ++ rest) = some (o, after) ↔
      (IsWhole digits ∧ digits.length ≤ 3 ∧ Decimal.ofDigits digits ≤ 255) ∧
        UInt8.ofNat (Decimal.ofDigits digits) = o ∧ rest = after := by
  unfold octet?
  rw [number?_ten 3 h stop]
  split
  · next unfit =>
    refine ⟨nofun, fun ⟨⟨whole, short, _⟩, _⟩ => ?_⟩
    simp only [List.isEmpty_eq_false_iff.mpr whole.isRun.ne_nil, Bool.false_or,
      decide_eq_true_eq] at unfit
    omega
  · next fit =>
    simp only [Bool.or_eq_true, List.isEmpty_iff, decide_eq_true_eq, not_or, Nat.not_lt] at fit
    obtain ⟨nonempty, short⟩ := fit
    have head : (digits ++ rest).head? = digits.head? := by
      cases digits with
      | nil => exact absurd rfl nonempty
      | cons c more => rfl
    have run : IsRun digits := ⟨nonempty, h⟩
    have length : (digits ++ rest).length > rest.length + 1 ↔ 1 < digits.length := by
      rw [List.length_append]
      omega
    simp only [Option.bind_eq_bind, Option.bind_some, head, length, isWhole_iff, run, true_and]
    split
    · next bad =>
      simp only [Bool.or_eq_true, Bool.and_eq_true, decide_eq_true_eq] at bad
      exact ⟨nofun, fun ⟨⟨plain, _, small⟩, _⟩ => absurd bad (not_or.mpr ⟨by omega, plain⟩)⟩
    · next good =>
      simp only [Bool.or_eq_true, Bool.and_eq_true, decide_eq_true_eq, not_or] at good
      simp only [good.2, short, Nat.not_lt.mp good.1, not_false_eq_true, true_and,
        Option.some.injEq, Prod.mk.injEq]

/-- **An octet is read as it is written**, and from no other text. -/
theorem octet?_eq_some_iff {cs rest : List Char} {o : UInt8} :
    octet? cs = some (o, rest) ↔ cs = Nat.toDigits 10 o.toNat ++ rest ∧ EndsRun rest := by
  constructor
  · intro read
    obtain ⟨digits, others, rfl, isDigit, stop⟩ := exists_digits cs
    obtain ⟨⟨whole, -, small⟩, rfl, rfl⟩ := (octet?_digits isDigit stop).mp read
    rw [UInt8.toNat_ofNat_of_lt' (Nat.lt_succ_of_le small), ← Decimal.eq_toDigits_of_isWhole whole]
    exact ⟨rfl, stop⟩
  · rintro ⟨rfl, stop⟩
    have below := o.toNat_lt
    have short : (Nat.toDigits 10 o.toNat).length ≤ 3 :=
      (Nat.length_toDigits_le_iff (b := 10) (by decide) (by decide)).mpr (by omega)
    have value : Decimal.ofDigits (Nat.toDigits 10 o.toNat) = o.toNat :=
      Json.ofDigits_toDigits o.toNat
    refine (octet?_digits (isRun_toDigits _).isDigit stop).mpr
      ⟨⟨isWhole_toDigits _, short, ?_⟩, ?_, rfl⟩
    · rw [value]
      omega
    · rw [value, UInt8.ofNat_toNat]

/-! ## Four octets -/

theorem expect?_eq_some_iff {c : Char} {cs rest : List Char} :
    expect? c cs = some rest ↔ cs = c :: rest := by
  cases cs with
  | nil => exact ⟨nofun, nofun⟩
  | cons d others =>
    rw [expect?, List.cons.injEq]
    split
    · next same => rw [Option.some.injEq, and_iff_right same.symm]
    · next other => exact ⟨nofun, fun eq => absurd eq.1.symm other⟩

/-- The characters of four octets, with points between them. -/
def pointedChars (a b c d : UInt8) : List Char :=
  Nat.toDigits 10 a.toNat ++ '.' :: (Nat.toDigits 10 b.toNat ++ '.' ::
    (Nat.toDigits 10 c.toNat ++ '.' :: Nat.toDigits 10 d.toNat))

/-- **Four octets are read as they are written**, and from no other text. -/
theorem fourOctets?_eq_some_iff {cs rest : List Char} {octets : List UInt8} :
    fourOctets? cs = some (octets, rest) ↔ ∃ a b c d, octets = [a, b, c, d] ∧
      cs = pointedChars a b c d ++ rest ∧ EndsRun rest := by
  have point (more : List Char) : EndsRun ('.' :: more) := endsRun_cons rfl more
  have chars (a b c d : UInt8) : pointedChars a b c d ++ rest = Nat.toDigits 10 a.toNat ++ '.' ::
      (Nat.toDigits 10 b.toNat ++ '.' :: (Nat.toDigits 10 c.toNat ++ '.' ::
        (Nat.toDigits 10 d.toNat ++ rest))) := by
    simp only [pointedChars, List.append_assoc, List.cons_append]
  simp only [fourOctets?, Option.bind_eq_bind, Option.bind_eq_some_iff, Prod.exists,
    octet?_eq_some_iff, expect?_eq_some_iff, Option.pure_def, Option.some.injEq, Prod.mk.injEq,
    chars]
  constructor
  · rintro ⟨a, _, ⟨rfl, -⟩, _, rfl, b, _, ⟨rfl, -⟩, _, rfl, c, _, ⟨rfl, -⟩, _, rfl,
      d, _, ⟨rfl, stop⟩, rfl, rfl⟩
    exact ⟨a, b, c, d, rfl, rfl, stop⟩
  · rintro ⟨a, b, c, d, rfl, rfl, stop⟩
    exact ⟨a, _, ⟨rfl, point _⟩, _, rfl, b, _, ⟨rfl, point _⟩, _, rfl, c, _, ⟨rfl, point _⟩, _, rfl,
      d, _, ⟨rfl, stop⟩, rfl, rfl⟩

theorem toList_pointed (a b c d : UInt8) :
    (pointed [a, b, c, d]).toList = pointedChars a b c d := by
  have joined : pointed [a, b, c, d] = toString a.toNat ++ "." ++ toString b.toNat ++ "." ++
      toString c.toNat ++ "." ++ toString d.toNat := rfl
  rw [joined, pointedChars]
  simp

end NodeProvisioner.IpAddress
