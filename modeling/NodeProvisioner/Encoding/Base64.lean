/-!
# Base64

Three bytes stand for four characters. The last group is padded, and the bits that the padding
leaves over are zero. Reading is strict: no character outside the alphabet, no padding missing, no
bit left over.

Main statement: `decode?_encode`, reading gives back what was written.
-/

namespace NodeProvisioner.Base64

/-- The character of a number below sixty-four. -/
def digit (n : Nat) : Char :=
  if n < 26 then Char.ofNat ('A'.toNat + n)
  else if n < 52 then Char.ofNat ('a'.toNat + (n - 26))
  else if n < 62 then Char.ofNat ('0'.toNat + (n - 52))
  else if n = 62 then '+' else '/'

/-- The number of a character of the alphabet. -/
def value? (c : Char) : Option Nat :=
  if 'A' ≤ c ∧ c ≤ 'Z' then some (c.toNat - 'A'.toNat)
  else if 'a' ≤ c ∧ c ≤ 'z' then some (c.toNat - 'a'.toNat + 26)
  else if '0' ≤ c ∧ c ≤ '9' then some (c.toNat - '0'.toNat + 52)
  else if c = '+' then some 62
  else if c = '/' then some 63
  else none

theorem value?_digit {n : Nat} (h : n < 64) : value? (digit n) = some n := by
  have all : ∀ m ∈ List.range 64, value? (digit m) = some m := by decide
  exact all n (List.mem_range.mpr h)

theorem digit_ne_pad {n : Nat} (h : n < 64) : digit n ≠ '=' := by
  have all : ∀ m ∈ List.range 64, digit m ≠ '=' := by decide
  exact all n (List.mem_range.mpr h)

/-- Writes bytes. -/
def encode : List UInt8 → List Char
  | a :: b :: c :: rest =>
    let n := a.toNat * 65536 + b.toNat * 256 + c.toNat
    digit (n / 262144) :: digit (n / 4096 % 64) :: digit (n / 64 % 64) :: digit (n % 64) ::
      encode rest
  | [a, b] =>
    let n := a.toNat * 1024 + b.toNat * 4
    [digit (n / 4096), digit (n / 64 % 64), digit (n % 64), '=']
  | [a] =>
    let n := a.toNat * 16
    [digit (n / 64), digit (n % 64), '=', '=']
  | [] => []

/-- Reads bytes. -/
def decode? : List Char → Option (List UInt8)
  | [] => some []
  | [a, b, '=', '='] => do
    let n := (← value? a) * 64 + (← value? b)
    if n % 16 = 0 then some [UInt8.ofNat (n / 16)] else none
  | [a, b, c, '='] => do
    let n := (← value? a) * 4096 + (← value? b) * 64 + (← value? c)
    if n % 4 = 0 then some [UInt8.ofNat (n / 1024), UInt8.ofNat (n / 4 % 256)] else none
  | a :: b :: c :: d :: rest => do
    let n := (← value? a) * 262144 + (← value? b) * 4096 + (← value? c) * 64 + (← value? d)
    let bytes ← decode? rest
    return UInt8.ofNat (n / 65536) :: UInt8.ofNat (n / 256 % 256) :: UInt8.ofNat (n % 256) :: bytes
  | _ => none

/-- Four characters of the alphabet are read as three bytes. -/
theorem decode?_group {a b c d : Nat} (ha : a < 64) (hb : b < 64) (hc : c < 64) (hd : d < 64)
    (rest : List Char) :
    decode? (digit a :: digit b :: digit c :: digit d :: rest) =
      (decode? rest).map fun bytes =>
        let n := a * 262144 + b * 4096 + c * 64 + d
        UInt8.ofNat (n / 65536) :: UInt8.ofNat (n / 256 % 256) :: UInt8.ofNat (n % 256) :: bytes := by
  rw [decode?.eq_def]
  split
  · simp_all
  · next h => simp only [List.cons.injEq] at h; exact absurd h.2.2.1 (digit_ne_pad hc)
  · next h => simp only [List.cons.injEq] at h; exact absurd h.2.2.2.1 (digit_ne_pad hd)
  · next h =>
    simp only [List.cons.injEq] at h
    obtain ⟨rfl, rfl, rfl, rfl, rfl⟩ := h
    cases decode? rest <;> simp [value?_digit, ha, hb, hc, hd]
  · next h => exact absurd rfl (h _ _ _ _ _)

/-- A number is a byte of the same value. -/
theorem ofNat_eq {n : Nat} {b : UInt8} (h : n = b.toNat) : UInt8.ofNat n = b := by
  rw [h, UInt8.ofNat_toNat]

/-- Three characters of the alphabet and a padding are read as two bytes. -/
theorem decode?_pair {a b c : Nat} (ha : a < 64) (hb : b < 64) (hc : c < 64)
    (h : (a * 4096 + b * 64 + c) % 4 = 0) :
    decode? [digit a, digit b, digit c, '='] =
      some [UInt8.ofNat ((a * 4096 + b * 64 + c) / 1024),
        UInt8.ofNat ((a * 4096 + b * 64 + c) / 4 % 256)] := by
  rw [decode?.eq_def]
  split
  · simp_all
  · next e => simp only [List.cons.injEq] at e; exact absurd e.2.2.1 (digit_ne_pad hc)
  · next e =>
    simp only [List.cons.injEq] at e
    obtain ⟨rfl, rfl, rfl, -⟩ := e
    simp [value?_digit, ha, hb, hc, h]
  · next e1 e2 =>
    simp only [List.cons.injEq] at e2
    exact absurd e2.2.2.2.2.symm (e1 e2.2.2.2.1.symm)
  · next e => exact absurd rfl (e _ _ _ _ _)

/-- Reading gives back what was written. -/
theorem decode?_encode (bytes : List UInt8) : decode? (encode bytes) = some bytes := by
  fun_induction encode bytes with
  | case1 a b c rest n ih =>
    have ha := a.toNat_lt; have hb := b.toNat_lt; have hc := c.toNat_lt
    rw [decode?_group (by omega) (by omega) (by omega) (by omega), ih]
    simp only [Option.map_some, Option.some.injEq, List.cons.injEq, and_true]
    refine ⟨ofNat_eq ?_, ofNat_eq ?_, ofNat_eq ?_⟩ <;> omega
  | case2 a b n =>
    have ha := a.toNat_lt; have hb := b.toNat_lt
    rw [decode?_pair (by omega) (by omega) (by omega) (by omega)]
    simp only [Option.some.injEq, List.cons.injEq, and_true]
    refine ⟨ofNat_eq ?_, ofNat_eq ?_⟩ <;> omega
  | case3 a n =>
    have ha := a.toNat_lt
    have h : (n / 64 * 64 + n % 64) % 16 = 0 := by omega
    simp only [decode?, value?_digit (show n / 64 < 64 by omega),
      value?_digit (show n % 64 < 64 by omega), Option.bind_eq_bind, Option.bind_some, h]
    simp only [↓reduceIte, Option.some.injEq, List.cons.injEq, and_true]
    exact ofNat_eq (by omega)
  | case4 => rfl

/-- The bytes of a text, written. -/
def encodeText (s : String) : String :=
  String.ofList (encode s.toUTF8.toList)

/-- The text that is written so, if it is one. -/
def decodeText? (s : String) : Option String := do
  let bytes ← decode? s.toList
  String.fromUTF8? ⟨bytes.toArray⟩

end NodeProvisioner.Base64
