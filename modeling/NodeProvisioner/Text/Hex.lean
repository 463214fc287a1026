/-!
# Hexadecimal digits

Lower-case digits are written; both cases are read.
-/

namespace NodeProvisioner.Text

/-- The lower-case digit of a number below sixteen. -/
def hexDigit (n : Nat) : Char := Nat.digitChar n

/-- The value of a hexadecimal digit. -/
def hexValue? (c : Char) : Option Nat :=
  if '0' ≤ c ∧ c ≤ '9' then some (c.toNat - '0'.toNat)
  else if 'a' ≤ c ∧ c ≤ 'f' then some (c.toNat - 'a'.toNat + 10)
  else if 'A' ≤ c ∧ c ≤ 'F' then some (c.toNat - 'A'.toNat + 10)
  else none

theorem hexValue?_hexDigit {n : Nat} (h : n < 16) : hexValue? (hexDigit n) = some n := by
  have all : ∀ m ∈ List.range 16, hexValue? (hexDigit m) = some m := by decide
  exact all n (List.mem_range.mpr h)

/-- The number that a run of hexadecimal digits stands for. -/
def ofHexDigits? (digits : List Char) : Option Nat :=
  digits.foldlM (fun n c => (hexValue? c).map (16 * n + ·)) 0

/-- Two digits for a byte. -/
def hexByte (b : UInt8) : List Char :=
  [hexDigit (b.toNat / 16), hexDigit (b.toNat % 16)]

/-- Two digits for each byte. -/
def hexBytes (bytes : List UInt8) : String :=
  String.ofList (bytes.flatMap hexByte)

/-- Reads two digits for each byte. -/
def bytesOfHex? : List Char → Option (List UInt8)
  | [] => some []
  | high :: low :: rest => do
    let h ← hexValue? high
    let l ← hexValue? low
    let bytes ← bytesOfHex? rest
    return UInt8.ofNat (16 * h + l) :: bytes
  | _ => none

end NodeProvisioner.Text
