import Mathlib.Data.List.TakeDrop
import Mathlib.Data.List.TakeWhile
import NodeProvisioner.Net.Block
import NodeProvisioner.Proofs.Net.Addresses

/-!
# Blocks and their first hosts

The addresses of a block share the bits of its prefix. The first of them, the network, has only
zeros after the prefix, and the last one, for broadcasts, only ones. The first host comes right
after the network.

Main statements: `AddressBlock.parse_eq_some_iff`, `AddressBlock.exists_layout`.
-/

namespace NodeProvisioner

open IpAddress (fourOctets? fourOctets?_eq_some_iff pointed pointedChars toList_pointed)

/-! ## Words and octets -/

/-- The address that a word stands for, in text. -/
def dotted (n : UInt32) : String :=
  let n := n.toNat
  s!"{n / 256 / 256 / 256}.{n / 256 / 256 % 256}.{n / 256 % 256}.{n % 256}"

theorem toNat_ofOctets (a b c d : UInt8) :
    (ofOctets [a, b, c, d]).toNat
      = ((a.toNat * 256 + b.toNat) * 256 + c.toNat) * 256 + d.toNat := by
  have ha := a.toNat_lt
  have hb := b.toNat_lt
  have hc := c.toNat_lt
  have hd := d.toNat_lt
  simp [ofOctets]
  omega

theorem toNat_toOctets (n : UInt32) : (toOctets n).map UInt8.toNat
    = [n.toNat / 256 / 256 / 256, n.toNat / 256 / 256 % 256, n.toNat / 256 % 256,
      n.toNat % 256] := by
  have hn := n.toNat_lt
  simp [toOctets, Nat.shiftRight_eq_div_pow]
  omega

theorem exists_toOctets (n : UInt32) :
    ∃ a b c d, toOctets n = [a, b, c, d] ∧ ofOctets [a, b, c, d] = n := by
  refine ⟨_, _, _, _, rfl, UInt32.toNat_inj.mp ?_⟩
  have octets := toNat_toOctets n
  simp only [toOctets, List.map_cons, List.map_nil, List.cons.injEq, and_true] at octets
  rw [toNat_ofOctets, octets.1, octets.2.1, octets.2.2.1, octets.2.2.2]
  omega

theorem toOctets_ofOctets (a b c d : UInt8) : toOctets (ofOctets [a, b, c, d]) = [a, b, c, d] := by
  have ha := a.toNat_lt
  have hb := b.toNat_lt
  have hc := c.toNat_lt
  have hd := d.toNat_lt
  have octets := toNat_toOctets (ofOctets [a, b, c, d])
  rw [toNat_ofOctets] at octets
  simp only [toOctets, List.map_cons, List.map_nil, List.cons.injEq, and_true] at octets ⊢
  refine ⟨?_, ?_, ?_, ?_⟩ <;> refine UInt8.toNat_inj.mp ?_ <;> omega

theorem pointed_toOctets (n : UInt32) : pointed (toOctets n) = dotted n := by
  have texts : (toOctets n).map (fun o => toString o.toNat)
      = ((toOctets n).map UInt8.toNat).map toString := by
    rw [List.map_map]
    rfl
  rw [pointed, texts, toNat_toOctets]
  rfl

theorem toList_dotted_ofOctets (a b c d : UInt8) :
    (dotted (ofOctets [a, b, c, d])).toList = pointedChars a b c d := by
  rw [← pointed_toOctets, toOctets_ofOctets, toList_pointed]

/-! ## Texts of blocks -/

namespace AddressBlock

variable {b : AddressBlock}

/-- The text is one of the block: its address, a slash, and the length of its prefix in one of its
spellings. -/
def IsWritten (b : AddressBlock) (text : String) : Prop :=
  ∃ length, Decimal.Spells b.length.toNat length ∧ text = dotted b.address ++ "/" ++ length

theorem slash_not_mem (a b c d : UInt8) : '/' ∉ pointedChars a b c d := by
  have digits (n : Nat) : '/' ∉ Nat.toDigits 10 n := fun mem =>
    absurd ((Json.isRun_toDigits n).isDigit _ mem) (by decide)
  simp [pointedChars, digits]

theorem parse_of_not_mem {text : String} (h : '/' ∉ text.toList) : parse text = none := by
  have clear : ∀ c ∈ text.toList, decide (c ≠ '/') = true := fun c mem =>
    decide_eq_true fun slash => h (slash ▸ mem)
  unfold parse
  rw [List.span_eq_takeWhile_dropWhile, List.dropWhile_eq_nil_iff.mpr clear]

theorem parse_of_append {text : String} {address length : List Char} (h : '/' ∉ address)
    (eq : text.toList = address ++ '/' :: length) :
    parse text = (fourOctets? address).bind fun (octets, rest) =>
      (Decimal.natural? 32 length).bind fun n =>
        if rest.isEmpty then some ⟨ofOctets octets, .ofNat n⟩ else none := by
  have clear : ∀ c ∈ address, decide (c ≠ '/') = true := fun c mem =>
    decide_eq_true fun slash => h (slash ▸ mem)
  unfold parse
  rw [eq, List.span_eq_takeWhile_dropWhile, List.takeWhile_append_of_pos clear,
    List.dropWhile_append_of_pos clear, List.takeWhile_cons_of_neg (by decide),
    List.dropWhile_cons_of_neg (by decide), List.append_nil]
  rfl

/-- **The texts of a block are those that are read as this block.** -/
theorem parse_eq_some_iff {text : String} : parse text = some b ↔ b.IsWritten text := by
  constructor
  · intro read
    by_cases slash : '/' ∈ text.toList
    · obtain ⟨address, length, eq, clear⟩ := List.eq_append_cons_of_mem slash
      rw [parse_of_append clear eq] at read
      simp only [Option.bind_eq_some_iff, Prod.exists] at read
      obtain ⟨octets, rest, four, n, number, read⟩ := read
      split at read
      · next whole =>
        obtain ⟨x, y, z, w, rfl, rfl, -⟩ := fourOctets?_eq_some_iff.mp four
        obtain ⟨fits, spelled⟩ := Decimal.natural?_eq_some_iff.mp number
        obtain rfl := Option.some.inj read
        obtain rfl := List.isEmpty_iff.mp whole
        refine ⟨String.ofList length, ?_, String.toList_injective ?_⟩
        · rwa [UInt32.toNat_ofNat_of_lt' fits]
        · have chars : (String.ofList length).toList = length := String.toList_ofList
          rw [eq, List.append_nil, String.toList_append, String.toList_append,
            toList_dotted_ofOctets, chars, List.append_assoc]
          rfl
      · cases read
    · rw [parse_of_not_mem slash] at read
      cases read
  · rintro ⟨length, spelled, rfl⟩
    obtain ⟨x, y, z, w, -, word⟩ := exists_toOctets b.address
    have eq : (dotted b.address ++ "/" ++ length).toList
        = pointedChars x y z w ++ '/' :: length.toList := by
      rw [← word, String.toList_append, String.toList_append, toList_dotted_ofOctets,
        List.append_assoc]
      rfl
    have four : fourOctets? (pointedChars x y z w) = some ([x, y, z, w], []) :=
      fourOctets?_eq_some_iff.mpr ⟨x, y, z, w, rfl, (List.append_nil _).symm, nofun⟩
    have number : Decimal.natural? 32 length.toList = some b.length.toNat :=
      Decimal.natural?_eq_some_iff.mpr ⟨b.length.toNat_lt, by rwa [String.ofList_toList]⟩
    simp only [parse_of_append (slash_not_mem x y z w) eq, four, number, Option.bind_some,
      List.isEmpty_nil, if_true, word, UInt32.ofNat_toNat]

/-! ## Bits -/

/-- The address is in the block: its first bits are those that all addresses of the block share. -/
def Contains (b : AddressBlock) (a : UInt32) : Prop :=
  ∀ i, 32 - b.length.toNat ≤ i → a.toNat.testBit i = b.address.toNat.testBit i

theorem testBit_of_le {a : UInt32} {i : Nat} (h : 32 ≤ i) : a.toNat.testBit i = false :=
  Nat.testBit_lt_two_pow (Nat.lt_of_lt_of_le a.toNat_lt (Nat.pow_le_pow_right (by decide) h))

theorem contains_iff {a : UInt32} : b.Contains a ↔ ∀ i < 32, 32 - b.length.toNat ≤ i →
    a.toNat.testBit i = b.address.toNat.testBit i := by
  refine ⟨fun h i _ => h i, fun h i first => ?_⟩
  obtain inside | outside := Nat.lt_or_ge i 32
  · exact h i inside first
  · rw [testBit_of_le outside, testBit_of_le outside]

instance (a : UInt32) : Decidable (b.Contains a) := decidable_of_iff _ contains_iff.symm

/-- The address in the block that has bits of one kind only after the first ones. With zeros it is
that of the network, with ones the one for broadcasts. -/
structure IsEnd (b : AddressBlock) (last : Bool) (a : UInt32) : Prop where
  contains : b.Contains a
  ends : ∀ i < 32 - b.length.toNat, a.toNat.testBit i = last

/-- Of each kind there is one. -/
theorem IsEnd.unique {last : Bool} {a a' : UInt32} (h : b.IsEnd last a) (h' : b.IsEnd last a') :
    a = a' := by
  refine UInt32.toNat_inj.mp (Nat.eq_of_testBit_eq fun i => ?_)
  obtain last | first := Nat.lt_or_ge i (32 - b.length.toNat)
  · rw [h.ends i last, h'.ends i last]
  · rw [h.contains i first, h'.contains i first]

/-- The ends of a block do not depend on the address by which it is given. -/
theorem IsEnd.of_contains {address : UInt32} (h : b.Contains address) {last : Bool} {a : UInt32}
    (isEnd : IsEnd ⟨address, b.length⟩ last a) : b.IsEnd last a :=
  ⟨fun i first => (isEnd.contains i first).trans (h i first), isEnd.ends⟩

/-- The bits of the mask. For a prefix of no bits there is nothing to be shifted. -/
theorem testBit_mask (h : b.length.toNat ≤ 32) {i : Nat} (inside : i < 32) :
    b.mask.toNat.testBit i = decide (32 - b.length.toNat ≤ i) := by
  have places : (32 - b.length).toNat = 32 - b.length.toNat :=
    UInt32.toNat_sub_of_le _ _ (UInt32.le_iff_toNat_le.mpr h)
  have below : 32 - b.length < 32 ↔ 32 - b.length.toNat < 32 := by
    rw [UInt32.lt_iff_toNat_lt, places]
    rfl
  unfold mask shiftLeft?
  simp only [below]
  split
  · next few =>
    have ones : (0xffffffff : UInt32).toNat = 2 ^ 32 - 1 := rfl
    rw [Option.getD_some, UInt32.toNat_shiftLeft, places, Nat.mod_eq_of_lt few,
      Nat.testBit_mod_two_pow, Nat.testBit_shiftLeft, ones, Nat.testBit_two_pow_sub_one,
      decide_eq_true inside, decide_eq_true (Nat.lt_of_le_of_lt (Nat.sub_le ..) inside),
      Bool.true_and, Bool.and_true]
  · next all =>
    rw [Option.getD_none, UInt32.toNat_zero, Nat.zero_testBit, decide_eq_false (by omega)]

/-- The network has the bits of the address where the mask has ones. -/
theorem testBit_network (h : b.length.toNat ≤ 32) (i : Nat) :
    b.network.toNat.testBit i
      = (decide (32 - b.length.toNat ≤ i) && b.address.toNat.testBit i) := by
  obtain inside | outside := Nat.lt_or_ge i 32
  · rw [network, UInt32.toNat_and, Nat.testBit_and, testBit_mask h inside, Bool.and_comm]
  · rw [testBit_of_le outside, testBit_of_le outside, Bool.and_false]

theorem isEnd_network (h : b.length.toNat ≤ 32) : b.IsEnd false b.network := by
  constructor
  · intro i first
    rw [testBit_network h, decide_eq_true first, Bool.true_and]
  · intro i last
    rw [testBit_network h, decide_eq_false (Nat.not_le.mpr last), Bool.false_and]

/-- The other end has ones where the mask has zeros. -/
theorem exists_isEnd_true (h : b.length.toNat ≤ 32) : ∃ broadcast, b.IsEnd true broadcast := by
  have bits (i : Nat) : (b.address ||| ~~~b.mask).toNat.testBit i
      = (b.address.toNat.testBit i || (decide (i < 32) && !b.mask.toNat.testBit i)) := by
    change (b.address ||| ~~~b.mask).toBitVec.getLsbD i = _
    rw [UInt32.toBitVec_or, UInt32.toBitVec_not, BitVec.getLsbD_or, BitVec.getLsbD_not]
    rfl
  refine ⟨b.address ||| ~~~b.mask, fun i first => ?_, fun i last => ?_⟩
  · obtain inside | outside := Nat.lt_or_ge i 32
    · rw [bits, testBit_mask h inside, decide_eq_true first, Bool.not_true, Bool.and_false,
        Bool.or_false]
    · rw [testBit_of_le outside, testBit_of_le outside]
  · have inside : i < 32 := Nat.lt_of_lt_of_le last (Nat.sub_le ..)
    rw [bits, testBit_mask h inside, decide_eq_false (Nat.not_le.mpr last),
      decide_eq_true inside, Bool.not_false, Bool.and_true, Bool.or_true]

/-! ## First hosts -/

/-- How a block is laid out that has hosts: the first of them comes right after the network, and is
at neither end of the block. -/
structure Layout (b : AddressBlock) (network host broadcast : UInt32) : Prop where
  isNetwork : b.IsEnd false network
  isBroadcast : b.IsEnd true broadcast
  next : host.toNat = network.toNat + 1
  contains : b.Contains host
  ne_network : host ≠ network
  ne_broadcast : host ≠ broadcast

/-- The number after an even one differs from it in its last bit only. -/
theorem testBit_succ_of_even {n : Nat} (even : n.testBit 0 = false) (i : Nat) :
    (n + 1).testBit i = (decide (i = 0) || n.testBit i) := by
  rw [Nat.testBit_zero, decide_eq_false_iff_not] at even
  cases i with
  | zero =>
    rw [Nat.testBit_zero, decide_eq_true (by omega)]
    rfl
  | succ i =>
    have half : (n + 1) / 2 = n / 2 := by omega
    rw [Nat.testBit_add_one, Nat.testBit_add_one, half]
    rfl

/-- **There is room after the network.** At least two bits come after the prefix, so that the
network is even. -/
theorem toNat_network_lt (h : b.length.toNat ≤ 30) : b.network.toNat + 1 < UInt32.size := by
  have below := b.network.toNat_lt
  have size : UInt32.size = 2 ^ 32 := rfl
  have even := (isEnd_network (Nat.le_trans h (by decide))).ends 0 (by omega)
  rw [Nat.testBit_zero, decide_eq_false_iff_not] at even
  omega

theorem exists_layout (h : b.length.toNat ≤ 30) :
    ∃ broadcast, b.Layout b.network (b.network + 1) broadcast := by
  have isNetwork := isEnd_network (Nat.le_trans h (by decide))
  obtain ⟨broadcast, isBroadcast⟩ := exists_isEnd_true (Nat.le_trans h (by decide))
  have next : (b.network + 1).toNat = b.network.toNat + 1 := by
    rw [UInt32.toNat_add]
    exact Nat.mod_eq_of_lt (toNat_network_lt h)
  have bits (i : Nat) : (b.network + 1).toNat.testBit i
      = (decide (i = 0) || b.network.toNat.testBit i) := by
    rw [next, testBit_succ_of_even (isNetwork.ends 0 (by omega))]
  refine ⟨broadcast, isNetwork, isBroadcast, next, ?contains, ?ne_network, ?ne_broadcast⟩
  case contains =>
    intro i first
    rw [bits, decide_eq_false (by omega), Bool.false_or, isNetwork.contains i first]
  case ne_network =>
    intro same
    rw [same] at next
    omega
  case ne_broadcast =>
    -- the last bit but one tells the host from the other end
    intro same
    have one := bits 1
    rw [same, isBroadcast.ends 1 (by omega), isNetwork.ends 1 (by omega)] at one
    exact absurd one (by decide)

theorem length_ge_iff : b.length ≥ 31 ↔ 31 ≤ b.length.toNat := UInt32.le_iff_toNat_le

theorem firstHost?_of_le (h : b.length.toNat ≤ 30) : b.firstHost? = some (b.network + 1) :=
  if_neg fun long => absurd (length_ge_iff.mp long) (Nat.not_le.mpr (Nat.lt_succ_of_le h))

theorem firstHost?_of_ge (h : 31 ≤ b.length.toNat) : b.firstHost? = none :=
  if_pos (length_ge_iff.mpr h)

/-- **The first host does not depend on the address by which a block is given.** -/
theorem firstHost?_of_contains {address : UInt32} (h : b.Contains address) :
    firstHost? ⟨address, b.length⟩ = b.firstHost? := by
  obtain short | long := Nat.lt_or_ge b.length.toNat 31
  · have fits : b.length.toNat ≤ 32 := Nat.le_trans (Nat.le_of_lt short) (by decide)
    have other : IsEnd ⟨address, b.length⟩ false (network ⟨address, b.length⟩) :=
      isEnd_network fits
    have same : network ⟨address, b.length⟩ = b.network :=
      (other.of_contains h).unique (isEnd_network fits)
    rw [firstHost?_of_le (Nat.le_of_lt_succ short),
      firstHost?_of_le (b := ⟨address, b.length⟩) (Nat.le_of_lt_succ short), same]
  · rw [firstHost?_of_ge long, firstHost?_of_ge (b := ⟨address, b.length⟩) long]

/-! ## Overflows -/

/-- The sum of two words, unless it overflows. -/
def sum? (m n : UInt32) : Option UInt32 :=
  if m.toNat + n.toNat < UInt32.size then some (m + n) else none

/-- The difference of two words, unless it overflows. -/
def difference? (m n : UInt32) : Option UInt32 := if n.toNat ≤ m.toNat then some (m - n) else none

/-- The first host of the block, if there is one, by arithmetic that aborts at an overflow. -/
def firstHostOrAbort (b : AddressBlock) : Option (Option UInt32) :=
  if b.length ≥ 31 then some none
  else do
    let places ← difference? 32 b.length
    let host ← sum? (b.address &&& (shiftLeft? 0xffffffff places).getD 0) 1
    return some host

/-- **Nothing overflows.** -/
theorem firstHostOrAbort_eq (b : AddressBlock) : b.firstHostOrAbort = some b.firstHost? := by
  unfold firstHostOrAbort firstHost?
  split
  · rfl
  · next few =>
    have short : b.length.toNat ≤ 30 := Nat.le_of_not_lt (mt length_ge_iff.mpr few)
    have places : difference? 32 b.length = some (32 - b.length) :=
      if_pos (Nat.le_trans short (by decide))
    have host : sum? b.network 1 = some (b.network + 1) := if_pos (toNat_network_lt short)
    rw [places]
    exact congrArg (Option.bind · fun host => some (some host)) host

end AddressBlock

end NodeProvisioner
