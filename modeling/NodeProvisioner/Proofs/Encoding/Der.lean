import Mathlib
import NodeProvisioner.Encoding.Der

/-!
# Values are read back

What was written as a value is read as one, whatever bytes follow it. A reader of parts is made of
readers, one after another, and what it reads is made of what they read: a statement of this module
is about one way of putting readers together, so that a structure is read back by going through it
once.

A length is read up to `2 ^ 64`, so all statements are about rows of bytes below that. The
relations `Reads` and `ReadsAll` carry the bound with them, as a part is never longer than the
whole.
-/

namespace NodeProvisioner.Der

variable {α β : Type} {r : Reader α} {f : α → Reader β} {x y : List UInt8} {a : α} {b : β}

/-! ## Numbers -/

theorem ofBytes_append_singleton (bytes : List UInt8) (b : UInt8) :
    ofBytes (bytes ++ [b]) = 256 * ofBytes bytes + b.toNat := by
  simp [ofBytes, List.foldl_append]

theorem ofBytes_zero_cons (bytes : List UInt8) : ofBytes (0 :: bytes) = ofBytes bytes := rfl

theorem ofBytes_bytesOf (n : Nat) : ofBytes (bytesOf n) = n := by
  induction n using bytesOf.induct with
  | case1 => simp [bytesOf, ofBytes]
  | case2 n h ih =>
    rw [bytesOf, if_neg h, ofBytes_append_singleton, ih, UInt8.toNat_ofNat']
    omega

theorem bytesOf_ne_nil {n : Nat} (h : n ≠ 0) : bytesOf n ≠ [] := by
  rw [bytesOf, if_neg h]
  simp

/-- The number of bytes is the least possible. -/
theorem length_bytesOf_le {n k : Nat} (h : n < 256 ^ k) : (bytesOf n).length ≤ k := by
  induction k generalizing n with
  | zero =>
    obtain rfl : n = 0 := by simpa using h
    simp [bytesOf]
  | succ k ih =>
    rw [bytesOf]
    split
    · simp
    · have := ih (n := n / 256) (by rw [Nat.pow_succ] at h; omega)
      simp only [List.length_append, List.length_singleton]
      omega

/-! ## Lengths -/

theorem length?_lengthBytes {n : Nat} (h : n < 2 ^ 64) (rest : List UInt8) :
    length? (lengthBytes n ++ rest) = some (n, rest) := by
  unfold lengthBytes
  split
  · next small =>
    have value : (UInt8.ofNat n).toNat = n := by rw [UInt8.toNat_ofNat']; omega
    have below : UInt8.ofNat n < 128 := by rw [UInt8.lt_iff_toNat_lt, value]; exact small
    simp [length?, below, value]
  · next large =>
    have few : (bytesOf n).length ≤ 8 := length_bytesOf_le (by omega)
    have some_bytes : (bytesOf n).length ≠ 0 := by simpa using bytesOf_ne_nil (by omega)
    have value : (UInt8.ofNat (128 + (bytesOf n).length)).toNat = 128 + (bytesOf n).length := by
      rw [UInt8.toNat_ofNat']
      omega
    have above : ¬UInt8.ofNat (128 + (bytesOf n).length) < 128 := by
      rw [UInt8.lt_iff_toNat_lt, value]
      simp
    have proper : ¬((bytesOf n).length = 0 ∨ (bytesOf n).length = 127
        ∨ (bytesOf n ++ rest).length < (bytesOf n).length) := by
      simp only [List.length_append]
      omega
    simp only [List.cons_append, length?, above, ↓reduceIte, value, Nat.add_sub_cancel_left, proper,
      List.take_left, List.drop_left, ofBytes_bytesOf]
    exact if_pos h

/-! ## Values -/

theorem length_le_encode (lead : UInt8) (c : List UInt8) : c.length ≤ (encode lead c).length := by
  simp [encode]
  omega

theorem encode_ne_nil (lead : UInt8) (c : List UInt8) : encode lead c ≠ [] := by
  simp [encode]

/-- A value is read as it was written, whatever follows. -/
theorem element?_encode {lead : UInt8} (short : lead.toNat % 32 ≠ 31) {c : List UInt8}
    (fits : c.length < 2 ^ 64) (rest : List UInt8) :
    element? (encode lead c ++ rest) = some (⟨lead, lead.toNat % 32, c⟩, rest) := by
  have length := length?_lengthBytes fits (c ++ rest)
  simp [encode, element?, short, length]

/-! ## Readers -/

/-- The reader reads these bytes as a value and leaves what follows. -/
def Reads (r : Reader α) (bytes : List UInt8) (a : α) : Prop :=
  bytes.length < 2 ^ 64 → ∀ rest, r.run (bytes ++ rest) = some (a, rest)

/-- The reader reads these bytes as a value, to their end. -/
def ReadsAll (r : Reader α) (bytes : List UInt8) (a : α) : Prop :=
  bytes.length < 2 ^ 64 → r.run bytes = some (a, [])

theorem Reads.all (h : Reads r x a) : ReadsAll r x a := fun fits => by
  simpa using h fits []

theorem reads_pure (a : α) : Reads (pure a) [] a := fun _ _ => rfl

theorem Reads.bind_all (first : Reads r x a) (next : ReadsAll (f a) y b) :
    ReadsAll (r >>= f) (x ++ y) b := by
  intro fits
  rw [List.length_append] at fits
  simp [StateT.run_bind, first (by omega), next (by omega)]

theorem Reads.map (g : α → β) (h : Reads r x a) : Reads (r >>= fun a => pure (g a)) x (g a) :=
  fun fits rest => by simp [h fits rest]

theorem ReadsAll.map (g : α → β) (h : ReadsAll r x a) :
    ReadsAll (r >>= fun a => pure (g a)) x (g a) := fun fits => by simp [h fits]

/-! ## Values and their parts -/

section
variable {number : Nat} {lead : UInt8} {c : List UInt8}

theorem reads_any (short : lead.toNat % 32 ≠ 31) (c : List UInt8) :
    Reads any (encode lead c) ⟨lead, lead.toNat % 32, c⟩ := fun fits =>
  element?_encode short (Nat.lt_of_le_of_lt (length_le_encode lead c) fits)

theorem reads_content (number_eq : lead.toNat % 32 = number) (short : number ≠ 31)
    (c : List UInt8) : Reads (content number) (encode lead c) c := by
  subst number_eq
  intro fits rest
  simp [content, StateT.run_bind, reads_any short c fits rest]

/-- A value with another number is not what is looked for. -/
theorem content_run_of_ne (short : lead.toNat % 32 ≠ 31) (other : lead.toNat % 32 ≠ number)
    (fits : c.length < 2 ^ 64) (rest : List UInt8) :
    (content number).run (encode lead c ++ rest) = none := by
  have read : any.run (encode lead c ++ rest) = some (⟨lead, lead.toNat % 32, c⟩, rest) :=
    element?_encode short fits rest
  rw [content, StateT.run_bind, read, Option.bind_eq_bind, Option.bind_some, if_neg other]
  rfl

/-- The parts are read from the content, with something left over or not. -/
theorem reads_within_of_run {rest : List UInt8} (number_eq : lead.toNat % 32 = number)
    (short : number ≠ 31) (inner : c.length < 2 ^ 64 → r.run c = some (a, rest)) :
    Reads (within number r) (encode lead c) a := by
  intro fits more
  have parts := inner (Nat.lt_of_le_of_lt (length_le_encode lead c) fits)
  simp [within, StateT.run_bind, reads_content number_eq short c fits more, parts]

theorem reads_within (h : ReadsAll r c a) (number_eq : lead.toNat % 32 = number)
    (short : number ≠ 31) : Reads (within number r) (encode lead c) a :=
  reads_within_of_run number_eq short h

theorem reads_exactly (h : ReadsAll r c a) (number_eq : lead.toNat % 32 = number)
    (short : number ≠ 31) : Reads (exactly number r) (encode lead c) a := by
  intro fits more
  have parts := h (Nat.lt_of_le_of_lt (length_le_encode lead c) fits)
  simp [exactly, StateT.run_bind, reads_content number_eq short c fits more, parts]

end

theorem reads_identifier (bytes : List UInt8) :
    Reads (content objectIdentifier) (identifier bytes) bytes :=
  reads_content rfl (by decide) bytes

theorem reads_octets (bytes : List UInt8) : Reads (content octetString) (octets bytes) bytes :=
  reads_content rfl (by decide) bytes

theorem reads_natural (n : Nat) : Reads (content integer) (natural n) (naturalContent n) :=
  reads_content rfl (by decide) _

theorem reads_truth (b : Bool) : Reads (content boolean) (truth b) [if b then 255 else 0] :=
  reads_content rfl (by decide) _

theorem reads_sequence {parts : List (List UInt8)} (h : ReadsAll r parts.flatten a) :
    Reads (within sequence r) (sequenceOf parts) a :=
  reads_within h rfl (by decide)

theorem reads_exactSequence {parts : List (List UInt8)} (h : ReadsAll r parts.flatten a) :
    Reads (exactly sequence r) (sequenceOf parts) a :=
  reads_exactly h rfl (by decide)

/-! ## Optional values and rows -/

theorem reads_perhaps (h : Reads r x a) : Reads (perhaps r) x (some a) := fun fits rest => by
  have read : r (x ++ rest) = some (a, rest) := h fits rest
  simp [perhaps, StateT.run, read]

theorem perhaps_run_of_none (h : r.run x = none) : (perhaps r).run x = some (none, x) := by
  have read : r x = none := h
  simp [perhaps, StateT.run, read]

/-- An optional value is not there if the next one has another number. -/
theorem readsAll_perhaps_of_ne {number : Nat} {lead : UInt8} {c more : List UInt8}
    {f : Option (List UInt8) → Reader β} (short : lead.toNat % 32 ≠ 31)
    (other : lead.toNat % 32 ≠ number) (next : ReadsAll (f none) (encode lead c ++ more) b) :
    ReadsAll (perhaps (content number) >>= f) (encode lead c ++ more) b := by
  intro fits
  have inside : c.length < 2 ^ 64 := by
    have := length_le_encode lead c
    rw [List.length_append] at fits
    omega
  have absent := perhaps_run_of_none (content_run_of_ne short other inside more)
  rw [StateT.run_bind, absent]
  exact next fits

/-- At the end there is no value. -/
theorem readsAll_perhaps_any : ReadsAll (perhaps any) [] none := fun _ => rfl

theorem many_run_nil (r : Reader α) (fuel : Nat) : (many r fuel).run [] = some ([], []) := by
  cases fuel with
  | zero => rfl
  | succ fuel =>
    simp only [many, StateT.run]
    split <;> simp

/-- A row is read whatever it is, if only for a part of it. -/
theorem exists_many_run (r : Reader α) (fuel : Nat) (x : List UInt8) :
    ∃ as rest, (many r fuel).run x = some (as, rest) := by
  induction fuel generalizing x with
  | zero => exact ⟨[], x, rfl⟩
  | succ fuel ih =>
    simp only [many, StateT.run]
    split
    · next a rest _ =>
      split
      · obtain ⟨as, left, read⟩ := ih rest
        exact ⟨a :: as, left, by simp [StateT.run] at read; simp [read]⟩
      · exact ⟨[], x, rfl⟩
    · exact ⟨[], x, rfl⟩

theorem exists_reads_within_row (r : Reader α) {number : Nat} {lead : UInt8} (c : List UInt8)
    (number_eq : lead.toNat % 32 = number) (short : number ≠ 31) :
    ∃ as, Reads (within number (row r)) (encode lead c) as := by
  obtain ⟨as, rest, read⟩ := exists_many_run r c.length c
  exact ⟨as, reads_within_of_run number_eq short fun _ => read⟩

/-- Values that are read one by one are read as a row. -/
theorem readsAll_row {items : List β} {bytes : β → List UInt8} {value : β → α}
    (each : ∀ item ∈ items, Reads r (bytes item) (value item))
    (nonempty : ∀ item ∈ items, bytes item ≠ []) :
    ReadsAll (row r) (items.map bytes).flatten (items.map value) := by
  suffices ∀ fuel, (items.map bytes).flatten.length ≤ fuel →
      ReadsAll (many r fuel) (items.map bytes).flatten (items.map value) from
    this _ (Nat.le_refl _)
  induction items with
  | nil => exact fun fuel _ _ => many_run_nil r fuel
  | cons item items ih =>
    intro fuel enough fits
    have first := each item (by simp)
    have length_pos : 0 < (bytes item).length := List.length_pos_iff.mpr (nonempty item (by simp))
    simp only [List.map_cons, List.flatten_cons, List.length_append] at enough fits ⊢
    cases fuel with
    | zero => omega
    | succ fuel =>
      have others := ih (fun item h => each item (by simp [h]))
        (fun item h => nonempty item (by simp [h])) fuel (by omega) (by omega)
      have read := first (by omega) (items.map bytes).flatten
      simp only [many, StateT.run] at read others ⊢
      simp [read, others, length_pos]

theorem reads_withBytes (h : Reads r x a) : Reads (withBytes r) x (a, x) := by
  intro fits rest
  have read : r (x ++ rest) = some (a, rest) := h fits rest
  simp [withBytes, StateT.run, read]

/-! ## Numbers and bits -/

theorem ofBytes_naturalContent (n : Nat) : ofBytes (naturalContent n) = n := by
  have value := ofBytes_bytesOf n
  unfold naturalContent
  split
  · next h => rw [h] at value; exact value
  · next h =>
    rw [h] at value
    split
    · rw [ofBytes_zero_cons]; exact value
    · exact value

/-- The first byte of a natural number does not make it look negative. -/
theorem exists_naturalContent (n : Nat) : ∃ b bytes, naturalContent n = b :: bytes ∧ b < 128 := by
  unfold naturalContent
  split
  · exact ⟨0, [], rfl, by decide⟩
  · next b bytes _ =>
    split
    · exact ⟨0, b :: bytes, rfl, by decide⟩
    · next h => exact ⟨b, bytes, rfl, by simpa using h⟩

theorem reads_naturalNumber (n : Nat) : Reads naturalNumber (natural n) n := by
  obtain ⟨b, bytes, content_eq, positive⟩ := exists_naturalContent n
  have value := ofBytes_naturalContent n
  intro fits rest
  have read : (content integer).run (natural n ++ rest) = some (b :: bytes, rest) :=
    content_eq ▸ reads_content rfl (by decide) _ fits rest
  rw [content_eq] at value
  simp [naturalNumber, StateT.run_bind, read, UInt8.not_le.mpr positive, value]

theorem reads_bitRow (bytes : List UInt8) : Reads bitRow (bits bytes) (0, bytes) := by
  intro fits rest
  have read : (content bitString).run (bits bytes ++ rest) = some (0 :: bytes, rest) :=
    reads_content rfl (by decide) _ fits rest
  cases bytes with
  | nil => simp [bitRow, StateT.run_bind, read]
  | cons b bytes => simp [bitRow, StateT.run_bind, read, Nat.mod_one]

end NodeProvisioner.Der
