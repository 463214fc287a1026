import NodeProvisioner.Proofs.Tokens

/-!
# The grammar of tokens

A token is six characters of `[a-z0-9]`, a point, and sixteen more of them; every text of this kind
is one, and says which one it is.

The characters of a new token come from a source of random bytes that is read in blocks. A byte that
would favour some characters is thrown away, and so is what is left of a block once there are enough
characters. So a part of a token is what the first bytes that count stand for, however many are
thrown away and wherever the blocks end.

Main statement: `BootstrapToken.spelled_and_drawn`.
-/

namespace NodeProvisioner

/-- The character is a lower-case letter or a digit. -/
def IsTokenChar (c : Char) : Prop := 'a' ≤ c ∧ c ≤ 'z' ∨ '0' ≤ c ∧ c ≤ '9'

instance (c : Char) : Decidable (IsTokenChar c) := inferInstanceAs (Decidable (_ ∨ _))

/-- What holds of the characters up to a number, one after the other, holds of them all. -/
theorem forall_char_lt {limit : Nat} {p : Char → Prop} (each : ∀ n < limit, p (Char.ofNat n))
    {c : Char} (low : c.toNat < limit) : p c := by
  have own := each c.toNat low
  rwa [Char.ofNat_toNat] at own

theorem mem_tokenAlphabet_iff {c : Char} : c ∈ tokenAlphabet ↔ IsTokenChar c := by
  constructor
  · have all : tokenAlphabet.all (IsTokenChar ·) = true := by decide
    exact fun mem => of_decide_eq_true (List.all_eq_true.mp all c mem)
  · intro h
    have low : c.toNat < 123 := by
      obtain ⟨-, le⟩ | ⟨-, le⟩ := h
      · exact Nat.lt_succ_of_le le
      · exact Nat.lt_of_le_of_lt le (by decide)
    exact forall_char_lt (p := fun c => IsTokenChar c → c ∈ tokenAlphabet) (by decide) low h

/-- The bytes of the characters of tokens. -/
def tokenBytes : List UInt8 := tokenAlphabet.map fun c => UInt8.ofNat c.toNat

theorem utf8EncodeChar_of_mem {c : Char} (h : c ∈ tokenAlphabet) :
    String.utf8EncodeChar c = [UInt8.ofNat c.toNat] := by
  have low : tokenAlphabet.all (·.toNat ≤ 127) = true := by decide
  exact if_pos (of_decide_eq_true (List.all_eq_true.mp low c h))

/-- A character of a token is one byte, and no other character consists of such bytes. -/
theorem forall_mem_utf8EncodeChar_iff (c : Char) :
    (∀ b ∈ String.utf8EncodeChar c, b ∈ tokenBytes) ↔ c ∈ tokenAlphabet := by
  constructor
  · intro bytes
    by_cases low : c.toNat < 128
    · have single : String.utf8EncodeChar c = [UInt8.ofNat c.toNat] :=
        if_pos (Nat.le_of_lt_succ low)
      have own := bytes _ (single ▸ List.mem_singleton_self _)
      exact forall_char_lt (p := fun c => UInt8.ofNat c.toNat ∈ tokenBytes → c ∈ tokenAlphabet)
        (by decide +kernel) low own
    · -- the last of several bytes is none of an ASCII character
      have last : UInt8.ofNat (c.toNat % 64 + 128) ∈ String.utf8EncodeChar c := by
        unfold String.utf8EncodeChar
        simp only [Char.toNat] at low ⊢
        split
        · omega
        · split
          · simp
          · split <;> simp
      have below : tokenBytes.all (·.toNat < 128) = true := by decide
      have high := of_decide_eq_true (List.all_eq_true.mp below _ (bytes _ last))
      rw [UInt8.toNat_ofNat'] at high
      omega
  · intro mem b b_mem
    rw [utf8EncodeChar_of_mem mem, List.mem_singleton] at b_mem
    exact List.mem_map.mpr ⟨c, mem, b_mem.symm⟩

/-- **A part of a token may be checked byte by byte.** -/
theorem isTokenPart_iff_bytes {size : Nat} {part : List Char} :
    IsTokenPart size part ↔ (part.flatMap String.utf8EncodeChar).length = size ∧
      ∀ b ∈ part.flatMap String.utf8EncodeChar, b ∈ tokenBytes := by
  have bytes : (∀ b ∈ part.flatMap String.utf8EncodeChar, b ∈ tokenBytes) ↔
      ∀ c ∈ part, c ∈ tokenAlphabet := by
    simp only [List.forall_mem_flatMap, forall_mem_utf8EncodeChar_iff]
  rw [bytes]
  refine and_congr_left fun chars => ?_
  have single : ∀ c ∈ part, (String.utf8EncodeChar c).length = 1 := fun c mem =>
    congrArg List.length (utf8EncodeChar_of_mem (chars c mem))
  rw [List.length_flatMap, List.map_congr_left single, List.map_const']
  simp

namespace BootstrapToken

/-! ## Texts -/

/-- The text is six characters of `[a-z0-9]`, a point and sixteen more. -/
def IsSpelled (s : String) : Prop :=
  ∃ id secret, s.toList = id ++ '.' :: secret ∧ id.length = 6 ∧ secret.length = 16 ∧
    (∀ c ∈ id, IsTokenChar c) ∧ ∀ c ∈ secret, IsTokenChar c

theorem isTokenPart_iff {size : Nat} {part : List Char} :
    IsTokenPart size part ↔ part.length = size ∧ ∀ c ∈ part, IsTokenChar c := by
  simp only [IsTokenPart, mem_tokenAlphabet_iff]

/-- **The texts that are read as tokens.** -/
theorem isSome_parse_iff {s : String} : (parse s).isSome = true ↔ IsSpelled s := by
  rw [Option.isSome_iff_exists]
  constructor
  · rintro ⟨t, read⟩
    obtain rfl := parse_eq_some_iff.mp read
    obtain ⟨idLength, idChars⟩ := isTokenPart_iff.mp t.isId
    obtain ⟨secretLength, secretChars⟩ := isTokenPart_iff.mp t.isSecret
    exact ⟨t.id, t.secret, String.toList_ofList, idLength, secretLength, idChars, secretChars⟩
  · rintro ⟨id, secret, spelled, idLength, secretLength, idChars, secretChars⟩
    refine ⟨⟨id, secret, isTokenPart_iff.mpr ⟨idLength, idChars⟩,
      isTokenPart_iff.mpr ⟨secretLength, secretChars⟩⟩, parse_eq_some_iff.mpr ?_⟩
    exact String.toList_injective (spelled.trans String.toList_ofList.symm)

theorem length_toText (t : BootstrapToken) : t.toText.length = 23 := by
  rw [toText, String.length_ofList, List.length_append, List.length_cons, t.isId.1, t.isSecret.1]

/-! ## Bytes -/

/-- The characters that the bytes of blocks stand for, if they count. -/
def given (blocks : List (List UInt8)) : List Char := (blocks.flatten.filter accepts).map pick

theorem given_cons (block : List UInt8) (blocks : List (List UInt8)) :
    given (block :: blocks) = (block.filter accepts).map pick ++ given blocks := by
  simp [given]

theorem pick_mem (b : UInt8) : pick b ∈ tokenAlphabet := by
  have all : ∀ n < 36, tokenAlphabet.getD n 'a' ∈ tokenAlphabet := by decide
  exact all _ (Nat.mod_lt _ (by decide))

/-- A part of a token is drawn from blocks: it is made of the first characters that they give, and
all of the blocks are needed for them. -/
structure Draws (size : Nat) (blocks : List (List UInt8)) (part : List Char) : Prop where
  first : part = (given blocks).take size
  enough : size ≤ (given blocks).length
  needed : blocks = [] ∨ (given blocks.dropLast).length < size

theorem Draws.isTokenPart {size : Nat} {blocks : List (List UInt8)} {part : List Char}
    (h : Draws size blocks part) : IsTokenPart size part := by
  obtain ⟨rfl, enough, -⟩ := h
  refine ⟨List.length_take_of_le enough, fun c mem => ?_⟩
  obtain ⟨b, -, rfl⟩ := List.mem_map.mp (List.mem_of_mem_take mem)
  exact pick_mem b

theorem draws_zero_iff {blocks : List (List UInt8)} {part : List Char} :
    Draws 0 blocks part ↔ blocks = [] ∧ part = [] := by
  constructor
  · rintro ⟨rfl, -, needed⟩
    exact ⟨needed.resolve_right (Nat.not_lt_zero _), List.take_zero⟩
  · rintro ⟨rfl, rfl⟩
    exact ⟨rfl, Nat.le_refl 0, .inl rfl⟩

/-- Drawing from a block and then from others: the others are drawn from for what is missing. -/
theorem draws_cons_iff {n : Nat} {block : List UInt8} {blocks : List (List UInt8)}
    {part : List Char} :
    Draws (n + 1) (block :: blocks) part ↔
      ∃ more, part = ((block.filter accepts).map pick).take (n + 1) ++ more ∧
        Draws (n + 1 - (((block.filter accepts).map pick).take (n + 1)).length) blocks more := by
  obtain ⟨own, own_eq⟩ : ∃ own, own = (block.filter accepts).map pick := ⟨_, rfl⟩
  have missing : n + 1 - (own.take (n + 1)).length = n + 1 - own.length := by
    rw [List.length_take]
    omega
  rw [← own_eq, missing]
  constructor
  · rintro ⟨rfl, enough, needed⟩
    rw [given_cons, ← own_eq, List.length_append] at enough
    refine ⟨_, ?_, rfl, ?_, ?_⟩
    · rw [given_cons, ← own_eq, List.take_append]
    · omega
    · cases blocks with
      | nil => exact .inl rfl
      | cons second others =>
        have fewer := needed.resolve_left (List.cons_ne_nil _ _)
        rw [List.dropLast_cons_cons, given_cons, ← own_eq, List.length_append] at fewer
        exact .inr (by omega)
  · rintro ⟨_, rfl, rfl, enough, needed⟩
    refine ⟨?_, ?_, .inr ?_⟩
    · rw [given_cons, ← own_eq, List.take_append]
    · rw [given_cons, ← own_eq, List.length_append]
      omega
    · cases blocks with
      | nil => exact Nat.succ_pos n
      | cons second others =>
        have fewer := needed.resolve_left (List.cons_ne_nil _ _)
        rw [List.dropLast_cons_cons, given_cons, ← own_eq, List.length_append]
        omega

/-- **What is drawn**: the first characters that the blocks give, and what is left are the blocks
that were not needed. -/
theorem draw_eq_some_iff : ∀ {n : Nat} {blocks : List (List UInt8)} {part : List Char}
    {rest : List (List UInt8)},
    draw n blocks = some (part, rest) ↔ ∃ used, blocks = used ++ rest ∧ Draws n used part
  | 0, blocks, part, rest => by
    simp only [draw, draws_zero_iff, Option.some.injEq, Prod.mk.injEq]
    constructor
    · rintro ⟨rfl, rfl⟩
      exact ⟨[], rfl, rfl, rfl⟩
    · rintro ⟨_, rfl, rfl, rfl⟩
      exact ⟨rfl, rfl⟩
  | n + 1, [], part, rest => by
    constructor
    · rintro ⟨⟩
    · rintro ⟨used, eq, draws⟩
      obtain ⟨rfl, rfl⟩ := List.append_eq_nil_iff.mp eq.symm
      exact absurd draws.enough (Nat.not_succ_le_zero n)
  | n + 1, block :: blocks, part, rest => by
    rw [draw, Option.map_eq_some_iff]
    constructor
    · rintro ⟨⟨more, _⟩, drawn, ⟨⟩⟩
      obtain ⟨used, rfl, draws⟩ := draw_eq_some_iff.mp drawn
      exact ⟨block :: used, rfl, draws_cons_iff.mpr ⟨more, rfl, draws⟩⟩
    · rintro ⟨used, eq, draws⟩
      cases used with
      | nil => exact absurd draws.enough (Nat.not_succ_le_zero n)
      | cons first used =>
        obtain ⟨rfl, rfl⟩ := List.cons.inj eq
        obtain ⟨more, rfl, others⟩ := draws_cons_iff.mp draws
        exact ⟨(more, rest), draw_eq_some_iff.mpr ⟨used, rfl, others⟩, rfl⟩

/-- **What a new token is made of**: two parts, one drawn after the other, each from blocks of its
own. -/
theorem generate_eq_some_iff {blocks rest : List (List UInt8)} {t : BootstrapToken} :
    generate blocks = some (t, rest) ↔ ∃ idBlocks secretBlocks,
      blocks = idBlocks ++ secretBlocks ++ rest ∧ Draws 6 idBlocks t.id ∧
        Draws 16 secretBlocks t.secret := by
  constructor
  · intro made
    simp only [generate, Option.bind_eq_bind, Option.bind_eq_some_iff] at made
    obtain ⟨⟨id, others⟩, first, ⟨secret, left⟩, second, made⟩ := made
    split at made
    · next parts =>
      cases made
      obtain ⟨idBlocks, rfl, idDraws⟩ := draw_eq_some_iff.mp first
      obtain ⟨secretBlocks, rfl, secretDraws⟩ := draw_eq_some_iff.mp second
      exact ⟨idBlocks, secretBlocks, (List.append_assoc ..).symm, idDraws, secretDraws⟩
    · cases made
  · rintro ⟨idBlocks, secretBlocks, rfl, idDraws, secretDraws⟩
    have first : draw 6 (idBlocks ++ secretBlocks ++ rest) = some (t.id, secretBlocks ++ rest) :=
      draw_eq_some_iff.mpr ⟨idBlocks, List.append_assoc .., idDraws⟩
    exact generate_eq_some first (draw_eq_some_iff.mpr ⟨secretBlocks, rfl, secretDraws⟩)

/-- **Tokens are spelled in one way, and drawn from the bytes that count.** A text is read as a
token if and only if it is six characters of `[a-z0-9]`, a point and sixteen more, and it is the
text of that token and of no other. A new token is drawn from as few blocks of random bytes as will do: its
identifier is what the first six bytes that count stand for, and its secret, from the block after,
what the next sixteen do. Wherever there are such blocks, there is a new token. -/
theorem spelled_and_drawn :
    (∀ s, ((parse s).isSome = true ↔ IsSpelled s) ∧
      ∀ t, parse s = some t → t.toText = s ∧ ∀ s', parse s' = some t → s' = s) ∧
    (∀ blocks t rest, generate blocks = some (t, rest) →
      t.toText.length = 23 ∧ parse t.toText = some t ∧ ∃ idBlocks secretBlocks,
        blocks = idBlocks ++ secretBlocks ++ rest ∧ Draws 6 idBlocks t.id ∧
          Draws 16 secretBlocks t.secret) ∧
    ∀ idBlocks secretBlocks rest id secret, Draws 6 idBlocks id → Draws 16 secretBlocks secret →
      ∃ t, t.id = id ∧ t.secret = secret ∧
        generate (idBlocks ++ secretBlocks ++ rest) = some (t, rest) := by
  refine ⟨fun s => ⟨isSome_parse_iff, fun t read => ?_⟩, fun blocks t rest made => ?_,
    fun idBlocks secretBlocks rest id secret idDraws secretDraws => ?_⟩
  · have text := parse_eq_some_iff.mp read
    exact ⟨text.symm, fun s' read' => (parse_eq_some_iff.mp read').trans text.symm⟩
  · exact ⟨t.length_toText, t.parse_toText, generate_eq_some_iff.mp made⟩
  · exact ⟨⟨id, secret, idDraws.isTokenPart, secretDraws.isTokenPart⟩, rfl, rfl,
      generate_eq_some_iff.mpr ⟨idBlocks, secretBlocks, rfl, idDraws, secretDraws⟩⟩

/-- A token from blocks of thirty-two bytes. The first has two that count, at its end, and the third
begins with some that do not. -/
theorem spelled_and_drawn_of_uneven :
    let first : List UInt8 := List.replicate 30 255 ++ [0, 37]
    let second : List UInt8 := [2, 75, 4, 221] ++ List.replicate 28 7
    let third : List UInt8 := List.replicate 12 252 ++
      [26, 27, 28, 29, 30, 31, 32, 33, 34, 251, 0, 1, 2, 3, 4, 5] ++ List.replicate 4 9
    ∃ t, generate [first, second, third, [1]] = some (t, [[1]]) ∧
      Draws 6 [first, second] t.id ∧ Draws 16 [third] t.secret ∧
      t.toText = "abcdef.0123456789abcdef" ∧ parse "abcdef.0123456789abcdef" = some t ∧
      IsSpelled "abcdef.0123456789abcdef" ∧ t.toText.length = 23 := by
  intro first second third
  have idDraws : Draws 6 [first, second] "abcdef".toList :=
    ⟨by decide, by decide, by decide⟩
  have secretDraws : Draws 16 [third] "0123456789abcdef".toList :=
    ⟨by decide, by decide, by decide⟩
  obtain ⟨t, id, secret, made⟩ :=
    spelled_and_drawn.2.2 [first, second] [third] [[1]] _ _ idDraws secretDraws
  obtain ⟨length, read, -⟩ := spelled_and_drawn.2.1 _ t _ made
  have text : t.toText = "abcdef.0123456789abcdef" := by
    rw [toText, id, secret]
    decide
  have own := text ▸ read
  exact ⟨t, made, id ▸ idDraws, secret ▸ secretDraws, text, own,
    (spelled_and_drawn.1 _).1.mp (own ▸ rfl), length⟩

end BootstrapToken

end NodeProvisioner
