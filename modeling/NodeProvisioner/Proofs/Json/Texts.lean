import NodeProvisioner.Json.Lexeme
import NodeProvisioner.Json.Printer

/-!
# Texts are read back

A character of a text may be written as itself or escaped, and an escape may be a letter, a code
unit or a pair of surrogates (`SpellsChar`). The scanner of texts, started after the opening quote,
finds the characters that have been written in any of these ways and stops after the closing quote.
Whatever it takes for a text has been written so.

The printer writes each character in one of these ways. Every character takes one step of the
scanner, so its fuel may be measured in characters.
-/

namespace NodeProvisioner.Json

/-! ## How texts are written -/

/-- Four hexadecimal digits for a code unit. -/
def IsUnit (unit : Nat) (digits : List Char) : Prop :=
  digits.length = 4 ∧ Text.ofHexDigits? digits = some unit

/-- The ways to write one character of a text. -/
inductive SpellsChar : Char → List Char → Prop where
  | itself {c : Char} : c ≠ '"' → c ≠ '\\' → ¬ c.toNat < 0x20 → SpellsChar c [c]
  | letter {c letter : Char} : letterEscape? letter = some c → SpellsChar c ['\\', letter]
  | unit {unit : Nat} {digits : List Char} : IsUnit unit digits →
      unit < 0xD800 ∨ 0xDFFF < unit → SpellsChar (unitChar unit) ('\\' :: 'u' :: digits)
  | pair {lead trail : Nat} {high low : List Char} : IsUnit lead high → IsUnit trail low →
      0xD800 ≤ lead ∧ lead < 0xDC00 → 0xDC00 ≤ trail ∧ trail ≤ 0xDFFF →
      SpellsChar (pairChar lead trail) ('\\' :: 'u' :: (high ++ '\\' :: 'u' :: low))

/-- The ways to write the characters of a text, one after the other. -/
inductive SpellsText : List Char → List Char → Prop where
  | nil : SpellsText [] []
  | cons {c : Char} {text cs more : List Char} : SpellsChar c cs → SpellsText text more →
      SpellsText (c :: text) (cs ++ more)

/-! ## One character -/

/-- The text with a character more at its start. -/
def ScannedText.prepend (c : Char) (s : ScannedText) : ScannedText :=
  { s with text := c :: s.text }

theorem isUnit_iff {unit : Nat} {digits : List Char} : IsUnit unit digits ↔
    ∃ a b c d, digits = [a, b, c, d] ∧ Text.ofHexDigits? [a, b, c, d] = some unit := by
  constructor
  · rintro ⟨length, value⟩
    obtain ⟨a, b, c, d, rfl⟩ : ∃ a b c d, digits = [a, b, c, d] := by
      match digits, length with
      | [a, b, c, d], _ => exact ⟨a, b, c, d, rfl⟩
    exact ⟨a, b, c, d, rfl, value⟩
  · rintro ⟨a, b, c, d, rfl, value⟩
    exact ⟨rfl, value⟩

/-- The digits of a code unit are at the front. -/
theorem escapeUnit?_eq_some_iff {cs rest : List Char} {unit : Nat} :
    escapeUnit? cs = some (unit, rest) ↔ ∃ digits, IsUnit unit digits ∧ cs = digits ++ rest := by
  constructor
  · intro h
    unfold escapeUnit? at h
    split at h
    · rename_i a b c d more
      rw [Option.map_eq_some_iff] at h
      obtain ⟨value, digits, eq⟩ := h
      cases eq
      exact ⟨[a, b, c, d], ⟨rfl, digits⟩, rfl⟩
    · cases h
  · rintro ⟨digits, h, rfl⟩
    obtain ⟨a, b, c, d, rfl, value⟩ := isUnit_iff.mp h
    simp only [List.cons_append, List.nil_append, escapeUnit?, value, Option.map_some]

/-- The digits of a character that is no half of a pair. -/
theorem unicodeEscape_unit {unit : Nat} {digits : List Char} (h : IsUnit unit digits)
    (single : unit < 0xD800 ∨ 0xDFFF < unit) (p : Place) (rest : List Char) :
    unicodeEscape false p (digits ++ rest) = .ok (unitChar unit, digits, rest) := by
  have four : (digits ++ rest).take 4 = digits := List.take_left' h.1
  rw [unicodeEscape, escapeUnit?_eq_some_iff.mpr ⟨digits, h, rfl⟩]
  simp only [Bool.false_or, Bool.or_eq_true, decide_eq_true_eq, if_pos single, four]

/-- The digits of a pair, each half with four. -/
theorem unicodeEscape_pair {lead trail : Nat} {high low : List Char} (leads : IsUnit lead high)
    (trails : IsUnit trail low) (inLead : 0xD800 ≤ lead ∧ lead < 0xDC00)
    (inTrail : 0xDC00 ≤ trail ∧ trail ≤ 0xDFFF) (p : Place) (rest : List Char) :
    unicodeEscape false p (high ++ '\\' :: 'u' :: (low ++ rest))
      = .ok (pairChar lead trail, high ++ '\\' :: 'u' :: low, rest) := by
  have four : ∀ {digits : List Char} {unit : Nat} (rest : List Char), IsUnit unit digits →
      (digits ++ rest).take 4 = digits := fun _ h => List.take_left' h.1
  have double : ¬ (lead < 0xD800 ∨ 0xDFFF < lead) := by omega
  have first : ¬ 0xDC00 ≤ lead := by omega
  rw [unicodeEscape, escapeUnit?_eq_some_iff.mpr ⟨high, leads, rfl⟩]
  simp only [Bool.false_or, Bool.or_eq_true, decide_eq_true_eq, if_neg double, if_neg first,
    escapeUnit?_eq_some_iff.mpr ⟨low, trails, rfl⟩, if_pos inTrail, four _ leads, four _ trails]

/-- **A character is read back in one step, in whichever way it is written.** -/
theorem scanText_spellsChar {c : Char} {cs : List Char} (h : SpellsChar c cs) (fuel : Nat)
    (p : Place) (rest : List Char) :
    ∃ q, scanText false (fuel + 1) p (cs ++ rest)
      = ScannedText.prepend c <$> scanText false fuel q rest := by
  cases h with
  | itself quote backslash large =>
    refine ⟨p.after c, ?_⟩
    rw [List.singleton_append, scanText]
    · rw [if_neg large]
      rfl
    all_goals simp_all
  | @letter _ letter known =>
    refine ⟨(p.after '\\').after letter, ?_⟩
    rw [List.cons_append, List.singleton_append, scanText]
    · simp only [known]
      rfl
    -- the letter of code units is no other
    · rintro rfl
      cases known
  | unit digits single =>
    refine ⟨?_, ?_⟩
    rotate_left
    · rw [List.cons_append, List.cons_append, scanText, unicodeEscape_unit digits single]
      rfl
  | pair leads trails inLead inTrail =>
    refine ⟨?_, ?_⟩
    rotate_left
    · rw [List.cons_append, List.cons_append, List.append_assoc, List.cons_append,
        List.cons_append, scanText, unicodeEscape_pair leads trails inLead inTrail]
      rfl

theorem SpellsChar.ne_nil {c : Char} {cs : List Char} (h : SpellsChar c cs) : cs ≠ [] := by
  cases h <;> exact List.cons_ne_nil _ _

/-- **A text is read back from between its quotes.** -/
theorem scanText_spells {text cs : List Char} (h : SpellsText text cs) (rest : List Char) :
    ∀ (fuel : Nat) (p : Place), cs.length < fuel →
    ∃ q, scanText false fuel p (cs ++ '"' :: rest) = .ok ⟨text, q, rest⟩ := by
  induction h with
  | nil =>
    intro fuel p enough
    cases fuel with
    | zero => exact absurd enough (Nat.not_lt_zero _)
    | succ fuel => exact ⟨p.after '"', by rw [List.nil_append, scanText]⟩
  | @cons c text cs more first others ih =>
    intro fuel p enough
    have pos := List.length_pos_iff.mpr first.ne_nil
    rw [List.length_append] at enough
    cases fuel with
    | zero => exact absurd enough (Nat.not_lt_zero _)
    | succ fuel =>
      obtain ⟨q, step⟩ := scanText_spellsChar first fuel p (more ++ '"' :: rest)
      obtain ⟨r, read⟩ := ih fuel q (by omega)
      refine ⟨r, ?_⟩
      rw [List.append_assoc, step, read]
      rfl

/-- The lexeme of a text, after its opening quote. -/
theorem text_spells {s : String} {cs : List Char} (h : SpellsText s.toList cs) (rest : List Char)
    (p : Place) : ∃ q, text p (cs ++ '"' :: rest) = ⟨.scalar (.text s) none, q, rest⟩ := by
  obtain ⟨q, scanned⟩ := scanText_spells h rest ((cs ++ '"' :: rest).length + 1) p (by
    rw [List.length_append]; omega)
  refine ⟨q, ?_⟩
  unfold text
  rw [scanned]
  simp only [String.ofList_toList]

/-! ## Only texts are read -/

theorem spellsChar_of_unicodeEscape {p : Place} {c : Char} {cs used rest : List Char}
    (h : unicodeEscape false p cs = .ok (c, used, rest)) :
    ∃ digits, SpellsChar c ('\\' :: 'u' :: digits) ∧ cs = digits ++ rest := by
  unfold unicodeEscape at h
  cases first : escapeUnit? cs with
  | none =>
    rw [first] at h
    cases h
  | some parts =>
    obtain ⟨unit, more⟩ := parts
    obtain ⟨high, leads, rfl⟩ := escapeUnit?_eq_some_iff.mp first
    rw [first] at h
    simp only [Bool.false_or, Bool.or_eq_true, decide_eq_true_eq] at h
    split at h
    · rename_i single
      cases h
      exact ⟨high, .unit leads single, rfl⟩
    · split at h
      · cases h
      · -- the first half of a pair, so the other half has to follow
        split at h
        · cases h
        · cases h
        · rename_i more
          cases second : escapeUnit? more with
          | none =>
            rw [second] at h
            cases h
          | some parts =>
            obtain ⟨trail, after⟩ := parts
            obtain ⟨low, trails, rfl⟩ := escapeUnit?_eq_some_iff.mp second
            rw [second] at h
            simp only at h
            by_cases inTrail : 0xDC00 ≤ trail ∧ trail ≤ 0xDFFF
            · rw [if_pos inTrail, Except.ok.injEq, Prod.mk.injEq, Prod.mk.injEq] at h
              obtain ⟨rfl, _, rfl⟩ := h
              refine ⟨high ++ '\\' :: 'u' :: low, .pair leads trails (by omega) inTrail, ?_⟩
              rw [List.append_assoc, List.cons_append, List.cons_append]
            · rw [if_neg inTrail] at h
              cases h
        · cases h
        · cases h

/-- What is read after a character is written after it. -/
theorem spellsText_of_prepend {fuel : Nat} {c : Char} {spelling rest : List Char} {q : Place}
    {s : ScannedText} (first : SpellsChar c spelling)
    (h : ScannedText.prepend c <$> scanText false fuel q rest = .ok s)
    (others : ∀ {more : ScannedText}, scanText false fuel q rest = .ok more →
      ∃ following, SpellsText more.text following ∧ rest = following ++ '"' :: more.rest) :
    ∃ whole, SpellsText s.text whole ∧ spelling ++ rest = whole ++ '"' :: s.rest := by
  cases read : scanText false fuel q rest with
  | error fault =>
    rw [read] at h
    cases h
  | ok more =>
    rw [read] at h
    cases h
    obtain ⟨following, spelled, rfl⟩ := others read
    exact ⟨spelling ++ following, .cons first spelled, (List.append_assoc _ _ _).symm⟩

/-- **Whatever is read as a text is written by the rules.** -/
theorem spellsText_of_scanText {fuel : Nat} {p : Place} {cs : List Char} {s : ScannedText}
    (h : scanText false fuel p cs = .ok s) :
    ∃ spelling, SpellsText s.text spelling ∧ cs = spelling ++ '"' :: s.rest := by
  fun_induction scanText false fuel p cs generalizing s with
  | case1 => cases h
  | case2 => cases h
  | case3 =>
    cases h
    exact ⟨[], .nil, rfl⟩
  | case4 => cases h
  | case5 fuel p more q =>
    rename_i ih
    cases unit : unicodeEscape false q more with
    | error fault =>
      rw [unit] at h
      cases h
    | ok parts =>
      obtain ⟨c, used, rest⟩ := parts
      rw [unit] at h
      obtain ⟨digits, first, rfl⟩ := spellsChar_of_unicodeEscape unit
      exact spellsText_of_prepend first h (ih used rest)
  | case6 => cases h
  | case7 fuel p letter rest _ c known ih => exact spellsText_of_prepend (.letter known) h ih
  | case8 => cases h
  | case9 fuel p c rest quote nothing unit letter large ih =>
    -- a backslash would have been the start of an escape
    have backslash : c ≠ '\\' := by
      rintro rfl
      cases rest with
      | nil => exact nothing rfl rfl
      | cons letter' rest => exact letter letter' rest rfl rfl
    exact spellsText_of_prepend (.itself quote backslash large) h ih

/-! ## What the printer writes -/

/-- The four digits of a small code unit. -/
theorem isUnit_small {n : Nat} (h : n < 0x20) :
    IsUnit n ['0', '0', Text.hexDigit (n / 16), Text.hexDigit (n % 16)] := by
  have high := Text.hexValue?_hexDigit (show n / 16 < 16 by omega)
  have low := Text.hexValue?_hexDigit (show n % 16 < 16 by omega)
  have zero : Text.hexValue? '0' = some 0 := by decide
  refine ⟨rfl, ?_⟩
  unfold Text.ofHexDigits?
  simp only [List.foldlM_cons, List.foldlM_nil, zero, high, low, Option.map_some,
    Option.bind_eq_bind, Option.bind_some, pure, Option.some.injEq]
  omega

/-- **The printer writes a character in one of its ways.** -/
theorem spellsChar_escapedChar (c : Char) : SpellsChar c (escapedChar c) := by
  unfold escapedChar
  split
  -- the letters of the scanner are those of the printer
  iterate 7 exact .letter rfl
  · rename_i quote backslash _ _ _ _ _
    split
    · rename_i small
      have single := SpellsChar.unit (isUnit_small small) (.inl (by omega))
      rw [unitChar, Char.ofNat_toNat] at single
      exact single
    · rename_i large
      exact .itself quote backslash large

theorem spellsText_escaped : ∀ text : List Char, SpellsText text (text.flatMap escapedChar)
  | [] => .nil
  | c :: text => by
    rw [List.flatMap_cons]
    exact .cons (spellsChar_escapedChar c) (spellsText_escaped text)

end NodeProvisioner.Json
