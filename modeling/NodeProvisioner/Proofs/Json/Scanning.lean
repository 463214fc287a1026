import NodeProvisioner.Proofs.Json.Grammar

/-!
# The tokens of a text are its lexemes

A text that weaves tokens falls into the lexemes of these tokens, provided that the tokens stand
apart; and a text that falls into the lexemes of tokens weaves them. So the lexemes of a text tell
which tokens it weaves, and whether it is a text of a value.

Main statement: `weaves_iff`.
-/

namespace NodeProvisioner.Json

/-! ## Numbers -/

/-- The lexeme of a number that is written by the rules. -/
theorem number_spells {n : Numeral} {cs : List Char} (h : n.Spells cs) {rest : List Char}
    (stop : EndsNumber rest) (p : Place) :
    ∃ q, number n.negative p (cs ++ rest) = ⟨match n.value? with
      | some value => .scalar value none
      | none => .scalar .null (some (Breach.numberRange.fault q)), q, rest⟩ := by
  obtain ⟨q, scanned⟩ := scanNumber_spells h stop p
  refine ⟨q, ?_⟩
  unfold number
  rw [scanned]
  cases h : n.value? <;> simp only [h]

theorem isSpace_of_isDigit {c : Char} (h : c.isDigit = true) : isSpace c = false := by
  unfold isSpace
  simp only [Bool.or_eq_false_iff, decide_eq_false_iff_not]
  refine ⟨⟨⟨?_, ?_⟩, ?_⟩, ?_⟩ <;> (rintro rfl; exact absurd h (by decide))

theorem scanLexeme_digit {c : Char} (h : c.isDigit = true) (p : Place) (cs : List Char) :
    scanLexeme c p cs = number false p (c :: cs) := by
  rw [scanLexeme.eq_def]
  simp only
  split <;> first
    | exact absurd h (by decide)
    | rw [if_pos h]

/-- The lexeme of a number with its sign. -/
theorem scanLexeme_number {n : Numeral} {cs : List Char} (h : n.Spells cs) {rest : List Char}
    (stop : EndsNumber rest) : ∃ c more, (if n.negative then ['-'] else []) ++ cs = c :: more ∧
      isSpace c = false ∧ ∀ p, ∃ q, scanLexeme c p (more ++ rest) = ⟨match n.value? with
        | some value => .scalar value none
        | none => .scalar .null (some (Breach.numberRange.fault q)), q, rest⟩ := by
  -- a sign is read by itself; without one the first digit tells that a number begins
  cases sign : n.negative with
  | true =>
    refine ⟨'-', cs, rfl, by decide, fun p => ?_⟩
    obtain ⟨q, scanned⟩ := number_spells h stop (p.after '-')
    rw [sign] at scanned
    exact ⟨q, scanned⟩
  | false =>
    obtain ⟨c, more, rfl, digit⟩ := h.exists_digit
    refine ⟨c, more, rfl, isSpace_of_isDigit digit, fun p => ?_⟩
    obtain ⟨q, scanned⟩ := number_spells h stop p
    rw [sign] at scanned
    exact ⟨q, (scanLexeme_digit digit p _).trans scanned⟩

/-! ## One token -/

/-- The number is over where another token, space or the end follows. -/
theorem Weaves.endsNumber {ts : List Token} {cs : List Char} (h : Weaves ts cs)
    (marks : ∀ t ∈ ts.head?, t.isMark = true) : EndsNumber cs := by
  cases h with
  | nil => exact endsNumber_nil
  | @space _ c cs space _ =>
    simp only [isSpace, Bool.or_eq_true, decide_eq_true_eq] at space
    rcases space with ((rfl | rfl) | rfl) | rfl <;>
      exact endsNumber_cons (by decide) (by decide) (by decide) (by decide) cs
  | @token t ts spelling cs spelled _ =>
    have mark : t.isMark = true := marks t rfl
    cases spelled <;> first
      | exact endsNumber_cons (by decide) (by decide) (by decide) (by decide) cs
      | cases mark

/-- **A token is scanned as its lexeme**, where a number is not gone on with. -/
theorem scanLexeme_spells {t : Token} {spelling : List Char} (h : t.Spells spelling)
    {rest : List Char} (stop : t.isMark = false → EndsNumber rest) :
    ∃ c more, spelling = c :: more ∧ isSpace c = false ∧
      ∀ p, ∃ q, scanLexeme c p (more ++ rest) = ⟨t.kind, q, rest⟩ := by
  cases h with
  | openList => exact ⟨'[', [], rfl, by decide, fun p => ⟨_, rfl⟩⟩
  | closeList => exact ⟨']', [], rfl, by decide, fun p => ⟨_, rfl⟩⟩
  | openMap => exact ⟨'\x7b', [], rfl, by decide, fun p => ⟨_, rfl⟩⟩
  | closeMap => exact ⟨'\x7d', [], rfl, by decide, fun p => ⟨_, rfl⟩⟩
  | comma => exact ⟨',', [], rfl, by decide, fun p => ⟨_, rfl⟩⟩
  | colon => exact ⟨':', [], rfl, by decide, fun p => ⟨_, rfl⟩⟩
  | null => exact ⟨'n', ['u', 'l', 'l'], rfl, by decide, fun p => ⟨_, rfl⟩⟩
  | true => exact ⟨'t', ['r', 'u', 'e'], rfl, by decide, fun p => ⟨_, rfl⟩⟩
  | false => exact ⟨'f', ['a', 'l', 's', 'e'], rfl, by decide, fun p => ⟨_, rfl⟩⟩
  | @text s cs spelled =>
    refine ⟨'"', cs ++ ['"'], rfl, by decide, fun p => ?_⟩
    rw [List.append_assoc]
    exact text_spells spelled rest (p.after '"')
  | @number n value cs spelled counts =>
    obtain ⟨c, more, eq, solid, scans⟩ := scanLexeme_number spelled (stop rfl)
    refine ⟨c, more, eq, solid, fun p => ?_⟩
    obtain ⟨q, scanned⟩ := scans p
    rw [counts] at scanned
    exact ⟨q, scanned⟩

theorem eq_append_of_scanWord : ∀ {w cs rest : List Char} {p q : Place},
    scanWord p w cs = .ok (q, rest) → cs = w ++ rest
  | [], _, _, _, _, h => by
    cases h
    rfl
  | _ :: _, [], _, _, _, h => nomatch h
  | c :: w, d :: cs, rest, p, q, h => by
    rw [scanWord] at h
    by_cases same : c = d
    · rw [if_pos same] at h
      rw [same, eq_append_of_scanWord h, List.cons_append]
    · rw [if_neg same] at h
      cases h

/-- A word is scanned only where it stands. -/
theorem spells_of_word {t : Token} {value : Scalar} {w cs rest : List Char} {p q : Place}
    (h : word value w p cs = ⟨t.kind, q, rest⟩) : t = .scalar value ∧ cs = w ++ rest := by
  unfold word at h
  split at h
  · rename_i scanned
    cases t <;> cases h
    exact ⟨rfl, eq_append_of_scanWord scanned⟩
  · cases t <;> cases h

theorem spells_of_text {t : Token} {cs rest : List Char} {p q : Place}
    (h : text p cs = ⟨t.kind, q, rest⟩) :
    ∃ more, cs = more ++ rest ∧ t.Spells ('"' :: more) := by
  unfold text at h
  split at h
  · rename_i s scanned
    cases t <;> cases h
    obtain ⟨spelling, spelled, rfl⟩ := spellsText_of_scanText scanned
    refine ⟨spelling ++ ['"'], ?_, .text ?_⟩
    · rw [List.append_assoc, List.singleton_append]
    · rw [String.toList_ofList]
      exact spelled
  · -- a lenient reader may go on, but then a reader that wants the value objects
    split at h <;> cases t <;> cases h

theorem spells_of_number {t : Token} {negative : Bool} {cs rest : List Char} {p q : Place}
    (h : number negative p cs = ⟨t.kind, q, rest⟩) : ∃ more, cs = more ++ rest ∧
      t.Spells ((if negative then ['-'] else []) ++ more) := by
  unfold number at h
  split at h
  · rename_i s scanned
    obtain ⟨rfl, spelling, spelled, rfl⟩ := spells_of_scanNumber scanned
    split at h
    · rename_i value counts
      cases t <;> cases h
      exact ⟨spelling, rfl, .number spelled counts⟩
    · cases t <;> cases h
  · split at h <;> cases t <;> cases h

theorem Token.Spells.ne_nil {t : Token} {cs : List Char} (h : t.Spells cs) : cs ≠ [] := by
  obtain ⟨c, more, rfl, _⟩ := scanLexeme_spells h fun _ => endsNumber_nil
  exact List.cons_ne_nil c more

/-- **Whatever is scanned as the lexeme of a token is a way to write it.** -/
theorem spells_of_scanLexeme {t : Token} {c : Char} {cs rest : List Char} {p q : Place}
    (h : scanLexeme c p cs = ⟨t.kind, q, rest⟩) :
    ∃ more, cs = more ++ rest ∧ t.Spells (c :: more) := by
  rw [scanLexeme.eq_def] at h
  simp only at h
  split at h
  · cases t <;> cases h
    exact ⟨[], rfl, .openList⟩
  · cases t <;> cases h
    exact ⟨[], rfl, .closeList⟩
  · cases t <;> cases h
    exact ⟨[], rfl, .openMap⟩
  · cases t <;> cases h
    exact ⟨[], rfl, .closeMap⟩
  · cases t <;> cases h
    exact ⟨[], rfl, .comma⟩
  · cases t <;> cases h
    exact ⟨[], rfl, .colon⟩
  · exact spells_of_text h
  · obtain ⟨rfl, rfl⟩ := spells_of_word h
    exact ⟨_, rfl, .null⟩
  · obtain ⟨rfl, rfl⟩ := spells_of_word h
    exact ⟨_, rfl, .true⟩
  · obtain ⟨rfl, rfl⟩ := spells_of_word h
    exact ⟨_, rfl, .false⟩
  · obtain ⟨more, rfl, spelled⟩ := spells_of_number h
    exact ⟨more, rfl, spelled⟩
  · split at h
    · obtain ⟨more, eq, spelled⟩ := spells_of_number h
      rw [if_neg Bool.false_ne_true, List.nil_append] at spelled
      cases more with
      | nil => exact absurd rfl spelled.ne_nil
      | cons d more =>
        cases eq
        exact ⟨more, rfl, spelled⟩
    · cases t <;> cases h

/-! ## All tokens -/

theorem scanLexeme_kind_ne_finish (c : Char) (p : Place) (cs : List Char) :
    (scanLexeme c p cs).kind ≠ .finish := by
  have words : ∀ (value : Scalar) (w : List Char) (p : Place),
      (word value w p cs).kind ≠ .finish := by
    intro value w p ends
    unfold word at ends
    split at ends <;> cases ends
  have texts : ∀ p : Place, (text p cs).kind ≠ .finish := by
    intro p ends
    unfold text at ends
    split at ends
    · cases ends
    · split at ends <;> cases ends
  have numbers : ∀ (negative : Bool) (p : Place) (cs : List Char),
      (number negative p cs).kind ≠ .finish := by
    intro negative p cs ends
    unfold number at ends
    split at ends
    · split at ends <;> cases ends
    · split at ends <;> cases ends
  intro ends
  rw [scanLexeme.eq_def] at ends
  simp only at ends
  split at ends
  iterate 6 cases ends
  · exact texts _ ends
  iterate 3 exact words _ _ _ ends
  · exact numbers _ _ _ ends
  · split at ends
    · exact numbers _ _ _ ends
    · cases ends

/-- The last lexeme, and no other, is the end of the text. -/
theorem lexFrom_ends : ∀ (fuel : Nat) (p : Place) (cs : List Char),
    ∃ ls l, lexFrom fuel p cs = ls ++ [l] ∧ l.kind = .finish ∧ ∀ m ∈ ls, m.kind ≠ .finish
  | 0, p, _ => ⟨[], ⟨.finish, p, p, p⟩, rfl, rfl, List.forall_mem_nil _⟩
  | _ + 1, p, [] => ⟨[], ⟨.finish, p, p, p⟩, rfl, rfl, List.forall_mem_nil _⟩
  | fuel + 1, p, c :: rest => by
    rw [lexFrom]
    split
    · exact lexFrom_ends fuel (p.after c) rest
    · obtain ⟨ls, l, more, ends, others⟩ :=
        lexFrom_ends fuel (scanLexeme c p rest).place (scanLexeme c p rest).rest
      exact ⟨_ :: ls, l, congrArg (List.cons _) more, ends,
        List.forall_mem_cons.mpr ⟨scanLexeme_kind_ne_finish c p rest, others⟩⟩

/-- Settling moves places only. -/
theorem map_kind_settle : ∀ ls : List Lexeme,
    (settle ls).map Lexeme.kind = ls.map Lexeme.kind
  | [] => rfl
  | [_] => rfl
  | l :: m :: rest => by
    rw [settle, List.map_cons, List.map_cons, map_kind_settle (m :: rest)]

/-- The lexemes of a text end where the text does, and not before. -/
theorem lexemes_ends (s : String) :
    ∃ ls l, lexemes s = ls ++ [l] ∧ l.kind = .finish ∧ ∀ m ∈ ls, m.kind ≠ .finish := by
  obtain ⟨ls, l, eq, ends, others⟩ := lexFrom_ends (s.toList.length + 1) .start s.toList
  have kinds : (lexemes s).map Lexeme.kind = ls.map Lexeme.kind ++ [l.kind] := by
    rw [lexemes, map_kind_settle, eq, List.map_append]
    rfl
  obtain ⟨ms, _, split, same, last⟩ := List.map_eq_append_iff.mp kinds
  obtain ⟨m, _, rfl, kind, nil⟩ := List.map_eq_cons_iff.mp last
  cases List.map_eq_nil_iff.mp nil
  refine ⟨ms, m, split, kind.trans ends, ?_⟩
  have all : ∀ k ∈ ms.map Lexeme.kind, k ≠ .finish := by
    rw [same]
    exact List.forall_mem_map.mpr others
  exact fun n mem => all n.kind (List.mem_map_of_mem mem)

/-- **A text that weaves tokens falls into their lexemes.** -/
theorem Weaves.kinds {ts : List Token} {cs : List Char} (h : Weaves ts cs) :
    Apart ts → ∀ (fuel : Nat) (p : Place), cs.length < fuel →
      (lexFrom fuel p cs).map Lexeme.kind = ts.map Token.kind ++ [.finish] := by
  induction h with
  | nil =>
    intro _ fuel p enough
    cases fuel with
    | zero => exact absurd enough (Nat.not_lt_zero _)
    | succ fuel => rfl
  | space space _ ih =>
    intro apart fuel p enough
    cases fuel with
    | zero => exact absurd enough (Nat.not_lt_zero _)
    | succ fuel =>
      rw [lexFrom, if_pos space]
      exact ih apart fuel _ (Nat.lt_of_succ_lt_succ enough)
  | @token t ts spelling cs spelled more ih =>
    intro apart fuel p enough
    have stop : t.isMark = false → EndsNumber cs := by
      intro scalar
      refine more.endsNumber fun u first => ?_
      cases ts with
      | nil => cases first
      | cons v ts =>
        cases first
        exact apart.head scalar
    obtain ⟨c, rest, rfl, solid, scans⟩ := scanLexeme_spells spelled stop
    obtain ⟨q, scanned⟩ := scans p
    rw [List.cons_append, List.length_cons, List.length_append] at enough
    cases fuel with
    | zero => exact absurd enough (Nat.not_lt_zero _)
    | succ fuel =>
      rw [List.cons_append, lexFrom, if_neg (by rw [solid]; decide), scanned]
      simp only [List.map_cons, List.cons_append]
      rw [ih apart.tail fuel q (by omega)]

/-- **A text that falls into the lexemes of tokens weaves them.** -/
theorem weaves_of_kinds : ∀ {fuel : Nat} {p : Place} {cs : List Char} {ts : List Token},
    cs.length < fuel →
    (lexFrom fuel p cs).map Lexeme.kind = ts.map Token.kind ++ [.finish] → Weaves ts cs := by
  intro fuel
  induction fuel with
  | zero =>
    intro p cs ts enough
    exact absurd enough (Nat.not_lt_zero _)
  | succ fuel ih =>
    intro p cs ts enough h
    cases cs with
    | nil =>
      cases ts with
      | nil => exact .nil
      | cons t ts =>
        have length := congrArg List.length h
        simp [lexFrom] at length
    | cons c cs =>
      rw [lexFrom] at h
      rw [List.length_cons] at enough
      by_cases space : isSpace c = true
      · rw [if_pos space] at h
        exact .space space (ih (by omega) h)
      · rw [if_neg space] at h
        cases ts with
        | nil =>
          exact absurd (List.cons.inj h).1 (scanLexeme_kind_ne_finish c p cs)
        | cons t ts =>
          simp only [List.map_cons, List.cons_append, List.cons.injEq] at h
          obtain ⟨first, others⟩ := h
          have scanned : scanLexeme c p cs
              = ⟨t.kind, (scanLexeme c p cs).place, (scanLexeme c p cs).rest⟩ := by rw [← first]
          obtain ⟨more, eq, spelled⟩ := spells_of_scanLexeme scanned
          have shorter := congrArg List.length eq
          rw [List.length_append] at shorter
          have rest := Weaves.token spelled (ih (by omega) others)
          rwa [List.cons_append, ← eq] at rest

/-- **A text weaves tokens that stand apart just if it falls into their lexemes.** -/
theorem weaves_iff {ts : List Token} (apart : Apart ts) {s : String} : Weaves ts s.toList ↔
    (lexemes s).map Lexeme.kind = ts.map Token.kind ++ [.finish] := by
  rw [lexemes, map_kind_settle]
  exact ⟨fun h => h.kinds apart _ _ (Nat.lt_succ_self _), weaves_of_kinds (Nat.lt_succ_self _)⟩

/-- A text is one of a value just if it falls into the lexemes of its tokens. -/
theorem hasText_iff {j : Json} {s : String} : j.HasText s ↔
    (lexemes s).map Lexeme.kind = j.tokens.map Token.kind ++ [.finish] :=
  weaves_iff (apart_tokens j)

/-- No value has an empty text. -/
theorem HasText.ne_empty {j : Json} {s : String} (h : j.HasText s) : s ≠ "" := by
  rintro rfl
  obtain ⟨t, ts, eq⟩ : ∃ t ts, j.tokens = t :: ts := by cases j <;> exact ⟨_, _, rfl⟩
  unfold HasText at h
  rw [eq] at h
  generalize none : "".toList = cs at h
  cases h with
  | space _ _ => cases none
  | token spelled _ =>
    exact spelled.ne_nil (List.append_eq_nil_iff.mp none.symm).1

/-! ## Lexemes and objections

A reader that wants the value of a scalar may object to its lexeme; one that skips the value does
not, so the lexeme is there all the same.
-/

/-- The lexeme as it is without the objection of a reader that wants the value. -/
def Kind.bare : Kind → Kind
  | .scalar value _ => .scalar value none
  | kind => kind

/-- The lexemes are those of the tokens, whether a reader objects to them or not. -/
def Shows (ts : List Token) (ls : List Lexeme) : Prop :=
  ls.map (fun l => l.kind.bare) = ts.map Token.kind

/-- No reader objects to a lexeme. -/
def Clean (ls : List Lexeme) : Prop := ∀ l ∈ ls, l.kind.bare = l.kind

theorem bare_tokenKind (t : Token) : t.kind.bare = t.kind := by
  cases t <;> rfl

theorem kind_of_bare {k : Kind} {t : Token} (mark : t.isMark = true) (h : k.bare = t.kind) :
    k = t.kind := by
  cases k with
  | scalar value objection =>
    cases t with
    | scalar value' => cases mark
    | _ => cases h
  | _ => exact h

theorem scalar_of_bare {k : Kind} {value : Scalar} (h : k.bare = .scalar value none) :
    ∃ objection, k = .scalar value objection := by
  cases k <;> cases h
  exact ⟨_, rfl⟩

theorem Shows.cons {t : Token} {ts : List Token} {ls : List Lexeme} (h : Shows (t :: ts) ls) :
    ∃ l more, ls = l :: more ∧ l.kind.bare = t.kind ∧ Shows ts more :=
  List.map_eq_cons_iff.mp h

/-- A mark stands for itself. -/
theorem Shows.mark {t : Token} {ts : List Token} {ls : List Lexeme} (h : Shows (t :: ts) ls)
    (mark : t.isMark = true) : ∃ l more, ls = l :: more ∧ l.kind = t.kind ∧ Shows ts more := by
  obtain ⟨l, more, eq, bare, rest⟩ := h.cons
  exact ⟨l, more, eq, kind_of_bare mark bare, rest⟩

theorem Shows.append {a b : List Token} {ls : List Lexeme} (h : Shows (a ++ b) ls) :
    ∃ first second, ls = first ++ second ∧ Shows a first ∧ Shows b second := by
  unfold Shows at h
  rw [List.map_append] at h
  exact List.map_eq_append_iff.mp h

theorem Shows.nil {ls : List Lexeme} (h : Shows [] ls) : ls = [] := List.map_eq_nil_iff.mp h

theorem clean_mark {l : Lexeme} {t : Token} {ls : List Lexeme} (h : l.kind = t.kind) :
    Clean (l :: ls) ↔ Clean ls := by
  refine List.forall_mem_cons.trans (and_iff_right ?_)
  rw [h, bare_tokenKind]

theorem clean_scalar {l : Lexeme} {value : Scalar} {objection : Option Fault}
    (h : l.kind = .scalar value objection) : Clean [l] ↔ objection = none := by
  rw [Clean, List.forall_mem_singleton, h, Kind.bare, Kind.scalar.injEq]
  exact ⟨fun eq => eq.2.symm, fun eq => ⟨rfl, eq.symm⟩⟩

theorem clean_append {ls ms : List Lexeme} : Clean (ls ++ ms) ↔ Clean ls ∧ Clean ms :=
  List.forall_mem_append

/-- Lexemes without objections are those of the tokens. -/
theorem kinds_eq_iff {ts : List Token} {ls : List Lexeme} :
    ls.map Lexeme.kind = ts.map Token.kind ↔ Shows ts ls ∧ Clean ls := by
  constructor
  · intro same
    have clean : Clean ls := by
      intro l mem
      obtain ⟨t, _, eq⟩ := List.mem_map.mp (same ▸ List.mem_map_of_mem mem)
      rw [← eq, bare_tokenKind]
    exact ⟨(List.map_congr_left clean).trans same, clean⟩
  · rintro ⟨shown, clean⟩
    exact (List.map_congr_left clean).symm.trans shown

/-- Only the kinds of the lexemes matter. -/
theorem shows_congr {ts : List Token} {ls ms : List Lexeme}
    (same : ls.map Lexeme.kind = ms.map Lexeme.kind) : Shows ts ls ↔ Shows ts ms := by
  have kinds (ls : List Lexeme) :
      ls.map (fun l => l.kind.bare) = (ls.map Lexeme.kind).map Kind.bare := by
    rw [List.map_map]
    rfl
  rw [Shows, Shows, kinds, kinds, same]

theorem clean_congr {ls ms : List Lexeme} (same : ls.map Lexeme.kind = ms.map Lexeme.kind) :
    Clean ls ↔ Clean ms := by
  have kinds (ls : List Lexeme) : Clean ls ↔ ∀ kind ∈ ls.map Lexeme.kind, kind.bare = kind := by
    rw [List.forall_mem_map]
    rfl
  rw [kinds, kinds, same]

end NodeProvisioner.Json
