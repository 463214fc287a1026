import NodeProvisioner.Proofs.Json.Canonical
import NodeProvisioner.Proofs.Json.Ranges
import NodeProvisioner.Proofs.Json.Scanning

/-!
# The lexemes of a printed value

A printed value falls into the lexemes that its structure suggests: brackets, commas and colons in
their places, and one lexeme for each text, number or word.

Which floating-point number the reader makes of a printed one is up to its arithmetic, and it may
object to an integer that is out of range. So the lexemes are those of another value, which
resembles the printed one, and there is no objection if the printed value is bounded.

Main statement: `exists_shows_print`.
-/

namespace NodeProvisioner.Json

/-! ## Falling into lexemes -/

/-- The characters up to `rest` fall into lexemes of these tokens, whatever the place and as long
as there is fuel for each character. Under the condition no reader objects to them. -/
def Lexes (P : Prop) (cs : List Char) (ts : List Token) (rest : List Char) : Prop :=
  ∀ fuel p, cs.length < fuel → ∃ ls n q, rest.length < n ∧
    lexFrom fuel p cs = ls ++ lexFrom n q rest ∧ Shows ts ls ∧ (P → Clean ls)

theorem Lexes.imp {P Q : Prop} {cs rest : List Char} {ts : List Token} (h : Lexes P cs ts rest)
    (f : Q → P) : Lexes Q cs ts rest := by
  intro fuel p enough
  obtain ⟨ls, n, q, left, split, shown, clean⟩ := h fuel p enough
  exact ⟨ls, n, q, left, split, shown, clean ∘ f⟩

theorem Lexes.trans {P : Prop} {cs mid rest : List Char} {ts us : List Token}
    (h : Lexes P cs ts mid) (g : Lexes P mid us rest) : Lexes P cs (ts ++ us) rest := by
  intro fuel p enough
  obtain ⟨ls, n, q, enough, first, shown, clean⟩ := h fuel p enough
  obtain ⟨ms, k, r, enough, second, shown', clean'⟩ := g n q enough
  refine ⟨ls ++ ms, k, r, enough, ?_, ?_, ?_⟩
  · rw [first, second, List.append_assoc]
  · rw [Shows, List.map_append, List.map_append, shown, shown']
  · exact fun holds => clean_append.mpr ⟨clean holds, clean' holds⟩

/-- One lexeme. -/
theorem lexes_one {P : Prop} {c : Char} {cs rest : List Char} {t : Token}
    (solid : isSpace c = false) (shorter : rest.length ≤ cs.length)
    (scans : ∀ p, ∃ kind q, scanLexeme c p cs = ⟨kind, q, rest⟩ ∧ kind.bare = t.kind ∧
      (P → kind.bare = kind)) : Lexes P (c :: cs) [t] rest := by
  intro fuel p enough
  cases fuel with
  | zero => exact absurd enough (Nat.not_lt_zero _)
  | succ fuel =>
    obtain ⟨kind, q, scanned, bare, clean⟩ := scans p
    refine ⟨[⟨kind, p, q, q⟩], fuel, q, ?_, ?_, congrArg (· :: []) bare, ?_⟩
    · rw [List.length_cons] at enough
      omega
    · rw [lexFrom, if_neg (by rw [solid]; decide), scanned]
      rfl
    · exact fun holds => List.forall_mem_singleton.mpr (clean holds)

/-- A token, in any of the ways to write it. -/
theorem lexes_token {P : Prop} {t : Token} {spelling : List Char} (h : t.Spells spelling)
    {rest : List Char} (stop : t.isMark = false → EndsNumber rest) :
    Lexes P (spelling ++ rest) [t] rest := by
  obtain ⟨c, more, rfl, solid, scans⟩ := scanLexeme_spells h stop
  rw [List.cons_append]
  refine lexes_one solid ?_ ?_
  · rw [List.length_append]
    omega
  · intro p
    obtain ⟨q, scanned⟩ := scans p
    exact ⟨t.kind, q, scanned, bare_tokenKind t, fun _ => bare_tokenKind t⟩

/-- A bracket, a comma or a colon. -/
theorem lexes_mark {P : Prop} {t : Token} {c : Char} (h : t.Spells [c]) (mark : t.isMark = true)
    (rest : List Char) : Lexes P (c :: rest) [t] rest := by
  refine lexes_token h fun scalar => ?_
  rw [mark] at scalar
  cases scalar

/-- A bracket, a comma or a colon, and what follows it. -/
theorem Lexes.mark {P : Prop} {t : Token} {c : Char} {cs rest : List Char} {ts : List Token}
    (h : t.Spells [c]) (mark : t.isMark = true) (g : Lexes P cs ts rest) :
    Lexes P (c :: cs) (t :: ts) rest := (lexes_mark h mark cs).trans g

/-- A text with its quotes. -/
theorem lexes_text {P : Prop} (s : String) {rest : List Char} (stop : EndsNumber rest) :
    Lexes P (textChars s ++ rest) [.scalar (.text s)] rest :=
  lexes_token (.text (spellsText_escaped s.toList)) fun _ => stop

/-- A number that is not kept as an integer: the reader makes of it what it can. -/
theorem exists_lexes_loose {n : Numeral} (proper : n.IsProper) (floats : n.Floats)
    {rest : List Char} (stop : EndsNumber rest) :
    ∃ k : Json, k.IsStandIn ∧ Lexes False (n.signed ++ rest) k.tokens rest := by
  rcases floats with none | ⟨x, some⟩
  · -- out of range, so there is an objection
    refine ⟨null, .inl rfl, ?_⟩
    obtain ⟨c, more, spelled, solid, scans⟩ := scanLexeme_number proper.spells stop
    rw [Numeral.signed, spelled, List.cons_append]
    refine lexes_one solid ?_ ?_
    · rw [List.length_append]
      omega
    · intro p
      obtain ⟨q, scanned⟩ := scans p
      rw [none] at scanned
      exact ⟨_, q, scanned, rfl, False.elim⟩
  · exact ⟨float x, .inr trivial, lexes_token (.number proper.spells some) fun _ => stop⟩

theorem exists_lexes_int (i : Int) {rest : List Char} (stop : EndsNumber rest) :
    ∃ k, (int i).Resembles k ∧
      Lexes ((int i).isBounded = true) (intChars i ++ rest) k.tokens rest := by
  rw [intChars_eq]
  by_cases fits : Fits i
  · refine ⟨int i, resembles_int.mpr ((if_pos fits).mpr rfl), ?_⟩
    exact lexes_token (.number (isProper_ofInt i).spells (value?_ofInt fits)) fun _ => stop
  · obtain ⟨k, standIn, lexes⟩ := exists_lexes_loose (isProper_ofInt i) (floats_ofInt fits) stop
    refine ⟨k, resembles_of_isLoose fits standIn, lexes.imp fun bounded => ?_⟩
    exact fits (of_decide_eq_true bounded)

theorem exists_lexes_float (x : Float) {rest : List Char} (stop : EndsNumber rest) :
    ∃ k, (float x).Resembles k ∧
      Lexes ((float x).isBounded = true) (floatChars x ++ rest) k.tokens rest := by
  obtain absent | ⟨n, proper, printed, y, read⟩ := floatChars_reads x
  · rw [absent]
    exact ⟨null, .inl rfl, lexes_token .null fun _ => stop⟩
  · rw [printed]
    exact ⟨float y, .inr trivial, lexes_token (.number proper.spells read) fun _ => stop⟩

/-! ## Values -/

theorem endsNumber_itemChars (js : List Json) (rest : List Char) :
    EndsNumber (itemChars js ++ rest) := by
  cases js with
  | nil => exact endsNumber_cons (by decide) (by decide) (by decide) (by decide) _
  | cons j js => exact endsNumber_cons (by decide) (by decide) (by decide) (by decide) _

theorem endsNumber_memberChars (ms : List (String × Json)) (rest : List Char) :
    EndsNumber (memberChars ms ++ rest) := by
  cases ms with
  | nil => exact endsNumber_cons (by decide) (by decide) (by decide) (by decide) _
  | cons m ms => exact endsNumber_cons (by decide) (by decide) (by decide) (by decide) _

/-- A name, its colon and what follows. -/
theorem lexes_name {P : Prop} (name : String) {cs rest : List Char} {ts : List Token}
    (h : Lexes P cs ts rest) :
    Lexes P (textChars name ++ ':' :: cs) (.scalar (.text name) :: .colon :: ts) rest :=
  (lexes_text name (endsNumber_cons (by decide) (by decide) (by decide) (by decide) cs)).trans
    (h.mark .colon rfl)

mutual

/-- **A printed value falls into the lexemes of one that resembles it.** -/
theorem exists_lexes_chars : ∀ (j : Json) {rest : List Char}, EndsNumber rest →
    ∃ k, j.Resembles k ∧ Lexes (j.isBounded = true) (j.chars ++ rest) k.tokens rest
  | null, _, stop => ⟨null, rfl, lexes_token .null fun _ => stop⟩
  | bool true, _, stop => ⟨bool true, rfl, lexes_token .true fun _ => stop⟩
  | bool false, _, stop => ⟨bool false, rfl, lexes_token .false fun _ => stop⟩
  | int i, _, stop => exists_lexes_int i stop
  | float x, _, stop => exists_lexes_float x stop
  | str s, _, stop => ⟨str s, rfl, lexes_text s stop⟩
  | arr [], rest, _ => by
    refine ⟨arr [], ⟨[], rfl, rfl⟩, ?_⟩
    exact Lexes.mark .openList rfl (lexes_mark .closeList rfl rest)
  | arr (j :: js), rest, _ => by
    obtain ⟨k, first, value⟩ := exists_lexes_chars j (endsNumber_itemChars js rest)
    obtain ⟨ks, others, items⟩ := exists_lexes_itemChars js rest
    refine ⟨arr (k :: ks), ⟨k :: ks, rfl, k, ks, rfl, first, others⟩, ?_⟩
    rw [chars, tokens, itemTokens, intercalate_cons, isBounded, itemsBounded, Bool.and_eq_true]
    simp only [List.cons_append, List.append_assoc]
    exact .mark .openList rfl ((value.imp And.left).trans (items.imp And.right))
  | obj [], rest, _ => by
    refine ⟨obj [], ⟨[], rfl, rfl⟩, ?_⟩
    exact Lexes.mark .openMap rfl (lexes_mark .closeMap rfl rest)
  | obj ((name, j) :: ms), rest, _ => by
    obtain ⟨k, first, value⟩ := exists_lexes_chars j (endsNumber_memberChars ms rest)
    obtain ⟨ns, others, members⟩ := exists_lexes_memberChars ms rest
    refine ⟨obj ((name, k) :: ns), ⟨_, rfl, k, ns, rfl, first, others⟩, ?_⟩
    rw [chars, tokens, memberTokens, intercalate_cons, isBounded, membersBounded, Bool.and_eq_true]
    simp only [List.cons_append, List.append_assoc]
    exact .mark .openMap rfl (lexes_name name ((value.imp And.left).trans (members.imp And.right)))

/-- The items after the first, and the end of the list. -/
theorem exists_lexes_itemChars : ∀ (js : List Json) (rest : List Char), ∃ ks, ItemsResemble js ks ∧
    Lexes (itemsBounded js = true) (itemChars js ++ rest)
      ((itemTokens ks).flatMap (Token.comma :: ·) ++ [.closeList]) rest
  | [], rest => ⟨[], rfl, lexes_mark .closeList rfl rest⟩
  | j :: js, rest => by
    obtain ⟨k, first, value⟩ := exists_lexes_chars j (endsNumber_itemChars js rest)
    obtain ⟨ks, others, items⟩ := exists_lexes_itemChars js rest
    refine ⟨k :: ks, ⟨k, ks, rfl, first, others⟩, ?_⟩
    rw [itemChars, itemTokens, List.flatMap_cons, itemsBounded, Bool.and_eq_true]
    simp only [List.cons_append, List.append_assoc]
    exact .mark .comma rfl ((value.imp And.left).trans (items.imp And.right))

/-- The members after the first, and the end of the object. -/
theorem exists_lexes_memberChars : ∀ (ms : List (String × Json)) (rest : List Char),
    ∃ ns, MembersResemble ms ns ∧ Lexes (membersBounded ms = true) (memberChars ms ++ rest)
      ((memberTokens ns).flatMap (Token.comma :: ·) ++ [.closeMap]) rest
  | [], rest => ⟨[], rfl, lexes_mark .closeMap rfl rest⟩
  | (name, j) :: ms, rest => by
    obtain ⟨k, first, value⟩ := exists_lexes_chars j (endsNumber_memberChars ms rest)
    obtain ⟨ns, others, members⟩ := exists_lexes_memberChars ms rest
    refine ⟨(name, k) :: ns, ⟨k, ns, rfl, first, others⟩, ?_⟩
    rw [memberChars, memberTokens, List.flatMap_cons, membersBounded, Bool.and_eq_true]
    simp only [List.cons_append, List.append_assoc]
    exact .mark .comma rfl (lexes_name name ((value.imp And.left).trans (members.imp And.right)))

end

/-! ## The whole text -/

/-- **The lexemes of a printed value, up to the end of the text.** -/
theorem exists_shows_print (j : Json) : ∃ k ls l, j.Resembles k ∧ lexemes j.print = ls ++ [l] ∧
    l.kind = .finish ∧ Shows k.tokens ls ∧ (j.isBounded = true → Clean ls) := by
  obtain ⟨k, alike, lexes⟩ := exists_lexes_chars j endsNumber_nil
  obtain ⟨ls, n, q, left, split, shown, clean⟩ :=
    lexes (j.chars.length + 1) .start (by rw [List.append_nil]; omega)
  obtain ⟨ms, l, settled, ends, _⟩ := lexemes_ends j.print
  -- settling has moved places only
  have kinds : (lexemes j.print).map Lexeme.kind = ls.map Lexeme.kind ++ [.finish] := by
    rw [List.append_nil] at split
    rw [lexemes, map_kind_settle, print, String.toList_ofList, split, List.map_append]
    cases n with
    | zero => exact absurd left (Nat.lt_irrefl 0)
    | succ n => rfl
  rw [settled, List.map_append, List.map_singleton, ends] at kinds
  have same := List.append_cancel_right kinds
  exact ⟨k, ms, l, alike, settled, ends, (shows_congr same).mpr shown,
    fun bounded => (clean_congr same).mpr (clean bounded)⟩

end NodeProvisioner.Json
