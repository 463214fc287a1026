import NodeProvisioner.Proofs.Json.Reading

/-!
# The documents of printed values

The document of a printed value is the value again, with its parts in the order in which they have
been written; it only says in addition where they stand in the text.

This holds of plain values that are not nested too deep, to which no reader objects. So the lexemes
are just those of the tokens, and no list or object is guarded.

Main statement: `exists_document_print`.
-/

namespace NodeProvisioner.Json

open Building

mutual

/-- The document is the value, whatever places it names. -/
def Depicts : Json → Node → Prop
  | null, n => ∃ extent, n = .scalar .null none extent
  | bool b, n => ∃ extent, n = .scalar (.bool b) none extent
  | int i, n => ∃ extent, n = .scalar (.int i) none extent
  | float x, n => ∃ extent, n = .scalar (.float x) none extent
  | str s, n => ∃ extent, n = .scalar (.text s) none extent
  | arr items, n => ∃ nodes first ending, n = .list nodes .json first ending ∧
      ending.wanted = .ok () ∧ ItemsDepict items nodes
  | obj members, n => ∃ entries first ending, n = .map entries .json first ending ∧
      ending.wanted = .ok () ∧ MembersDepict members entries

def ItemsDepict : List Json → List Node → Prop
  | [], nodes => nodes = []
  | j :: rest, nodes => ∃ n more, nodes = n :: more ∧ j.Depicts n ∧ ItemsDepict rest more

def MembersDepict : List (String × Json) → List Entry → Prop
  | [], entries => entries = []
  | (name, j) :: rest, entries => ∃ extent n afterKey afterValue more,
      entries = .mk (.scalar (.text name) none extent) n afterKey afterValue :: more ∧
      j.Depicts n ∧ MembersDepict rest more

end

/-! ## Lexemes without objections -/

/-- The lexemes are those of the tokens, and no reader objects to one. -/
def Yields (ts : List Token) (ls : List Lexeme) : Prop := ls.map Lexeme.kind = ts.map Token.kind

theorem Yields.cons {t : Token} {ts : List Token} {ls : List Lexeme} (h : Yields (t :: ts) ls) :
    ∃ l more, ls = l :: more ∧ l.kind = t.kind ∧ Yields ts more := List.map_eq_cons_iff.mp h

theorem Yields.append {a b : List Token} {ls : List Lexeme} (h : Yields (a ++ b) ls) :
    ∃ first second, ls = first ++ second ∧ Yields a first ∧ Yields b second := by
  unfold Yields at h
  rw [List.map_append] at h
  exact List.map_eq_append_iff.mp h

theorem Yields.nil {ls : List Lexeme} (h : Yields [] ls) : ls = [] := List.map_eq_nil_iff.mp h

/-! ## Lists and objects that are complete -/

theorem depicts_close_list {js : List Json} {ns : List Node} (h : ItemsDepict js ns) (l : Lexeme)
    {frames : List Frame} (shallow : frames.length < depthLimit) (first last : Place) :
    (arr js).Depicts
      ((Frame.list first (guard? l frames) ns.reverse).close (.closed last)) := by
  rw [guard?_eq_none shallow, close_list, List.reverse_reverse]
  exact ⟨ns, _, _, rfl, rfl, h⟩

theorem depicts_close_map {ms : List (String × Json)} {es : List Entry} (h : MembersDepict ms es)
    (l : Lexeme) {frames : List Frame} (shallow : frames.length < depthLimit)
    (first last : Place) :
    (obj ms).Depicts
      ((Frame.map first (guard? l frames) es.reverse none none).close (.closed last)) := by
  rw [guard?_eq_none shallow, close_map, List.reverse_reverse]
  exact ⟨es, _, _, rfl, rfl, h⟩

/-! ## From lexemes to the document -/

/-- A scalar is built from its one lexeme. -/
theorem exists_depicts_scalar (value : Scalar) {ls : List Lexeme} {phase : Phase}
    (shown : Yields [.scalar value] ls) (wants : phase.WantsValue) (frames : List Frame) :
    ∃ n reached, (ofScalar value).Depicts n ∧
      ls.foldl step (.going frames phase) = complete? n reached frames := by
  obtain ⟨l, _, rfl, kind, shown⟩ := shown.cons
  cases shown.nil
  refine ⟨leaf l value none, l.settled, ?_, step_scalar wants kind frames⟩
  cases value <;> exact ⟨_, rfl⟩

/-- A name and its colon are noted, and a value may come next. -/
theorem foldl_key {name : String} {ts : List Token} {ls : List Lexeme} {phase : Phase}
    (shown : Yields (.scalar (.text name) :: .colon :: ts) ls)
    (wants : phase = .firstKey ∨ phase = .laterKey) (first : Place) (guard : Option Fault)
    (entries : List Entry) (frames : List Frame) :
    ∃ extent afterKey more, Yields ts more ∧
      ls.foldl step (.going (.map first guard entries none none :: frames) phase)
        = more.foldl step (.going (.map first guard entries
            (some (.scalar (.text name) none extent)) (some afterKey) :: frames) .value) := by
  obtain ⟨l, _, rfl, kind, shown⟩ := shown.cons
  obtain ⟨m, more, rfl, colon, shown⟩ := shown.cons
  refine ⟨some ⟨l.first, l.last⟩, l.settled, more, shown, ?_⟩
  rw [List.foldl_cons, List.foldl_cons, step_key wants kind]
  simp only [step, colon, Token.kind]
  rfl

mutual

/-- **The document built from the lexemes of a value is the value**, wherever one may come. -/
theorem exists_depicts : ∀ (j : Json) {ls : List Lexeme} {phase : Phase} (frames : List Frame),
    Yields j.tokens ls → phase.WantsValue → Shallow frames.length j →
    ∃ n reached, j.Depicts n ∧
      ls.foldl step (.going frames phase) = complete? n reached frames
  | null, _, _, frames, shown, wants, _ => exists_depicts_scalar .null shown wants frames
  | bool b, _, _, frames, shown, wants, _ => exists_depicts_scalar (.bool b) shown wants frames
  | int i, _, _, frames, shown, wants, _ => exists_depicts_scalar (.int i) shown wants frames
  | float x, _, _, frames, shown, wants, _ => exists_depicts_scalar (.float x) shown wants frames
  | str s, _, _, frames, shown, wants, _ => exists_depicts_scalar (.text s) shown wants frames
  | arr [], ls, phase, frames, shown, wants, shallow => by
    obtain ⟨l, _, rfl, opens, shown⟩ := shown.cons
    obtain ⟨m, _, rfl, closes, shown⟩ := shown.cons
    cases shown.nil
    have items : ItemsDepict [] [] := rfl
    have enough := (shallow_arr.mp shallow).2
    refine ⟨_, m.settled, depicts_close_list items l enough l.first m.last, ?_⟩
    rw [List.foldl_cons, List.foldl_cons, List.foldl_nil, step_openList wants opens]
    simp only [step, closes, Token.kind, shut]
    rfl
  | arr (j :: js), ls, phase, frames, shown, wants, shallow => by
    rw [tokens, itemTokens, intercalate_cons, List.append_assoc] at shown
    obtain ⟨l, _, rfl, opens, shown⟩ := shown.cons
    obtain ⟨head, more, rfl, value, others⟩ := shown.append
    obtain ⟨within, enough⟩ := shallow_arr.mp shallow
    obtain ⟨here, rest⟩ := List.forall_mem_cons.mp within
    obtain ⟨n, reached, first, built⟩ := exists_depicts j
      (.list l.first (guard? l frames) [] :: frames) value (.inr (.inl rfl)) here
    obtain ⟨ns, last, reached', all, ends⟩ :=
      exists_itemsDepict js l.first (guard? l frames) [n] frames others rest
    have items : ItemsDepict (j :: js) (n :: ns) := ⟨n, ns, rfl, first, all⟩
    refine ⟨_, reached', depicts_close_list items l enough l.first last, ?_⟩
    rw [List.foldl_cons, step_openList wants opens, List.foldl_append, built, List.reverse_cons]
    exact ends
  | obj [], ls, phase, frames, shown, wants, shallow => by
    obtain ⟨l, _, rfl, opens, shown⟩ := shown.cons
    obtain ⟨m, _, rfl, closes, shown⟩ := shown.cons
    cases shown.nil
    have members : MembersDepict [] [] := rfl
    have enough := (shallow_obj.mp shallow).2
    refine ⟨_, m.settled, depicts_close_map members l enough l.first m.last, ?_⟩
    rw [List.foldl_cons, List.foldl_cons, List.foldl_nil, step_openMap wants opens]
    simp only [step, closes, Token.kind, shut]
    rfl
  | obj ((name, j) :: ms), ls, phase, frames, shown, wants, shallow => by
    rw [tokens, memberTokens, intercalate_cons, List.append_assoc] at shown
    obtain ⟨l, _, rfl, opens, shown⟩ := shown.cons
    obtain ⟨extent, afterKey, _, shown, noted⟩ := foldl_key shown (.inl rfl) l.first
      (guard? l frames) [] frames
    obtain ⟨head, more, rfl, value, others⟩ := shown.append
    obtain ⟨within, enough⟩ := shallow_obj.mp shallow
    obtain ⟨here, rest⟩ := List.forall_mem_cons.mp within
    obtain ⟨n, reached, first, built⟩ := exists_depicts j
      (.map l.first (guard? l frames) [] (some (.scalar (.text name) none extent)) (some afterKey)
        :: frames) value (.inl rfl) here
    obtain ⟨es, last, reached', all, ends⟩ := exists_membersDepict ms l.first (guard? l frames)
      [.mk (.scalar (.text name) none extent) n (some afterKey) (some reached)] frames others rest
    have members : MembersDepict ((name, j) :: ms)
        (.mk (.scalar (.text name) none extent) n (some afterKey) (some reached) :: es) :=
      ⟨extent, n, some afterKey, some reached, es, rfl, first, all⟩
    refine ⟨_, reached', depicts_close_map members l enough l.first last, ?_⟩
    rw [List.foldl_cons, step_openMap wants opens, noted, List.foldl_append, built,
      List.reverse_cons]
    exact ends

/-- The items of a list after the first, and its end. -/
theorem exists_itemsDepict : ∀ (js : List Json) {ls : List Lexeme} (first : Place)
    (guard : Option Fault) (items : List Node) (frames : List Frame),
    Yields ((itemTokens js).flatMap (Token.comma :: ·) ++ [.closeList]) ls →
    (∀ j ∈ js, Shallow (frames.length + 1) j) →
    ∃ ns last reached, ItemsDepict js ns ∧
      ls.foldl step (.going (.list first guard items :: frames) .afterItem)
        = complete? ((Frame.list first guard (ns.reverse ++ items)).close (.closed last)) reached
            frames
  | [], ls, first, guard, items, frames, shown, _ => by
    obtain ⟨l, _, rfl, closes, shown⟩ := shown.cons
    cases shown.nil
    refine ⟨[], l.last, l.settled, rfl, ?_⟩
    simp only [List.foldl_cons, List.foldl_nil, step, closes, Token.kind, shut]
    rfl
  | j :: js, ls, first, guard, items, frames, shown, shallow => by
    rw [itemTokens, List.flatMap_cons, List.append_assoc] at shown
    obtain ⟨l, _, rfl, comma, shown⟩ := shown.cons
    obtain ⟨head, more, rfl, value, others⟩ := shown.append
    obtain ⟨here, rest⟩ := List.forall_mem_cons.mp shallow
    obtain ⟨n, reached, depicted, built⟩ := exists_depicts j (.list first guard items :: frames)
      value (show Phase.laterItem.WantsValue from .inr (.inr rfl)) here
    -- the frame holds the items read so far, in reverse
    obtain ⟨ns, last, reached', all, ends⟩ :=
      exists_itemsDepict js first guard (n :: items) frames others rest
    refine ⟨n :: ns, last, reached', ⟨n, ns, rfl, depicted, all⟩, ?_⟩
    have step₁ : step (.going (.list first guard items :: frames) .afterItem) l
        = .going (.list first guard items :: frames) .laterItem := by
      simp only [step, comma, Token.kind]
    rw [List.foldl_cons, step₁, List.foldl_append, built, List.reverse_cons, List.append_assoc]
    exact ends

/-- The members of an object after the first, and its end. -/
theorem exists_membersDepict : ∀ (ms : List (String × Json)) {ls : List Lexeme} (first : Place)
    (guard : Option Fault) (entries : List Entry) (frames : List Frame),
    Yields ((memberTokens ms).flatMap (Token.comma :: ·) ++ [.closeMap]) ls →
    (∀ m ∈ ms, Shallow (frames.length + 1) m.2) →
    ∃ es last reached, MembersDepict ms es ∧
      ls.foldl step (.going (.map first guard entries none none :: frames) .afterMember)
        = complete? ((Frame.map first guard (es.reverse ++ entries) none none).close
            (.closed last)) reached frames
  | [], ls, first, guard, entries, frames, shown, _ => by
    obtain ⟨l, _, rfl, closes, shown⟩ := shown.cons
    cases shown.nil
    refine ⟨[], l.last, l.settled, rfl, ?_⟩
    simp only [List.foldl_cons, List.foldl_nil, step, closes, Token.kind, shut]
    rfl
  | (name, j) :: ms, ls, first, guard, entries, frames, shown, shallow => by
    rw [memberTokens, List.flatMap_cons, List.append_assoc] at shown
    obtain ⟨l, _, rfl, comma, shown⟩ := shown.cons
    obtain ⟨extent, afterKey, _, shown, noted⟩ := foldl_key shown (.inr rfl) first guard entries
      frames
    obtain ⟨head, more, rfl, value, others⟩ := shown.append
    obtain ⟨here, rest⟩ := List.forall_mem_cons.mp shallow
    obtain ⟨n, reached, depicted, built⟩ := exists_depicts j
      (.map first guard entries (some (.scalar (.text name) none extent)) (some afterKey)
        :: frames) value (.inl rfl) here
    obtain ⟨es, last, reached', all, ends⟩ := exists_membersDepict ms first guard
      (.mk (.scalar (.text name) none extent) n (some afterKey) (some reached) :: entries) frames
      others rest
    refine ⟨.mk _ n _ _ :: es, last, reached',
      ⟨extent, n, some afterKey, some reached, es, rfl, depicted, all⟩, ?_⟩
    have step₁ : step (.going (.map first guard entries none none :: frames) .afterMember) l
        = .going (.map first guard entries none none :: frames) .laterKey := by
      simp only [step, comma, Token.kind]
    rw [List.foldl_cons, step₁, noted, List.foldl_append, built, List.reverse_cons,
      List.append_assoc]
    exact ends

end

/-- **The document of a printed value is the value**, and nothing is left of the text. -/
theorem exists_document_print {j : Json} (plain : j.isPlain = true)
    (shallow : j.depth ≤ depthLimit) : ∃ n, document j.print = (n, none) ∧ j.Depicts n := by
  obtain ⟨k, ls, l, alike, split, ends, shown, clean⟩ := exists_shows_print j
  rw [alike.eq_of_isPlain plain] at shown
  have yields : Yields j.tokens ls := kinds_eq_iff.mpr ⟨shown, clean (isBounded_of_isPlain plain)⟩
  obtain ⟨n, reached, depicted, built⟩ := exists_depicts j [] yields
    (show Phase.value.WantsValue from .inl rfl) (.inr shallow)
  refine ⟨n, ?_, depicted⟩
  rw [document, split, List.foldl_append, built]
  simp only [List.foldl_cons, List.foldl_nil, complete?, step, ends, result]

end NodeProvisioner.Json
