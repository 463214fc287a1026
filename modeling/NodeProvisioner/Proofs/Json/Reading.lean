import NodeProvisioner.Proofs.Json.Building
import NodeProvisioner.Proofs.Json.Lexing

/-!
# Which texts are read, and as what

A reader accepts the texts of those values that are nested no deeper than the limit, and no others;
what it makes of a text is the canonical form of the value.

That it reads these texts is known from the document that is built for a value. That it reads no
others is about any lexemes: with each step either the tokens so far begin a value, in a way that
the open frames and the phase tell (`Progress`), or the document has failed for good.

A printed value is no exception, but a reader may object to an integer in it that is out of range,
so that its lexemes count rather than its tokens.

Main statements: `parse_eq_ok_iff`, `parse_print`.
-/

namespace NodeProvisioner.Json

open Building

/-! ## From any lexemes to tokens -/

/-- Nothing can be read any more. -/
def Failed (b : Building) : Prop :=
  ∃ root rest, b = .settled root rest ∧ (rest ≠ none ∨ ∀ v, ofNode root ≠ .ok v)

theorem Failed.foldl {b : Building} (h : Failed b) : ∀ ls : List Lexeme, Failed (ls.foldl step b)
  | [] => h
  | l :: ls => by
    obtain ⟨root, rest, rfl, ends⟩ := h
    exact Failed.foldl ⟨root, rest, rfl, ends⟩ ls

/-- What breaks off cannot be read. -/
theorem ofNode_close_broken (frame : Frame) (wanted finished skipped : Fault) (v : Json) :
    ofNode (frame.close (.broken wanted finished skipped)) ≠ .ok v := by
  cases frame with
  | list first guard items =>
    cases guard with
    | none =>
      rw [close_list, ofNode]
      cases ofNodes items.reverse <;> exact nofun
    | some fault => exact nofun
  | map first guard entries key afterKey =>
    cases guard with
    | none =>
      rw [close_map, ofNode]
      cases ofEntries entries.reverse <;> exact nofun
    | some fault => exact nofun

theorem failed_breakOff (wanted finished skipped : Fault) (frames : List Frame) :
    Failed (breakOff wanted finished skipped frames) := by
  cases frames with
  | nil => exact ⟨_, _, rfl, .inr nofun⟩
  | cons frame frames =>
    refine ⟨_, _, rfl, .inr ?_⟩
    -- each enclosing frame breaks off too, so the outermost decides
    have outermost : ∀ (frames : List Frame) (n : Node), (∀ v, ofNode n ≠ .ok v) →
        ∀ v, ofNode (frames.foldl (fun node outer =>
          (outer.put node .start).close (.broken wanted finished skipped)) n) ≠ .ok v := by
      intro frames
      induction frames with
      | nil => exact fun n h => h
      | cons outer frames ih =>
        intro n _
        exact ih _ (ofNode_close_broken _ _ _ _)
    exact outermost frames _ (ofNode_close_broken _ _ _ _)

theorem failed_fail (rule : Breach) (l : Lexeme) (frames : List Frame) :
    Failed (fail rule l frames) := failed_breakOff _ _ _ _

theorem failed_failValue (first : Place) (wanted skipped : Fault) (frames : List Frame) :
    Failed (failValue first wanted skipped frames) := by
  cases frames with
  | nil => exact ⟨_, _, rfl, .inr nofun⟩
  | cons frame frames =>
    unfold failValue
    exact failed_breakOff _ _ _ _

/-- What stands before the next part of a list or an object: the parts so far, each with a comma. -/
def before (parts : List (List Token)) : List Token := parts.flatMap (· ++ [.comma])

theorem before_concat (parts : List (List Token)) (part : List Token) :
    before (parts ++ [part]) = before parts ++ (part ++ [.comma]) := by
  rw [before, List.flatMap_append, List.flatMap_singleton]
  rfl

/-- The frame is that of a list, not that of an object. -/
def Frame.isList : Frame → Bool
  | .list .. => true
  | .map .. => false

@[simp] theorem isList_put (n : Node) (reached : Place) (frame : Frame) :
    (frame.put n reached).isList = frame.isList := by
  cases frame with
  | list first guard items => rfl
  | map first guard entries key afterKey => cases key <;> rfl

/-- The frames that are open after these tokens, where a value is to come. -/
inductive Awaits : List Frame → List Token → Prop where
  | root : Awaits [] []
  | item {frame : Frame} {outer : List Frame} {ts : List Token} (js : List Json) :
      frame.isList = true → Awaits outer ts →
      Awaits (frame :: outer) (ts ++ .openList :: before (itemTokens js))
  | member {frame : Frame} {outer : List Frame} {ts : List Token} (ms : List (String × Json))
      (name : String) : frame.isList = false → Awaits outer ts →
      Awaits (frame :: outer)
        (ts ++ .openMap :: (before (memberTokens ms) ++ [.scalar (.text name), .colon]))

/-- The frames that are open after these tokens, and what may come next. -/
inductive Partway : List Frame → Phase → List Token → Prop where
  | value {frames : List Frame} {ts : List Token} : Awaits frames ts → Partway frames .value ts
  | firstItem {frame : Frame} {outer : List Frame} {ts : List Token} :
      frame.isList = true → Awaits outer ts →
      Partway (frame :: outer) .firstItem (ts ++ [.openList])
  | laterItem {frame : Frame} {outer : List Frame} {ts : List Token} (js : List Json) :
      frame.isList = true → Awaits outer ts →
      Partway (frame :: outer) .laterItem (ts ++ .openList :: before (itemTokens js))
  | afterItem {frame : Frame} {outer : List Frame} {ts : List Token} (js : List Json) (j : Json) :
      frame.isList = true → Awaits outer ts →
      Partway (frame :: outer) .afterItem
        (ts ++ .openList :: (before (itemTokens js) ++ j.tokens))
  | firstKey {frame : Frame} {outer : List Frame} {ts : List Token} :
      frame.isList = false → Awaits outer ts →
      Partway (frame :: outer) .firstKey (ts ++ [.openMap])
  | laterKey {frame : Frame} {outer : List Frame} {ts : List Token} (ms : List (String × Json)) :
      frame.isList = false → Awaits outer ts →
      Partway (frame :: outer) .laterKey (ts ++ .openMap :: before (memberTokens ms))
  | afterKey {frame : Frame} {outer : List Frame} {ts : List Token} (ms : List (String × Json))
      (name : String) : frame.isList = false → Awaits outer ts →
      Partway (frame :: outer) .afterKey
        (ts ++ .openMap :: (before (memberTokens ms) ++ [.scalar (.text name)]))
  | afterMember {frame : Frame} {outer : List Frame} {ts : List Token} (ms : List (String × Json))
      (name : String) (j : Json) : frame.isList = false → Awaits outer ts →
      Partway (frame :: outer) .afterMember
        (ts ++ .openMap :: (before (memberTokens ms) ++ .scalar (.text name) :: .colon :: j.tokens))

/-- The tokens so far begin a value, or make it up. -/
def Progress : Building → List Token → Prop
  | .going frames phase, ts => Partway frames phase ts
  | .complete _, ts => ∃ j : Json, ts = j.tokens
  | .settled _ _, _ => False

/-- After a step with a lexeme of this kind, nothing can be read any more, or the tokens so far are
one more. -/
def Steps (b : Building) (kind : Kind) (ts : List Token) : Prop :=
  Failed b ∨ ∃ t : Token, kind.bare = t.kind ∧ Progress b (ts ++ [t])

theorem itemTokens_concat (js : List Json) (j : Json) :
    itemTokens (js ++ [j]) = itemTokens js ++ [j.tokens] := by
  induction js with
  | nil => rfl
  | cons k js ih => rw [List.cons_append, itemTokens, itemTokens, ih, List.cons_append]

theorem memberTokens_concat (ms : List (String × Json)) (name : String) (j : Json) :
    memberTokens (ms ++ [(name, j)])
      = memberTokens ms ++ [.scalar (.text name) :: .colon :: j.tokens] := by
  induction ms with
  | nil => rfl
  | cons m ms ih => rw [List.cons_append, memberTokens, memberTokens, ih, List.cons_append]

section

variable {frame : Frame} {outer : List Frame} {ts : List Token}

/-- A value is complete where one was to come. -/
theorem Awaits.complete {frames : List Frame} (h : Awaits frames ts) (n : Node) (reached : Place)
    (j : Json) : Progress (complete? n reached frames) (ts ++ j.tokens) := by
  cases h with
  | root => exact ⟨j, rfl⟩
  | @item frame _ _ js list outer =>
    have following : frame.following = .afterItem := by cases frame <;> first | rfl | cases list
    rw [List.append_assoc, List.cons_append]
    show Partway (frame.put n reached :: _) frame.following _
    rw [following]
    exact .afterItem js j ((isList_put n reached frame).trans list) outer
  | @member frame _ _ ms name map outer =>
    have following : frame.following = .afterMember := by cases frame <;> first | rfl | cases map
    rw [List.append_assoc, List.cons_append, List.append_assoc]
    show Partway (frame.put n reached :: _) frame.following _
    rw [following]
    exact .afterMember ms name j ((isList_put n reached frame).trans map) outer

theorem tokens_ofScalar (value : Scalar) : (ofScalar value).tokens = [.scalar value] := by
  cases value <;> rfl

/-- A lexeme, where a value is to come. -/
theorem Awaits.startValue {frames : List Frame} (h : Awaits frames ts) (l : Lexeme) :
    Steps (startValue l frames) l.kind ts := by
  unfold Building.startValue
  cases l.kind with
  | openList => exact .inr ⟨.openList, rfl, Partway.firstItem rfl h⟩
  | openMap => exact .inr ⟨.openMap, rfl, Partway.firstKey rfl h⟩
  | scalar value objection =>
    refine .inr ⟨.scalar value, rfl, ?_⟩
    rw [← tokens_ofScalar]
    exact h.complete _ _ _
  | _ => exact .inl (failed_failValue _ _ _ _)

/-- The closing bracket of a list. -/
theorem Awaits.shut_list (h : Awaits outer ts) (frame : Frame) (l : Lexeme) (js : List Json) :
    Steps (shut l (frame :: outer)) .closeList
      (ts ++ .openList :: [Token.comma].intercalate (itemTokens js)) := by
  refine .inr ⟨.closeList, rfl, ?_⟩
  rw [List.append_assoc, List.cons_append]
  exact h.complete _ _ (arr js)

/-- The closing bracket of an object. -/
theorem Awaits.shut_map (h : Awaits outer ts) (frame : Frame) (l : Lexeme)
    (ms : List (String × Json)) :
    Steps (shut l (frame :: outer)) .closeMap
      (ts ++ .openMap :: [Token.comma].intercalate (memberTokens ms)) := by
  refine .inr ⟨.closeMap, rfl, ?_⟩
  rw [List.append_assoc, List.cons_append]
  exact h.complete _ _ (obj ms)

/-- A lexeme, where a name is to come. -/
theorem Awaits.startKey (h : Awaits outer ts) (map : frame.isList = false) (l : Lexeme)
    (ms : List (String × Json)) :
    Steps (startKey l (frame :: outer) (fail .keyNotText l (frame :: outer))) l.kind
      (ts ++ .openMap :: before (memberTokens ms)) := by
  unfold Building.startKey
  split
  · rename_i name objection kind
    rw [kind]
    refine .inr ⟨.scalar (.text name), rfl, ?_⟩
    rw [List.append_assoc, List.cons_append]
    cases frame with
    | list => cases map
    | map => exact Partway.afterKey ms name rfl h
  · exact .inl (failed_breakOff _ _ _ _)
  · exact .inl (failed_fail _ _ _)

/-- **With each lexeme the tokens so far become one more, or nothing can be read any more.** -/
theorem Partway.step {frames : List Frame} {phase : Phase} (h : Partway frames phase ts)
    (l : Lexeme) : Steps (step (.going frames phase) l) l.kind ts := by
  cases h with
  | value h => exact h.startValue l
  | firstItem list h =>
    have item := (h.item [] list).startValue l
    cases kind : l.kind with
    | closeList =>
      simp only [Building.step, kind]
      exact h.shut_list _ l []
    | finish =>
      simp only [Building.step, kind]
      exact .inl (failed_fail _ _ _)
    | _ =>
      simp only [Building.step, kind]
      rw [kind] at item
      exact item
  | laterItem js list h =>
    have item := (h.item js list).startValue l
    cases kind : l.kind with
    | closeList =>
      simp only [Building.step, kind]
      exact .inl (failed_breakOff _ _ _ _)
    | finish =>
      simp only [Building.step, kind]
      exact .inl (failed_breakOff _ _ _ _)
    | _ =>
      simp only [Building.step, kind]
      rw [kind] at item
      exact item
  | @afterItem frame _ _ js j list h =>
    cases kind : l.kind with
    | comma =>
      simp only [Building.step, kind]
      refine .inr ⟨.comma, rfl, ?_⟩
      have later := Partway.laterItem (js ++ [j]) list h
      rw [itemTokens_concat, before_concat] at later
      rw [List.append_assoc, List.cons_append, List.append_assoc]
      exact later
    | closeList =>
      simp only [Building.step, kind]
      have shut := h.shut_list frame l (js ++ [j])
      rw [itemTokens_concat, intercalate_concat] at shut
      exact shut
    | finish =>
      simp only [Building.step, kind]
      exact .inl (failed_fail _ _ _)
    | _ =>
      simp only [Building.step, kind]
      exact .inl (failed_breakOff _ _ _ _)
  | firstKey map h =>
    have key := h.startKey map l []
    cases kind : l.kind with
    | closeMap =>
      simp only [Building.step, kind]
      exact h.shut_map _ l []
    | finish =>
      simp only [Building.step, kind]
      exact .inl (failed_fail _ _ _)
    | _ =>
      simp only [Building.step, kind]
      rw [kind] at key
      exact key
  | laterKey ms map h =>
    have key := h.startKey map l ms
    cases kind : l.kind with
    | closeMap =>
      simp only [Building.step, kind]
      exact .inl (failed_breakOff _ _ _ _)
    | finish =>
      simp only [Building.step, kind]
      exact .inl (failed_breakOff _ _ _ _)
    | _ =>
      simp only [Building.step, kind]
      rw [kind] at key
      exact key
  | afterKey ms name map h =>
    cases kind : l.kind with
    | colon =>
      simp only [Building.step, kind]
      refine .inr ⟨.colon, rfl, ?_⟩
      rw [List.append_assoc, List.cons_append, List.append_assoc]
      exact Partway.value (.member ms name map h)
    | _ =>
      simp only [Building.step, kind]
      exact .inl (failed_failValue _ _ _ _)
  | @afterMember frame _ _ ms name j map h =>
    cases kind : l.kind with
    | comma =>
      simp only [Building.step, kind]
      refine .inr ⟨.comma, rfl, ?_⟩
      have later := Partway.laterKey (ms ++ [(name, j)]) map h
      rw [memberTokens_concat, before_concat] at later
      rw [List.append_assoc, List.cons_append, List.append_assoc]
      exact later
    | closeMap =>
      simp only [Building.step, kind]
      have shut := h.shut_map frame l (ms ++ [(name, j)])
      rw [memberTokens_concat, intercalate_concat] at shut
      exact shut
    | _ =>
      simp only [Building.step, kind]
      exact .inl (failed_fail _ _ _)

end

/-! ## Whole texts -/

/-- **A run over lexemes shows the tokens of a value, as far as it has come, or fails.** -/
theorem Progress.foldl : ∀ {ls : List Lexeme} {b : Building} {ts : List Token},
    (∀ l ∈ ls, l.kind ≠ .finish) → Progress b ts →
    Failed (ls.foldl step b) ∨ ∃ us, Shows us ls ∧ Progress (ls.foldl step b) (ts ++ us)
  | [], b, ts, _, h => .inr ⟨[], rfl, (List.append_nil ts).symm ▸ h⟩
  | l :: ls, b, ts, goesOn, h => by
    rw [List.foldl_cons]
    obtain ⟨here, others⟩ := List.forall_mem_cons.mp goesOn
    have steps : Steps (step b l) l.kind ts := by
      cases b with
      | going frames phase => exact Partway.step h l
      | complete root =>
        -- the value is over, so nothing but the end may follow
        refine .inl ⟨root, some (Breach.more.fault (peeked l)), ?_, .inl nofun⟩
        rw [step]
        split
        · rename_i finish
          exact absurd finish here
        · rfl
      | settled root rest => exact h.elim
    rcases steps with failed | ⟨t, bare, one⟩
    · exact .inl (failed.foldl ls)
    · rcases Progress.foldl others one with failed | ⟨us, shown, all⟩
      · exact .inl failed
      · refine .inr ⟨t :: us, ?_, ?_⟩
        · exact congr_arg₂ List.cons bare shown
        · rwa [List.append_assoc] at all

/-- A document that has not failed at the end of its text shows the tokens of a value. -/
theorem exists_shows {ls : List Lexeme} {l : Lexeme} (ends : l.kind = .finish)
    (others : ∀ m ∈ ls, m.kind ≠ .finish)
    (h : ¬ Failed ((ls ++ [l]).foldl step (.going [] .value))) :
    ∃ j : Json, Shows j.tokens ls := by
  rw [List.foldl_append, List.foldl_cons, List.foldl_nil] at h
  have start : Progress (.going [] .value) [] := .value .root
  rcases Progress.foldl others start with failed | ⟨ts, shown, progress⟩
  · exact absurd (failed.foldl [l]) h
  · rw [List.nil_append] at progress
    cases built : ls.foldl step (.going [] .value) with
    | going frames phase =>
      rw [built] at progress h
      rcases Partway.step progress l with failed | ⟨t, bare, _⟩
      · exact absurd failed h
      · -- no token stands for the end
        rw [ends] at bare
        cases t <;> cases bare
    | complete root =>
      rw [built] at progress
      obtain ⟨j, rfl⟩ := progress
      exact ⟨j, shown⟩
    | settled root rest =>
      rw [built] at progress
      exact progress.elim

/-- What is read from the lexemes of a value, when nothing but the end follows. -/
theorem readsAs_document {j : Json} {s : String} {ls : List Lexeme} {l : Lexeme}
    (split : lexemes s = ls ++ [l]) (ends : l.kind = .finish) (shown : Shows j.tokens ls) :
    ∃ n, document s = (n, none) ∧ ReadsAs (Clean ls ∧ j.depth ≤ depthLimit) j n := by
  obtain ⟨n, reached, readsAs, built⟩ := exists_readsAs j [] shown
    (show Phase.value.WantsValue from .inl rfl)
  have shallow : Shallow 0 j ↔ j.depth ≤ depthLimit := by
    unfold Shallow
    omega
  refine ⟨n, ?_, readsAs.congr (and_congr_right' shallow)⟩
  rw [document, split, List.foldl_append, built]
  simp only [List.foldl_cons, List.foldl_nil, complete?, step, ends, result]

theorem not_failed_of_parse {s : String} {v : Json} (h : parse s = .ok v) :
    ¬ Failed ((lexemes s).foldl step (.going [] .value)) := by
  rintro ⟨root, rest, built, either⟩
  have settled : document s = (root, rest) := by rw [document, built, result]
  rw [parse, readDocument, settled] at h
  obtain ⟨k, read, h⟩ := bind_eq_ok_iff.mp h
  rcases either with some | unreadable
  · cases rest with
    | none => exact some rfl
    | some fault => cases h
  · exact unreadable k read

theorem parse_of_document {s : String} {n : Node} (h : document s = (n, none)) :
    parse s = ofNode n := by
  rw [parse, readDocument, h]
  simp only
  cases ofNode n <;> rfl

/-- **A text of a value is read as the canonical form of the value, unless that is nested too
deep.** -/
theorem HasText.parse_eq_ok_iff {j : Json} {s : String} (h : j.HasText s) {v : Json} :
    parse s = .ok v ↔ j.depth ≤ depthLimit ∧ v = j.canonical := by
  obtain ⟨ls, l, split, ends, _⟩ := lexemes_ends s
  have kinds := hasText_iff.mp h
  rw [split, List.map_append, List.map_singleton, ends] at kinds
  obtain ⟨shown, clean⟩ := kinds_eq_iff.mp (List.append_cancel_right kinds)
  obtain ⟨n, eq, readsAs⟩ := readsAs_document split ends shown
  rw [parse_of_document eq, readsAs v, and_iff_right clean]

/-- **Whatever is read is the text of a value.** -/
theorem exists_hasText_of_parse {s : String} {v : Json} (h : parse s = .ok v) :
    ∃ j : Json, j.HasText s := by
  obtain ⟨ls, l, split, ends, others⟩ := lexemes_ends s
  obtain ⟨j, shown⟩ := exists_shows ends others (split ▸ not_failed_of_parse h)
  obtain ⟨n, eq, readsAs⟩ := readsAs_document split ends shown
  rw [parse_of_document eq] at h
  obtain ⟨⟨clean, _⟩, _⟩ := (readsAs v).mp h
  refine ⟨j, hasText_iff.mpr ?_⟩
  rw [split, List.map_append, kinds_eq_iff.mpr ⟨shown, clean⟩, List.map_singleton, ends]

/-- **The texts that are read are those of values that are not nested too deep, and what is read is
the canonical form of the value.** -/
theorem parse_eq_ok_iff {s : String} {v : Json} : parse s = .ok v ↔
    ∃ j : Json, j.HasText s ∧ j.depth ≤ depthLimit ∧ v = j.canonical := by
  constructor
  · intro h
    obtain ⟨j, text⟩ := exists_hasText_of_parse h
    exact ⟨j, text, text.parse_eq_ok_iff.mp h⟩
  · rintro ⟨j, text, read⟩
    exact text.parse_eq_ok_iff.mpr read

/-! ## Reading what was printed -/

/-- What is read from a printed value: the canonical form of one that resembles it. -/
theorem exists_parse_print (j : Json) : ∃ (k : Json) (P : Prop), j.Resembles k ∧
    (j.isBounded = true → P) ∧
    ∀ v, parse j.print = .ok v ↔ (P ∧ k.depth ≤ depthLimit) ∧ v = k.canonical := by
  obtain ⟨k, ls, l, alike, split, ends, shown, clean⟩ := exists_shows_print j
  obtain ⟨n, eq, readsAs⟩ := readsAs_document split ends shown
  exact ⟨k, Clean ls, alike, clean, fun v => by rw [parse_of_document eq, readsAs v]⟩

/-- **What is read from a printed value resembles its canonical form.** -/
theorem resembles_of_parse_print {j k : Json} (h : parse j.print = .ok k) :
    j.canonical.Resembles k := by
  obtain ⟨l, _, alike, _, reads⟩ := exists_parse_print j
  obtain ⟨_, rfl⟩ := (reads k).mp h
  exact alike.canonical

/-- A printed value that is read is not nested too deep. -/
theorem depth_of_parse_print {j k : Json} (h : parse j.print = .ok k) : j.depth ≤ depthLimit := by
  obtain ⟨l, _, alike, _, reads⟩ := exists_parse_print j
  obtain ⟨⟨_, shallow⟩, _⟩ := (reads k).mp h
  rwa [alike.depth] at shallow

/-- **A plain value that is not nested too deep is read back in its canonical form.** -/
theorem parse_print {j : Json} (plain : j.isPlain = true) (shallow : j.depth ≤ depthLimit) :
    parse j.print = .ok j.canonical := by
  obtain ⟨k, P, alike, clean, reads⟩ := exists_parse_print j
  obtain rfl := alike.eq_of_isPlain plain
  exact (reads _).mpr ⟨⟨clean (isBounded_of_isPlain plain), shallow⟩, rfl⟩

/-- **A bounded value that is not nested too deep can be read**, as one that resembles it. -/
theorem exists_parse_of_isBounded {j : Json} (bounded : j.isBounded = true)
    (shallow : j.depth ≤ depthLimit) : ∃ k, parse j.print = .ok k ∧ j.canonical.Resembles k := by
  obtain ⟨l, P, alike, clean, reads⟩ := exists_parse_print j
  rw [← alike.depth] at shallow
  exact ⟨l.canonical, (reads _).mpr ⟨⟨clean bounded, shallow⟩, rfl⟩, alike.canonical⟩

end NodeProvisioner.Json
