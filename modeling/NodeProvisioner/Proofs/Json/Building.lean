import NodeProvisioner.Json.Reader
import NodeProvisioner.Proofs.Codec.Records
import NodeProvisioner.Proofs.Json.Scanning

/-!
# The document built from the lexemes of a value

From the lexemes of a value the reader builds one document and is then where it was before, with
the document in its place (`exists_readsAs`). The canonical form of the value is read from it, in
which the last of several members of one name counts, unless a reader objects to one of the lexemes
or the value is nested too deep.

The number of open frames is the depth at which a list or an object starts, so the depth that
counts against the limit is that of the value and of what encloses it.
-/

namespace NodeProvisioner.Json

open Building

/-! ## Documents that are read as values -/

/-- The document is read as the value in its canonical form, under this condition. -/
def ReadsAs (P : Prop) (j : Json) (n : Node) : Prop :=
  ∀ v, ofNode n = .ok v ↔ P ∧ v = j.canonical

def ItemsReadAs (P : Prop) (js : List Json) (ns : List Node) : Prop :=
  ∀ vs, ofNodes ns = .ok vs ↔ P ∧ vs = canonicalItems js

def MembersReadAs (P : Prop) (ms : List (String × Json)) (es : List Entry) : Prop :=
  ∀ vs, ofEntries es = .ok vs ↔ P ∧ vs = canonicalMembers ms

theorem ReadsAs.congr {P Q : Prop} {j : Json} {n : Node} (h : ReadsAs P j n) (same : P ↔ Q) :
    ReadsAs Q j n := fun v => (h v).trans (and_congr_left' same)

theorem itemsReadAs_nil : ItemsReadAs True [] [] := by
  intro vs
  rw [ofNodes, canonicalItems, true_and]
  exact ⟨fun h => (Except.ok.inj h).symm, fun h => congrArg Except.ok h.symm⟩

theorem membersReadAs_nil : MembersReadAs True [] [] := by
  intro vs
  rw [ofEntries, canonicalMembers, true_and]
  exact ⟨fun h => (Except.ok.inj h).symm, fun h => congrArg Except.ok h.symm⟩

theorem ItemsReadAs.cons {P Q : Prop} {j : Json} {n : Node} {js : List Json} {ns : List Node}
    (h : ReadsAs P j n) (g : ItemsReadAs Q js ns) : ItemsReadAs (P ∧ Q) (j :: js) (n :: ns) := by
  intro vs
  rw [ofNodes, canonicalItems, bind_eq_ok_iff]
  constructor
  · rintro ⟨k, first, h'⟩
    obtain ⟨ks, rest, ⟨⟩⟩ := bind_eq_ok_iff.mp h'
    obtain ⟨p, rfl⟩ := (h k).mp first
    obtain ⟨q, rfl⟩ := (g ks).mp rest
    exact ⟨⟨p, q⟩, rfl⟩
  · rintro ⟨⟨p, q⟩, rfl⟩
    exact ⟨j.canonical, (h _).mpr ⟨p, rfl⟩,
      bind_eq_ok_iff.mpr ⟨canonicalItems js, (g _).mpr ⟨q, rfl⟩, rfl⟩⟩

theorem MembersReadAs.cons {K P Q : Prop} {name : String} {j : Json} {key value : Node}
    {p q : Option Place} {ms : List (String × Json)} {es : List Entry}
    (named : ∀ s, keyText key = .ok s ↔ K ∧ s = name) (h : ReadsAs P j value)
    (g : MembersReadAs Q ms es) :
    MembersReadAs (K ∧ P ∧ Q) ((name, j) :: ms) (.mk key value p q :: es) := by
  intro vs
  rw [ofEntries, canonicalMembers, bind_eq_ok_iff]
  constructor
  · rintro ⟨s, keyRead, h'⟩
    obtain ⟨k, first, h'⟩ := bind_eq_ok_iff.mp h'
    obtain ⟨ks, rest, ⟨⟩⟩ := bind_eq_ok_iff.mp h'
    obtain ⟨clean, rfl⟩ := (named s).mp keyRead
    obtain ⟨p, rfl⟩ := (h k).mp first
    obtain ⟨q, rfl⟩ := (g ks).mp rest
    exact ⟨⟨clean, p, q⟩, rfl⟩
  · rintro ⟨⟨clean, p, q⟩, rfl⟩
    exact ⟨name, (named _).mpr ⟨clean, rfl⟩, bind_eq_ok_iff.mpr ⟨j.canonical, (h _).mpr ⟨p, rfl⟩,
      bind_eq_ok_iff.mpr ⟨canonicalMembers ms, (g _).mpr ⟨q, rfl⟩, rfl⟩⟩⟩

/-- A scalar is read unless a reader objects to it. -/
theorem readsAs_leaf {l : Lexeme} {value : Scalar} {objection : Option Fault}
    (h : l.kind = .scalar value objection) :
    ReadsAs (Clean [l]) (ofScalar value) (leaf l value objection) := by
  have canonical : (ofScalar value).canonical = ofScalar value := by cases value <;> rfl
  intro v
  rw [clean_scalar h, canonical]
  cases objection with
  | none => exact ⟨fun eq => ⟨rfl, (Except.ok.inj eq).symm⟩, fun eq => congrArg Except.ok eq.2.symm⟩
  | some fault => exact ⟨nofun, nofun⟩

/-- A name is read unless a reader objects to it. -/
theorem keyText_leaf {l : Lexeme} {name : String} {objection : Option Fault}
    (h : l.kind = .scalar (.text name) objection) (s : String) :
    keyText (leaf l (.text name) objection) = .ok s ↔ Clean [l] ∧ s = name := by
  rw [clean_scalar h]
  cases objection with
  | none => exact ⟨fun eq => ⟨rfl, (Except.ok.inj eq).symm⟩, fun eq => congrArg Except.ok eq.2.symm⟩
  | some fault => exact ⟨nofun, nofun⟩

theorem close_list (first : Place) (items : List Node) (ending : Ending) :
    (Frame.list first none items).close ending
      = .list items.reverse .json (some first) ending := rfl

theorem close_map (first : Place) (entries : List Entry) (key : Option Node)
    (afterKey : Option Place) (ending : Ending) :
    (Frame.map first none entries key afterKey).close ending
      = .map entries.reverse .json (some first) ending := rfl

/-- A list that was opened not too deep is not guarded. -/
theorem guard?_eq_none {l : Lexeme} {frames : List Frame} (h : frames.length < depthLimit) :
    guard? l frames = none := if_pos h

/-- A list is read if its items are and if it does not lie too deep. -/
theorem readsAs_close_list {P : Prop} {js : List Json} {ns : List Node} (h : ItemsReadAs P js ns)
    (l : Lexeme) (frames : List Frame) (first last : Place) :
    ReadsAs (P ∧ frames.length < depthLimit) (arr js)
      ((Frame.list first (guard? l frames) ns.reverse).close (.closed last)) := by
  intro v
  by_cases shallow : frames.length < depthLimit
  · rw [guard?_eq_none shallow, close_list, List.reverse_reverse, ofNode, bind_eq_ok_iff, canonical,
      and_iff_left shallow]
    constructor
    · rintro ⟨vs, read, ⟨⟩⟩
      obtain ⟨p, rfl⟩ := (h vs).mp read
      exact ⟨p, rfl⟩
    · rintro ⟨p, rfl⟩
      exact ⟨_, (h _).mpr ⟨p, rfl⟩, rfl⟩
  · rw [guard?, if_neg shallow]
    exact ⟨nofun, fun h => absurd h.1.2 shallow⟩

/-- An object is read if its members are and if it does not lie too deep. -/
theorem readsAs_close_map {P : Prop} {ms : List (String × Json)} {es : List Entry}
    (h : MembersReadAs P ms es) (l : Lexeme) (frames : List Frame) (first last : Place) :
    ReadsAs (P ∧ frames.length < depthLimit) (obj ms)
      ((Frame.map first (guard? l frames) es.reverse none none).close (.closed last)) := by
  intro v
  by_cases shallow : frames.length < depthLimit
  · rw [guard?_eq_none shallow, close_map, List.reverse_reverse, ofNode, bind_eq_ok_iff, canonical,
      and_iff_left shallow]
    constructor
    · rintro ⟨vs, read, ⟨⟩⟩
      obtain ⟨p, rfl⟩ := (h vs).mp read
      exact ⟨p, rfl⟩
    · rintro ⟨p, rfl⟩
      exact ⟨_, (h _).mpr ⟨p, rfl⟩, rfl⟩
  · rw [guard?, if_neg shallow]
    exact ⟨nofun, fun h => absurd h.1.2 shallow⟩

/-! ## From lexemes to the document -/

/-- A value may come next. -/
def Phase.WantsValue (phase : Phase) : Prop :=
  phase = .value ∨ phase = .firstItem ∨ phase = .laterItem

/-- A scalar becomes a leaf wherever a value may come. -/
theorem step_scalar {phase : Phase} (wants : phase.WantsValue) {l : Lexeme} {value : Scalar}
    {objection : Option Fault} (h : l.kind = .scalar value objection) (frames : List Frame) :
    step (.going frames phase) l = complete? (leaf l value objection) l.settled frames := by
  rcases wants with rfl | rfl | rfl <;> simp only [step, startValue, h]

theorem step_openList {phase : Phase} (wants : phase.WantsValue) {l : Lexeme}
    (h : l.kind = .openList) (frames : List Frame) :
    step (.going frames phase) l
      = .going (.list l.first (guard? l frames) [] :: frames) .firstItem := by
  rcases wants with rfl | rfl | rfl <;> simp only [step, startValue, h]

theorem step_openMap {phase : Phase} (wants : phase.WantsValue) {l : Lexeme}
    (h : l.kind = .openMap) (frames : List Frame) :
    step (.going frames phase) l
      = .going (.map l.first (guard? l frames) [] none none :: frames) .firstKey := by
  rcases wants with rfl | rfl | rfl <;> simp only [step, startValue, h]

/-- A key is noted wherever one may come. -/
theorem step_key {phase : Phase} (wants : phase = .firstKey ∨ phase = .laterKey) {l : Lexeme}
    {s : String} {objection : Option Fault} (h : l.kind = .scalar (.text s) objection)
    (first : Place) (guard : Option Fault) (entries : List Entry) (frames : List Frame) :
    step (.going (.map first guard entries none none :: frames) phase) l
      = .going (.map first guard entries (some (leaf l (.text s) objection)) (some l.settled)
          :: frames) .afterKey := by
  rcases wants with rfl | rfl <;> simp only [step, startKey, noteKey, h]

/-- The value does not nest too deep when so many lists and objects are open. A scalar opens
none. -/
def Shallow (d : Nat) (j : Json) : Prop := j.depth = 0 ∨ j.depth + d ≤ depthLimit

theorem shallow_arr {d : Nat} {js : List Json} :
    Shallow d (arr js) ↔ (∀ j ∈ js, Shallow (d + 1) j) ∧ d < depthLimit := by
  unfold Shallow
  rw [depth]
  constructor
  · intro h
    refine ⟨fun j mem => ?_, by omega⟩
    have := depth_le_itemsDepth mem
    omega
  · rintro ⟨all, enough⟩
    have most : itemsDepth js ≤ depthLimit - (d + 1) :=
      itemsDepth_le_iff.mpr fun j mem => by have := all j mem; omega
    omega

theorem shallow_obj {d : Nat} {ms : List (String × Json)} :
    Shallow d (obj ms) ↔ (∀ m ∈ ms, Shallow (d + 1) m.2) ∧ d < depthLimit := by
  unfold Shallow
  rw [depth]
  constructor
  · intro h
    refine ⟨fun m mem => ?_, by omega⟩
    have := depth_le_membersDepth mem
    omega
  · rintro ⟨all, enough⟩
    have most : membersDepth ms ≤ depthLimit - (d + 1) :=
      membersDepth_le_iff.mpr fun m mem => by have := all m mem; omega
    omega

/-- A scalar is built from its one lexeme. -/
theorem exists_readsAs_scalar (value : Scalar) {ls : List Lexeme} {phase : Phase}
    (shown : Shows [.scalar value] ls) (wants : phase.WantsValue) (frames : List Frame) :
    ∃ n reached, ReadsAs (Clean ls ∧ Shallow frames.length (ofScalar value)) (ofScalar value) n ∧
      ls.foldl step (.going frames phase) = complete? n reached frames := by
  obtain ⟨l, _, rfl, bare, shown⟩ := shown.cons
  cases shown.nil
  obtain ⟨objection, kind⟩ := scalar_of_bare bare
  have shallow : Shallow frames.length (ofScalar value) := by cases value <;> exact .inl rfl
  exact ⟨leaf l value objection, l.settled,
    (readsAs_leaf kind).congr (and_iff_left shallow).symm, step_scalar wants kind frames⟩

/-- A name and its colon are noted, and a value may come next. -/
theorem exists_key {name : String} {ts : List Token} {ls : List Lexeme} {phase : Phase}
    (shown : Shows (.scalar (.text name) :: .colon :: ts) ls)
    (wants : phase = .firstKey ∨ phase = .laterKey) (first : Place) (guard : Option Fault)
    (entries : List Entry) (frames : List Frame) :
    ∃ key afterKey head more, ls = head ++ more ∧ Shows ts more ∧
      (∀ s, keyText key = .ok s ↔ Clean head ∧ s = name) ∧
      ls.foldl step (.going (.map first guard entries none none :: frames) phase)
        = more.foldl step
            (.going (.map first guard entries (some key) (some afterKey) :: frames) .value) := by
  obtain ⟨l, _, rfl, bare, shown⟩ := shown.cons
  obtain ⟨m, more, rfl, colon, shown⟩ := shown.mark rfl
  obtain ⟨objection, kind⟩ := scalar_of_bare bare
  refine ⟨leaf l (.text name) objection, l.settled, [l, m], more, rfl, shown, ?_, ?_⟩
  · intro s
    have clean : Clean [l, m] ↔ Clean [l] := by
      have mark : Clean [m] := (clean_mark colon).mpr (List.forall_mem_nil _)
      rw [show [l, m] = [l] ++ [m] from rfl, clean_append, and_iff_left mark]
    rw [clean]
    exact keyText_leaf kind s
  · rw [List.foldl_cons, List.foldl_cons, step_key wants kind]
    simp only [step, colon, Token.kind]

mutual

/-- **A document is built from the lexemes of a value, wherever one may come, and it is read as the
value.** -/
theorem exists_readsAs : ∀ (j : Json) {ls : List Lexeme} {phase : Phase} (frames : List Frame),
    Shows j.tokens ls → phase.WantsValue →
    ∃ n reached, ReadsAs (Clean ls ∧ Shallow frames.length j) j n ∧
      ls.foldl step (.going frames phase) = complete? n reached frames
  | null, _, _, frames, shown, wants => exists_readsAs_scalar .null shown wants frames
  | bool b, _, _, frames, shown, wants => exists_readsAs_scalar (.bool b) shown wants frames
  | int i, _, _, frames, shown, wants => exists_readsAs_scalar (.int i) shown wants frames
  | float x, _, _, frames, shown, wants => exists_readsAs_scalar (.float x) shown wants frames
  | str s, _, _, frames, shown, wants => exists_readsAs_scalar (.text s) shown wants frames
  | arr [], ls, phase, frames, shown, wants => by
    obtain ⟨l, _, rfl, opens, shown⟩ := shown.mark rfl
    obtain ⟨m, _, rfl, closes, shown⟩ := shown.mark rfl
    cases shown.nil
    refine ⟨_, m.settled, (readsAs_close_list itemsReadAs_nil l frames l.first m.last).congr ?_, ?_⟩
    · rw [clean_mark opens, clean_mark closes, shallow_arr]
      simp [Clean]
    · rw [List.foldl_cons, List.foldl_cons, List.foldl_nil, step_openList wants opens]
      simp only [step, closes, Token.kind, shut]
      rfl
  | arr (j :: js), ls, phase, frames, shown, wants => by
    rw [tokens, itemTokens, intercalate_cons, List.append_assoc] at shown
    obtain ⟨l, _, rfl, opens, shown⟩ := shown.mark rfl
    obtain ⟨head, more, rfl, value, others⟩ := shown.append
    obtain ⟨n, reached, first, built⟩ := exists_readsAs j
      (.list l.first (guard? l frames) [] :: frames) value (.inr (.inl rfl))
    obtain ⟨ns, last, reached', all, rest⟩ :=
      exists_itemsReadAs js l.first (guard? l frames) [n] frames others
    refine ⟨_, reached',
      (readsAs_close_list (ItemsReadAs.cons first all) l frames l.first last).congr ?_, ?_⟩
    · rw [clean_mark opens, clean_append, shallow_arr, List.forall_mem_cons, List.length_cons]
      tauto
    · rw [List.foldl_cons, step_openList wants opens, List.foldl_append, built, List.reverse_cons]
      exact rest
  | obj [], ls, phase, frames, shown, wants => by
    obtain ⟨l, _, rfl, opens, shown⟩ := shown.mark rfl
    obtain ⟨m, _, rfl, closes, shown⟩ := shown.mark rfl
    cases shown.nil
    refine ⟨_, m.settled,
      (readsAs_close_map membersReadAs_nil l frames l.first m.last).congr ?_, ?_⟩
    · rw [clean_mark opens, clean_mark closes, shallow_obj]
      simp [Clean]
    · rw [List.foldl_cons, List.foldl_cons, List.foldl_nil, step_openMap wants opens]
      simp only [step, closes, Token.kind, shut]
      rfl
  | obj ((name, j) :: ms), ls, phase, frames, shown, wants => by
    rw [tokens, memberTokens, intercalate_cons, List.append_assoc] at shown
    obtain ⟨l, _, rfl, opens, shown⟩ := shown.mark rfl
    obtain ⟨key, afterKey, named, _, rfl, shown, told, noted⟩ := exists_key shown (.inl rfl) l.first
      (guard? l frames) [] frames
    obtain ⟨head, more, rfl, value, others⟩ := shown.append
    obtain ⟨n, reached, first, built⟩ := exists_readsAs j
      (.map l.first (guard? l frames) [] (some key) (some afterKey) :: frames) value (.inl rfl)
    obtain ⟨es, last, reached', all, rest⟩ := exists_membersReadAs ms l.first (guard? l frames)
      [.mk key n (some afterKey) (some reached)] frames others
    have members := MembersReadAs.cons (p := some afterKey) (q := some reached) told first all
    refine ⟨_, reached', (readsAs_close_map members l frames l.first last).congr ?_, ?_⟩
    · rw [clean_mark opens, clean_append, clean_append, shallow_obj, List.forall_mem_cons,
        List.length_cons]
      tauto
    · rw [List.foldl_cons, step_openMap wants opens, noted, List.foldl_append, built,
        List.reverse_cons]
      exact rest

/-- The items of a list after the first, and its end. -/
theorem exists_itemsReadAs : ∀ (js : List Json) {ls : List Lexeme} (first : Place)
    (guard : Option Fault) (items : List Node) (frames : List Frame),
    Shows ((itemTokens js).flatMap (Token.comma :: ·) ++ [.closeList]) ls →
    ∃ ns last reached,
      ItemsReadAs (Clean ls ∧ ∀ j ∈ js, Shallow (frames.length + 1) j) js ns ∧
      ls.foldl step (.going (.list first guard items :: frames) .afterItem)
        = complete? ((Frame.list first guard (ns.reverse ++ items)).close (.closed last)) reached
            frames
  | [], ls, first, guard, items, frames, shown => by
    obtain ⟨l, _, rfl, closes, shown⟩ := shown.mark rfl
    cases shown.nil
    refine ⟨[], l.last, l.settled, ?_, ?_⟩
    · intro vs
      rw [itemsReadAs_nil, clean_mark closes]
      simp [Clean]
    · simp only [List.foldl_cons, List.foldl_nil, step, closes, Token.kind, shut]
      rfl
  | j :: js, ls, first, guard, items, frames, shown => by
    rw [itemTokens, List.flatMap_cons, List.append_assoc] at shown
    obtain ⟨l, _, rfl, comma, shown⟩ := shown.mark rfl
    obtain ⟨head, more, rfl, value, others⟩ := shown.append
    obtain ⟨n, reached, readsAs, built⟩ :=
      exists_readsAs j (.list first guard items :: frames) value
        (show Phase.laterItem.WantsValue from .inr (.inr rfl))
    -- the frame holds the items read so far, in reverse
    obtain ⟨ns, last, reached', all, rest⟩ :=
      exists_itemsReadAs js first guard (n :: items) frames others
    refine ⟨n :: ns, last, reached', ?_, ?_⟩
    · intro vs
      rw [ItemsReadAs.cons readsAs all, clean_mark comma, clean_append, List.forall_mem_cons,
        List.length_cons]
      tauto
    · have step₁ : step (.going (.list first guard items :: frames) .afterItem) l
          = .going (.list first guard items :: frames) .laterItem := by
        simp only [step, comma, Token.kind]
      rw [List.foldl_cons, step₁, List.foldl_append, built, List.reverse_cons, List.append_assoc]
      exact rest

/-- The members of an object after the first, and its end. -/
theorem exists_membersReadAs : ∀ (ms : List (String × Json)) {ls : List Lexeme} (first : Place)
    (guard : Option Fault) (entries : List Entry) (frames : List Frame),
    Shows ((memberTokens ms).flatMap (Token.comma :: ·) ++ [.closeMap]) ls →
    ∃ es last reached,
      MembersReadAs (Clean ls ∧ ∀ m ∈ ms, Shallow (frames.length + 1) m.2) ms es ∧
      ls.foldl step (.going (.map first guard entries none none :: frames) .afterMember)
        = complete? ((Frame.map first guard (es.reverse ++ entries) none none).close
            (.closed last)) reached frames
  | [], ls, first, guard, entries, frames, shown => by
    obtain ⟨l, _, rfl, closes, shown⟩ := shown.mark rfl
    cases shown.nil
    refine ⟨[], l.last, l.settled, ?_, ?_⟩
    · intro vs
      rw [membersReadAs_nil, clean_mark closes]
      simp [Clean]
    · simp only [List.foldl_cons, List.foldl_nil, step, closes, Token.kind, shut]
      rfl
  | (name, j) :: ms, ls, first, guard, entries, frames, shown => by
    rw [memberTokens, List.flatMap_cons, List.append_assoc] at shown
    obtain ⟨l, _, rfl, comma, shown⟩ := shown.mark rfl
    obtain ⟨key, afterKey, named, _, rfl, shown, told, noted⟩ := exists_key shown (.inr rfl) first
      guard entries frames
    obtain ⟨head, more, rfl, value, others⟩ := shown.append
    obtain ⟨n, reached, readsAs, built⟩ := exists_readsAs j
      (.map first guard entries (some key) (some afterKey) :: frames) value (.inl rfl)
    obtain ⟨es, last, reached', all, rest⟩ := exists_membersReadAs ms first guard
      (.mk key n (some afterKey) (some reached) :: entries) frames others
    refine ⟨.mk key n (some afterKey) (some reached) :: es, last, reached', ?_, ?_⟩
    · intro vs
      rw [MembersReadAs.cons told readsAs all, clean_mark comma, clean_append, clean_append,
        List.forall_mem_cons, List.length_cons]
      tauto
    · have step₁ : step (.going (.map first guard entries none none :: frames) .afterMember) l
          = .going (.map first guard entries none none :: frames) .laterKey := by
        simp only [step, comma, Token.kind]
      rw [List.foldl_cons, step₁, noted, List.foldl_append, built, List.reverse_cons,
        List.append_assoc]
      exact rest

end

end NodeProvisioner.Json
