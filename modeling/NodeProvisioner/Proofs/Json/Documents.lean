import NodeProvisioner.Json.Reader

/-!
# Documents of JSON texts

In a JSON text a scalar is what it is; how it is spelled does not count. So no scalar of the
document of a JSON text carries a spelling, wherever the text breaks off.

Main statement: `isUnspelled_document`. The proof follows the building of the document: whatever a
lexeme lets it put together is made of parts without spellings.
-/

namespace NodeProvisioner

/-- No scalar of the document carries a spelling. -/
inductive Node.IsUnspelled : Node → Prop
  | scalar (value : Scalar) (extent : Option Extent) : IsUnspelled (.scalar value none extent)
  | list {items : List Node} (language : Language) (first : Option Place) (ending : Ending)
      (each : ∀ item ∈ items, IsUnspelled item) : IsUnspelled (.list items language first ending)
  | map {entries : List Entry} (language : Language) (first : Option Place) (ending : Ending)
      (keys : ∀ entry ∈ entries, IsUnspelled entry.key)
      (values : ∀ entry ∈ entries, IsUnspelled entry.value) :
      IsUnspelled (.map entries language first ending)
  | guarded (fault : Fault) {inner : Node} (h : IsUnspelled inner) :
      IsUnspelled (.guarded fault inner)
  | broken (first : Place) (wanted skipped : Fault) : IsUnspelled (.broken first wanted skipped)

namespace Json

/-! ## What is open -/

/-- The parts that the frame holds carry no spellings. -/
inductive Frame.IsUnspelled : Frame → Prop
  | list (first : Place) (guard : Option Fault) {items : List Node}
      (each : ∀ item ∈ items, item.IsUnspelled) : IsUnspelled (.list first guard items)
  | map (first : Place) (guard : Option Fault) {entries : List Entry} {key : Option Node}
      (afterKey : Option Place) (keys : ∀ entry ∈ entries, entry.key.IsUnspelled)
      (values : ∀ entry ∈ entries, entry.value.IsUnspelled)
      (pending : ∀ node ∈ key, node.IsUnspelled) :
      IsUnspelled (.map first guard entries key afterKey)

namespace Frame.IsUnspelled

variable {frame : Frame}

theorem close (h : frame.IsUnspelled) (ending : Ending) : (frame.close ending).IsUnspelled := by
  cases h with
  | @list first guard items each =>
    have node : (Node.list items.reverse .json (some first) ending).IsUnspelled :=
      .list _ _ _ fun item mem => each item (List.mem_reverse.mp mem)
    cases guard with
    | none => exact node
    | some fault => exact .guarded fault node
  | @map first guard entries key afterKey keys values pending =>
    have node : (Node.map entries.reverse .json (some first) ending).IsUnspelled :=
      .map _ _ _ (fun entry mem => keys entry (List.mem_reverse.mp mem))
        fun entry mem => values entry (List.mem_reverse.mp mem)
    cases guard with
    | none => exact node
    | some fault => exact .guarded fault node

theorem put (h : frame.IsUnspelled) {node : Node} (part : node.IsUnspelled) (reached : Place) :
    (frame.put node reached).IsUnspelled := by
  cases h with
  | list first guard each => exact .list first guard (List.forall_mem_cons.mpr ⟨part, each⟩)
  | @map first guard entries key afterKey keys values pending =>
    cases key with
    | none => exact .map first guard afterKey keys values pending
    | some key =>
      exact .map first guard none (List.forall_mem_cons.mpr ⟨pending key rfl, keys⟩)
        (List.forall_mem_cons.mpr ⟨part, values⟩) nofun

end Frame.IsUnspelled

/-! ## What is built -/

namespace Building

/-- The parts of the building carry no spellings. -/
def IsUnspelled : Building → Prop
  | going frames _ => ∀ frame ∈ frames, frame.IsUnspelled
  | complete root => root.IsUnspelled
  | settled root _ => root.IsUnspelled

variable {frames : List Frame}

theorem isUnspelled_breakOff (h : ∀ frame ∈ frames, frame.IsUnspelled)
    (wanted finished skipped : Fault) : (breakOff wanted finished skipped frames).IsUnspelled := by
  -- each frame is closed over the broken part before it
  have closed (ending : Ending) : ∀ (outer : List Frame) {node : Node},
      (∀ frame ∈ outer, frame.IsUnspelled) → node.IsUnspelled →
      (outer.foldl (fun node frame => (frame.put node .start).close ending) node).IsUnspelled := by
    intro outer
    induction outer with
    | nil => exact fun _ part => part
    | cons frame outer ih =>
      intro node each part
      obtain ⟨own, others⟩ := List.forall_mem_cons.mp each
      exact ih others ((own.put part .start).close ending)
  cases frames with
  | nil => exact .broken _ _ _
  | cons frame outer =>
    obtain ⟨own, others⟩ := List.forall_mem_cons.mp h
    exact closed _ outer others (own.close _)

theorem isUnspelled_failValue (h : ∀ frame ∈ frames, frame.IsUnspelled) (first : Place)
    (wanted skipped : Fault) : (failValue first wanted skipped frames).IsUnspelled := by
  cases frames with
  | nil => exact .broken _ _ _
  | cons frame outer =>
    obtain ⟨own, others⟩ := List.forall_mem_cons.mp h
    exact isUnspelled_breakOff
      (List.forall_mem_cons.mpr ⟨own.put (.broken first wanted skipped) first, others⟩) _ _ _

theorem isUnspelled_complete? (h : ∀ frame ∈ frames, frame.IsUnspelled) {node : Node}
    (part : node.IsUnspelled) (reached : Place) :
    (complete? node reached frames).IsUnspelled := by
  cases frames with
  | nil => exact part
  | cons frame outer =>
    obtain ⟨own, others⟩ := List.forall_mem_cons.mp h
    exact List.forall_mem_cons.mpr ⟨own.put part reached, others⟩

theorem isUnspelled_shut (h : ∀ frame ∈ frames, frame.IsUnspelled) (l : Lexeme) :
    (shut l frames).IsUnspelled := by
  cases frames with
  | nil => exact .broken _ _ _
  | cons frame outer =>
    obtain ⟨own, others⟩ := List.forall_mem_cons.mp h
    exact isUnspelled_complete? others (own.close _) _

theorem isUnspelled_leaf (l : Lexeme) (value : Scalar) (objection : Option Fault) :
    (leaf l value objection).IsUnspelled := by
  cases objection with
  | none => exact .scalar value _
  | some fault => exact .guarded fault (.scalar value _)

theorem isUnspelled_startValue (h : ∀ frame ∈ frames, frame.IsUnspelled) (l : Lexeme) :
    (startValue l frames).IsUnspelled := by
  rw [startValue]
  split
  · exact List.forall_mem_cons.mpr ⟨.list _ _ (List.forall_mem_nil _), h⟩
  · exact List.forall_mem_cons.mpr
      ⟨.map _ _ _ (List.forall_mem_nil _) (List.forall_mem_nil _) nofun, h⟩
  · exact isUnspelled_complete? h (isUnspelled_leaf l _ _) _
  all_goals exact isUnspelled_failValue h _ _ _

theorem isUnspelled_noteKey (h : ∀ frame ∈ frames, frame.IsUnspelled) (l : Lexeme) {key : Node}
    (part : key.IsUnspelled) : ∀ frame ∈ noteKey l key frames, frame.IsUnspelled := by
  rw [noteKey.eq_def]
  split
  · obtain ⟨own, others⟩ := List.forall_mem_cons.mp h
    cases own with
    | map _ _ _ keys values =>
      exact List.forall_mem_cons.mpr
        ⟨.map _ _ _ keys values fun node eq => Option.some.inj eq ▸ part, others⟩
  · exact h

theorem isUnspelled_startKey (h : ∀ frame ∈ frames, frame.IsUnspelled) (l : Lexeme)
    {otherwise : Building} (other : otherwise.IsUnspelled) :
    (startKey l frames otherwise).IsUnspelled := by
  rw [startKey]
  split
  · exact isUnspelled_noteKey h l (isUnspelled_leaf l _ _)
  · exact isUnspelled_breakOff h _ _ _
  · exact other

/-- **A lexeme adds no spellings.** -/
theorem isUnspelled_step {b : Building} (h : b.IsUnspelled) (l : Lexeme) :
    (b.step l).IsUnspelled := by
  cases b with
  | settled => exact h
  | complete =>
    rw [step]
    split <;> exact h
  | going frames phase =>
    have shut := isUnspelled_shut h l
    have value := isUnspelled_startValue h l
    have key := isUnspelled_startKey h l (isUnspelled_breakOff h _ _ _ :
      (fail .keyNotText l frames).IsUnspelled)
    have fail (rule : Breach) : (fail rule l frames).IsUnspelled := isUnspelled_breakOff h _ _ _
    have breakOff (wanted finished skipped : Fault) :
        (breakOff wanted finished skipped frames).IsUnspelled := isUnspelled_breakOff h _ _ _
    have failValue (fault : Fault) : (failValue l.first fault fault frames).IsUnspelled :=
      isUnspelled_failValue h _ _ _
    have next (phase : Phase) : (going frames phase).IsUnspelled := h
    rw [step.eq_def]
    simp only
    split
    all_goals
      first
      | exact shut
      | exact value
      | exact key
      | exact next _
      | exact fail _
      | exact breakOff _ _ _
      | exact failValue _

theorem IsUnspelled.result {b : Building} (h : b.IsUnspelled) : b.result.1.IsUnspelled := by
  cases b with
  | going => exact .broken _ _ _
  | complete => exact h
  | settled => exact h

end Building

/-- **The document of a text carries no spellings.** -/
theorem isUnspelled_document (s : String) : (document s).1.IsUnspelled := by
  have built : ∀ (ls : List Lexeme) {b : Building}, b.IsUnspelled →
      (ls.foldl Building.step b).IsUnspelled := by
    intro ls
    induction ls with
    | nil => exact fun h => h
    | cons l ls ih => exact fun h => ih (Building.isUnspelled_step h l)
  exact (built (lexemes s) (b := .going [] .value) (List.forall_mem_nil _)).result

end Json

end NodeProvisioner
