/-!
# Entries of texts

A text of lines is taken apart at its line breaks, and a line at the first separator in it: what
stands before is a key, what stands after is its value, whatever it is. So lines are read as they
were written if there is no line break in them, and entries if there is no separator in their keys.

Main statements: `Text.lines_ofLines`, `Text.assignment?_append`.
-/

namespace NodeProvisioner.Text

/-! ## Lines -/

/-- The text has no line break in it. -/
def IsOneLine (s : String) : Prop := '\n' ∉ s.toList

instance (s : String) : Decidable (IsOneLine s) := inferInstanceAs (Decidable (_ ∉ _))

theorem IsOneLine.append {s t : String} (hs : IsOneLine s) (ht : IsOneLine t) :
    IsOneLine (s ++ t) := by
  rw [IsOneLine, String.toList_append, List.mem_append, not_or]
  exact ⟨hs, ht⟩

/-- What stands before, between and after the line breaks of a text. -/
def lines (s : String) : List String := (s.toList.splitOn '\n').map String.ofList

/-- The text of lines, with a line break after each. -/
def ofLines (l : List String) : String := String.join (l.map (· ++ "\n"))

theorem ofLines_cons (line : String) (rest : List String) :
    ofLines (line :: rest) = line ++ "\n" ++ ofLines rest := String.join_cons

/-- **Lines are read as they were written**, with nothing after the last line break. -/
theorem lines_ofLines : ∀ {l : List String}, (∀ line ∈ l, IsOneLine line) →
    lines (ofLines l) = l ++ [""]
  | [], _ => rfl
  | line :: rest, each => by
    have chars : (ofLines (line :: rest)).toList
        = line.toList ++ '\n' :: (ofLines rest).toList := by
      rw [ofLines_cons, String.toList_append, String.toList_append, List.append_assoc]
      rfl
    have others := lines_ofLines fun line mem => each line (List.mem_cons_of_mem _ mem)
    rw [lines, chars, List.splitOn_append_cons_self_of_not_mem (each line List.mem_cons_self),
      List.map_cons, String.ofList_toList]
    exact congrArg (line :: ·) others

/-- What stands between separators has none in it. -/
theorem not_mem_of_mem_splitOn {c : Char} {cs part : List Char} (mem : part ∈ cs.splitOn c) :
    c ∉ part := by
  induction cs generalizing part with
  | nil =>
    rw [List.splitOn_nil, List.mem_singleton] at mem
    exact mem ▸ List.not_mem_nil
  | cons d rest ih =>
    rw [List.splitOn_cons_eq_if_modifyHead] at mem
    split at mem
    · obtain rfl | mem := List.mem_cons.mp mem
      · exact List.not_mem_nil
      · exact ih mem
    · next other =>
      cases parts : rest.splitOn c with
      | nil => exact absurd parts (List.splitOn_ne_nil _ _)
      | cons first others =>
        rw [parts, List.modifyHead_cons, List.mem_cons] at mem
        rw [parts] at ih
        obtain rfl | mem := mem
        · rw [List.mem_cons, not_or]
          exact ⟨fun same => other (beq_iff_eq.mpr same.symm), ih List.mem_cons_self⟩
        · exact ih (List.mem_cons_of_mem _ mem)

theorem isOneLine_of_mem_lines {s line : String} (mem : line ∈ lines s) : IsOneLine line := by
  obtain ⟨part, own, rfl⟩ := List.mem_map.mp mem
  rw [IsOneLine, String.toList_ofList]
  exact not_mem_of_mem_splitOn own

/-! ## Entries -/

/-- What stands before the first separator, and what stands after it. -/
def splitFirst? (separator : List Char) : List Char → Option (List Char × List Char)
  | [] => none
  | c :: rest =>
    if separator.isPrefixOf (c :: rest) then some ([], (c :: rest).drop separator.length)
    else (splitFirst? separator rest).map fun (key, value) => (c :: key, value)

/-- What a line says of a key: the key stands before the first separator, its value after. -/
def assignment? (separator line : String) : Option (String × String) :=
  (splitFirst? separator.toList line.toList).map fun (key, value) =>
    (String.ofList key, String.ofList value)

/-- What the lines of a text say of keys. -/
def entries (separator text : String) : List (String × String) :=
  (lines text).filterMap (assignment? separator)

theorem splitFirst?_append {w : Char} {ws key : List Char} (clear : w ∉ key)
    (value : List Char) :
    splitFirst? (w :: ws) (key ++ (w :: ws ++ value)) = some (key, value) := by
  induction key with
  | nil =>
    have here : (w :: ws).isPrefixOf (w :: ws ++ value) = true :=
      List.isPrefixOf_iff_prefix.mpr (List.prefix_append _ _)
    rw [List.nil_append, List.cons_append, splitFirst?, ← List.cons_append, if_pos here,
      List.drop_left]
  | cons c key ih =>
    rw [List.mem_cons, not_or] at clear
    obtain ⟨other, clear⟩ := clear
    have not_here : (w :: ws).isPrefixOf (c :: (key ++ (w :: ws ++ value))) = false := by
      simp [List.isPrefixOf, other]
    rw [List.cons_append, splitFirst?, if_neg (Bool.eq_false_iff.mp not_here), ih clear]
    rfl

/-- **An entry is read as it was written**, whatever its value is, if its key has nothing in it that
the separator begins with. -/
theorem assignment?_append {separator key : String} {w : Char} {ws : List Char}
    (begins : separator.toList = w :: ws) (clear : w ∉ key.toList) (value : String) :
    assignment? separator (key ++ separator ++ value) = some (key, value) := by
  rw [assignment?, String.toList_append, String.toList_append, List.append_assoc, begins,
    splitFirst?_append clear]
  exact congrArg some (Prod.ext String.ofList_toList String.ofList_toList)

theorem mem_of_splitFirst? {separator cs key value : List Char} {c : Char}
    (h : splitFirst? separator cs = some (key, value)) (mem : c ∈ value) : c ∈ cs := by
  induction cs generalizing key with
  | nil => cases h
  | cons d rest ih =>
    rw [splitFirst?] at h
    split at h
    · cases h
      exact List.mem_of_mem_drop mem
    · obtain ⟨⟨key, _⟩, later, ⟨⟩⟩ := Option.map_eq_some_iff.mp h
      exact List.mem_cons_of_mem _ (ih later)

/-- A value that is read from a line is in one line. -/
theorem isOneLine_of_mem_entries {separator text : String} {entry : String × String}
    (mem : entry ∈ entries separator text) : IsOneLine entry.2 := by
  obtain ⟨line, own, read⟩ := List.mem_filterMap.mp mem
  obtain ⟨⟨key, value⟩, split, rfl⟩ := Option.map_eq_some_iff.mp read
  rw [IsOneLine, String.toList_ofList]
  exact fun inside => isOneLine_of_mem_lines own (mem_of_splitFirst? split inside)

end NodeProvisioner.Text
