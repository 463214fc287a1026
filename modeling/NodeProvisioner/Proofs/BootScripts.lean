import Mathlib.Data.List.Basic
import NodeProvisioner.Bootstrap.Script
import NodeProvisioner.Proofs.Codec.Records
import NodeProvisioner.Proofs.Json.Arrangement
import NodeProvisioner.Proofs.Text.Entries

/-!
# Boot scripts tell their values

A boot script is a row of lines, some of which give a value to a variable. A value stands in its
line as it is, so what else is read from the script depends on what is in the values: a line break
in one of them makes two lines of one. If there is none, each line of the script is the one that was
meant, and each variable is read with its value, be it one that looks like an assignment itself.

Main statement: `Script.render_carries`.
-/

namespace NodeProvisioner

open Text (IsOneLine ofLines assignment? entries)

namespace ScriptLine

variable {p q : BootParams}

/-- The value that the line shows, if it is an assignment. -/
def value? (p : BootParams) : ScriptLine → Option String
  | fixed _ => none
  | assign _ value => value p

/-- The variable that the line gives a value to. -/
def key? : ScriptLine → Option String
  | fixed text => (assignment? "=" text).map (·.1)
  | assign name _ => some name

/-- Lines that are read back: what they begin with is in one line, and a variable has no equals sign
in its name. -/
def IsReadable : ScriptLine → Prop
  | fixed text => IsOneLine text
  | assign name _ => IsOneLine name ∧ '=' ∉ name.toList

instance : DecidablePred IsReadable
  | fixed _ => inferInstanceAs (Decidable (IsOneLine _))
  | assign .. => inferInstanceAs (Decidable (_ ∧ _))

/-- What a line with its value says of its variable. -/
def entryOf (p : BootParams) : ScriptLine → Option (String × String)
  | fixed text => assignment? "=" text
  | assign name value => (value p).map (name, ·)

theorem isOneLine_of_render {line : ScriptLine} (readable : line.IsReadable)
    (whole : ∀ v, line.value? p = some v → IsOneLine v) {text : String}
    (shown : line.render p = some text) : IsOneLine text := by
  cases line with
  | fixed own =>
    obtain rfl := Option.some.inj shown
    exact readable
  | assign name value =>
    obtain ⟨v, given, rfl⟩ := Option.map_eq_some_iff.mp shown
    exact (readable.1.append (by decide)).append (whole v given)

/-- A line is read as it was meant. -/
theorem bind_assignment?_render {line : ScriptLine} (readable : line.IsReadable) :
    (line.render p).bind (assignment? "=") = line.entryOf p := by
  cases line with
  | fixed text => rfl
  | assign name value =>
    rw [render, entryOf]
    cases value p with
    | none => rfl
    | some v => exact Text.assignment?_append rfl readable.2 v

/-- Lines that look the same show the same value. -/
theorem value?_eq_of_render {line : ScriptLine} (same : line.render p = line.render q) :
    line.value? p = line.value? q := by
  cases line with
  | fixed text => rfl
  | assign name value => exact Option.map_injective (fun _ _ => (String.append_right_inj _).mp) same

end ScriptLine

namespace Script

variable {s : Script} {p q : BootParams} {text : String}

/-! ## Lines -/

/-- A script is rendered if all of its lines have their values. -/
theorem renderLines_eq_ok_iff : ∀ {l : List ScriptLine} {number : Nat} {text : String},
    s.renderLines p number l = .ok text ↔
      ∃ shown, l.map (·.render p) = shown.map some ∧ text = ofLines shown
  | [], number, text => by
    constructor
    · rintro ⟨⟩
      exact ⟨[], rfl, rfl⟩
    · rintro ⟨shown, eq, rfl⟩
      obtain rfl := List.map_eq_nil_iff.mp eq.symm
      rfl
  | line :: rest, number, text => by
    unfold renderLines
    cases own : line.render p with
    | none =>
      constructor
      · rintro ⟨⟩
      · rintro ⟨shown, eq, -⟩
        rw [List.map_cons, own] at eq
        cases shown <;> simp at eq
    | some first =>
      constructor
      · intro rendered
        obtain ⟨more, following, eq⟩ := bind_eq_ok_iff.mp rendered
        obtain rfl := Except.ok.inj eq
        obtain ⟨shown, others, rfl⟩ := renderLines_eq_ok_iff.mp following
        exact ⟨first :: shown, by rw [List.map_cons, own, others, List.map_cons],
          (Text.ofLines_cons first shown).symm⟩
      · rintro ⟨shown, eq, rfl⟩
        rw [List.map_cons, own] at eq
        cases shown with
        | nil => cases eq
        | cons top shown =>
          obtain ⟨same, others⟩ := List.cons.inj eq
          obtain rfl := Option.some.inj same
          exact bind_eq_ok_iff.mpr ⟨_, renderLines_eq_ok_iff.mpr ⟨shown, others, rfl⟩,
            congrArg Except.ok (Text.ofLines_cons first shown).symm⟩

/-- The texts of the lines of a script, all of which have their values. -/
def Shows (s : Script) (p : BootParams) (shown : List String) : Prop :=
  s.lines.map (·.render p) = shown.map some

theorem render_eq_ok_iff :
    s.render p = .ok text ↔ ∃ shown, s.Shows p shown ∧ text = ofLines shown :=
  renderLines_eq_ok_iff

namespace Shows

variable {shown : List String}

theorem eq_filterMap (h : s.Shows p shown) : shown = s.lines.filterMap (·.render p) := by
  have same := congrArg (List.filterMap id) h
  simpa [List.filterMap_map, Function.comp_def] using same.symm

theorem exists_of_mem (h : s.Shows p shown) {text : String} (mem : text ∈ shown) :
    ∃ line ∈ s.lines, line.render p = some text := by
  rw [h.eq_filterMap] at mem
  exact List.mem_filterMap.mp mem

theorem isSome_of_mem (h : s.Shows p shown) {line : ScriptLine} (mem : line ∈ s.lines) :
    ∃ text, line.render p = some text := by
  have own : line.render p ∈ shown.map some := h ▸ List.mem_map_of_mem mem
  obtain ⟨text, -, eq⟩ := List.mem_map.mp own
  exact ⟨text, eq.symm⟩

end Shows

/-! ## Reading -/

/-- None of the values that the script shows has a line break in it. -/
def FitsLines (s : Script) (p : BootParams) : Prop :=
  ∀ line ∈ s.lines, ∀ v, line.value? p = some v → IsOneLine v

/-- A script whose lines are read back, and none of whose variables is given a value twice. -/
structure IsReadable (s : Script) : Prop where
  each : ∀ line ∈ s.lines, line.IsReadable
  once : (s.lines.filterMap ScriptLine.key?).Nodup

theorem isReadable_ofRole (role : Role) : (ofRole role).IsReadable := by
  cases role with
  | master => exact ⟨by simp [ofRole, master, always, ScriptLine.IsReadable]; decide, by decide⟩
  | node => exact ⟨by simp [ofRole, node, always, ScriptLine.IsReadable]; decide, by decide⟩

section
variable {shown : List String} (readable : s.IsReadable) (fits : s.FitsLines p)
  (shows : s.Shows p shown)
include readable fits shows

/-- A script has the lines that it was rendered from. -/
theorem lines_of_shows : Text.lines (ofLines shown) = shown ++ [""] := by
  refine Text.lines_ofLines fun text mem => ?_
  obtain ⟨line, own, eq⟩ := shows.exists_of_mem mem
  exact ScriptLine.isOneLine_of_render (readable.each line own) (fits line own) eq

theorem entries_of_shows : entries "=" (ofLines shown) = s.lines.filterMap (·.entryOf p) := by
  have last : [""].filterMap (assignment? "=") = [] := by decide
  rw [entries, lines_of_shows readable fits shows, List.filterMap_append, last, List.append_nil,
    shows.eq_filterMap, List.filterMap_filterMap]
  exact List.filterMap_congr fun line mem =>
    ScriptLine.bind_assignment?_render (readable.each line mem)

/-- Each variable is given a value once. -/
theorem nodup_of_shows : ((entries "=" (ofLines shown)).map (·.1)).Nodup := by
  rw [entries_of_shows readable fits shows, List.map_filterMap]
  have keys : s.lines.filterMap (fun line => (line.entryOf p).map (·.1))
      = s.lines.filterMap ScriptLine.key? := by
    refine List.filterMap_congr fun line mem => ?_
    obtain ⟨text, eq⟩ := shows.isSome_of_mem mem
    cases line with
    | fixed own => rfl
    | assign name value =>
      obtain ⟨v, given, -⟩ := Option.map_eq_some_iff.mp eq
      simp only [ScriptLine.entryOf, ScriptLine.key?, given, Option.map_some]
  exact keys ▸ readable.once

/-- **A variable is read with its value.** -/
theorem lookup_of_shows {name : String} {value : BootParams → Option String}
    (mem : .assign name value ∈ s.lines) :
    (entries "=" (ofLines shown)).lookup name = value p := by
  obtain ⟨text, eq⟩ := shows.isSome_of_mem mem
  obtain ⟨v, given, -⟩ := Option.map_eq_some_iff.mp eq
  rw [given, StringMap.lookup_eq_some_iff (nodup_of_shows readable fits shows),
    entries_of_shows readable fits shows]
  exact List.mem_filterMap.mpr ⟨_, mem, congrArg (Option.map (name, ·)) given⟩

/-- Scripts with the same text have the same lines. -/
theorem render_line_of_ofLines_eq {shown' : List String} (fits' : s.FitsLines q)
    (shows' : s.Shows q shown') (same : ofLines shown = ofLines shown') :
    ∀ line ∈ s.lines, line.render p = line.render q := by
  have split := lines_of_shows readable fits shows
  rw [same, lines_of_shows readable fits' shows'] at split
  obtain rfl := List.append_cancel_right split
  exact List.map_inj_left.mp (shows.trans shows'.symm)

end

end Script

/-! ## The values of a role -/

namespace BootParams

/-- The values that the script of a role shows; there are no others. -/
def usedBy (p : BootParams) : Role → BootParams
  | .master => { p with token := none, project := "", masterEndpoint := none }
  | .node => { p with project := "", controlPlaneVersion := none }

/-- The values that the script of a role cannot do without are there. -/
def Suffice (p : BootParams) : Role → Prop
  | .master => p.controlPlaneVersion.isSome = true
  | .node => p.token.isSome = true ∧ p.masterEndpoint.isSome = true

/-- The number of the first line of the script of a role that has no value. -/
def missingLine? (p : BootParams) : Role → Option Nat
  | .master => if p.controlPlaneVersion.isNone then some 7 else none
  | .node =>
    if p.token.isNone then some 3 else if p.masterEndpoint.isNone then some 4 else none

end BootParams

namespace Script

variable {p q : BootParams} {role : Role}

/-- The script of a role depends on no other values. -/
theorem render_usedBy : (ofRole role).render (p.usedBy role) = (ofRole role).render p := by
  cases role <;> rfl

theorem usedBy_eq (same : ∀ line ∈ (ofRole role).lines, line.render p = line.render q) :
    p.usedBy role = q.usedBy role := by
  have values : ∀ line ∈ (ofRole role).lines, line.value? p = line.value? q := fun line mem =>
    ScriptLine.value?_eq_of_render (same line mem)
  cases role with
  | master =>
    simp [ofRole, master, always, ScriptLine.value?] at values
    simp [BootParams.usedBy, values]
  | node =>
    simp [ofRole, node, always, ScriptLine.value?] at values
    simp [BootParams.usedBy, values]

/-- **When a script is rendered**: when the values are there that it cannot do without. Else the
first line without one is named. -/
theorem render_ofRole (p : BootParams) (role : Role) :
    (p.Suffice role ∧ ∃ text, (ofRole role).render p = .ok text) ∨
      ¬ p.Suffice role ∧ ∃ line, p.missingLine? role = some line ∧
        (ofRole role).render p
          = .error (.templateRender (.undefined (ofRole role).name p.machine line)) := by
  obtain ⟨token, project, kubelet, version, space, machine, domain, pods, services, endpoint⟩ := p
  cases role with
  | master =>
    cases version with
    | none => exact .inr ⟨nofun, 7, rfl, rfl⟩
    | some version => exact .inl ⟨rfl, _, rfl⟩
  | node =>
    cases token with
    | none => exact .inr ⟨nofun, 3, rfl, rfl⟩
    | some token =>
      cases endpoint with
      | none => exact .inr ⟨nofun, 4, rfl, rfl⟩
      | some endpoint => exact .inl ⟨⟨rfl, rfl⟩, _, rfl⟩

/-- An error of a script in words: the script comes first, then the machine. -/
theorem message_undefined (script machine : String) (line : Nat) :
    (BootstrapError.templateRender (.undefined script machine line)).message =
      "template render failed: " ++ script ++ " for machine " ++ machine ++
        s!": undefined value (in {script}:{line})" := by
  change "template render failed: " ++ (script ++ " for machine " ++ machine ++
    ": undefined value (in " ++ script ++ ":" ++ toString line ++ ")") =
    "template render failed: " ++ script ++ " for machine " ++ machine ++
      (": undefined value (in " ++ script ++ ":" ++ toString line ++ ")")
  simp only [String.append_assoc]

/-- **Scripts tell their values.** A script is rendered if and only if the values are there that it
cannot do without; else the error names the script, the machine and the first line without a value.
If none of its values has a line break in it, a script has the lines that were meant and no others,
each with a line break, and each of its variables is given a value once: its own. So scripts with
the same text have the same values, of those that they show; and they depend on no others. -/
theorem render_carries (role : Role) (p : BootParams) :
    ((∃ text, (ofRole role).render p = .ok text) ↔ p.Suffice role) ∧
    (∀ e, (ofRole role).render p = .error e → ∃ line, p.missingLine? role = some line ∧
      e = .templateRender (.undefined (ofRole role).name p.machine line) ∧
      e.message = "template render failed: " ++ (ofRole role).name ++ " for machine " ++ p.machine ++
        s!": undefined value (in {(ofRole role).name}:{line})") ∧
    (∀ text, (ofRole role).render p = .ok text → (ofRole role).FitsLines p →
      (∃ shown, (ofRole role).Shows p shown ∧ text = ofLines shown ∧
        Text.lines text = shown ++ [""]) ∧
      ((entries "=" text).map (·.1)).Nodup ∧
      (∀ name value, .assign name value ∈ (ofRole role).lines →
        (entries "=" text).lookup name = value p) ∧
      ∀ q, (ofRole role).render q = .ok text → (ofRole role).FitsLines q →
        p.usedBy role = q.usedBy role) ∧
    ∀ q, p.usedBy role = q.usedBy role → (ofRole role).render p = (ofRole role).render q := by
  have readable := isReadable_ofRole role
  refine ⟨?_, fun e failed => ?_, fun text rendered fits => ?_, fun q same => ?_⟩
  · obtain ⟨suffice, made⟩ | ⟨lacks, line, -, failed⟩ := render_ofRole p role
    · exact ⟨fun _ => suffice, fun _ => made⟩
    · refine ⟨fun ⟨text, made⟩ => ?_, fun suffice => absurd suffice lacks⟩
      cases made.symm.trans failed
  · obtain ⟨-, text, made⟩ | ⟨-, line, missing, failed'⟩ := render_ofRole p role
    · cases made.symm.trans failed
    · obtain rfl := Except.error.inj (failed'.symm.trans failed)
      exact ⟨line, missing, rfl, message_undefined _ _ _⟩
  · obtain ⟨shown, shows, rfl⟩ := render_eq_ok_iff.mp rendered
    refine ⟨⟨shown, shows, rfl, lines_of_shows readable fits shows⟩,
      nodup_of_shows readable fits shows, fun _ _ => lookup_of_shows readable fits shows,
      fun q rendered' fits' => ?_⟩
    obtain ⟨shown', shows', same⟩ := render_eq_ok_iff.mp rendered'
    exact usedBy_eq (render_line_of_ofLines_eq readable fits shows fits' shows' same)
  · rw [← render_usedBy, same, render_usedBy]

/-- Values that look like assignments, like variables and like the first line of a script. -/
def lookalikes (project : String) : BootParams where
  project
  kubeletVersion := "NAMESPACE=elsewhere"
  controlPlaneVersion := some "$\x7bKUBELET_VERSION\x7d"
  namespaceText := "\x7b\x7b machine \x7d\x7d"
  machine := "PORT = 80 "
  dnsDomain := ""
  podRange := "#!/bin/bash"
  serviceRange := "=="

theorem fitsLines_lookalikes (project : String) :
    (ofRole .master).FitsLines (lookalikes project) := by
  simp [FitsLines, ofRole, master, always, ScriptLine.value?, lookalikes]
  decide

/-- The look-alikes are told apart, whatever the project is; and they are not enough for a worker,
who has nothing to join with. -/
theorem render_carries_of_lookalikes : ∃ text,
    (ofRole .master).render (lookalikes "here") = .ok text ∧
    (ofRole .master).FitsLines (lookalikes "here") ∧
    (entries "=" text).lookup "KUBELET_VERSION" = some "NAMESPACE=elsewhere" ∧
    (entries "=" text).lookup "NAMESPACE" = some "\x7b\x7b machine \x7d\x7d" ∧
    (entries "=" text).lookup "POD_CIDR" = some "#!/bin/bash" ∧
    (ofRole .master).render (lookalikes "there") = .ok text ∧
    (lookalikes "here").usedBy .master = (lookalikes "there").usedBy .master ∧
    ∃ e, (ofRole .node).render (lookalikes "here") = .error e ∧
      ∃ line, (lookalikes "here").missingLine? .node = some line ∧
        e = .templateRender (.undefined (ofRole .node).name (lookalikes "here").machine line) := by
  obtain ⟨text, rendered⟩ := (render_carries .master (lookalikes "here")).1.mpr rfl
  obtain ⟨-, -, reads, depends⟩ := render_carries .master (lookalikes "here")
  obtain ⟨-, -, values, agree⟩ := reads text rendered (fitsLines_lookalikes _)
  have there := (depends (lookalikes "there") rfl).symm.trans rendered
  have failed : (ofRole .node).render (lookalikes "here")
      = .error (.templateRender (.undefined "node-startup.sh" "PORT = 80 " 3)) := rfl
  obtain ⟨line, missing, eq, -⟩ := (render_carries .node (lookalikes "here")).2.1 _ failed
  refine ⟨text, rendered, fitsLines_lookalikes _, values _ (fun p => some p.kubeletVersion) ?_,
    values _ (fun p => some p.namespaceText) ?_, values _ (fun p => some p.podRange) ?_,
    there, agree _ there (fitsLines_lookalikes _), _, failed, line, missing, eq⟩
  all_goals simp [ofRole, master, always]

end Script

end NodeProvisioner
