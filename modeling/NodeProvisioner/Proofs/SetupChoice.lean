import Mathlib.Data.List.Forall2
import NodeProvisioner.Bootstrap.Setup
import NodeProvisioner.Proofs.Codec.Records

/-!
# The choice of a setup

A setup serves the machines of a shape if one of its own shapes is alike: the same but for order
and repetition of roles. Of all setups exactly one has to serve; how many of its shapes do so does
not matter, but two setups that serve are two, even if they are equal.

Main statement: `Setups.resolve_chooses`. The choice is the same however the setups, their shapes
and the roles are arranged.
-/

namespace NodeProvisioner

/-! ## Shapes -/

namespace MachineShape

/-- The shapes are the same, with the roles taken as sets. -/
structure Alike (a b : MachineShape) : Prop where
  os : a.os = b.os
  roles : ∀ role, role ∈ a.roles ↔ role ∈ b.roles
  kubelet : a.versions.kubelet = b.versions.kubelet
  controlPlane : a.versions.controlPlane = b.versions.controlPlane

variable {a b c : MachineShape}

theorem Alike.symm (h : a.Alike b) : b.Alike a :=
  ⟨h.os.symm, fun role => (h.roles role).symm, h.kubelet.symm, h.controlPlane.symm⟩

theorem Alike.trans (h : a.Alike b) (g : b.Alike c) : a.Alike c :=
  ⟨h.os.trans g.os, fun role => (h.roles role).trans (g.roles role), h.kubelet.trans g.kubelet,
    h.controlPlane.trans g.controlPlane⟩

theorem agrees_iff : a.agrees b = true ↔ a.Alike b := by
  obtain ⟨os, roles, kubelet, controlPlane⟩ := a
  obtain ⟨os', roles', kubelet', controlPlane'⟩ := b
  simp only [agrees, Bool.and_eq_true, decide_eq_true_eq, List.all_eq_true, List.contains_iff_mem,
    Versions.mk.injEq]
  constructor
  · rintro ⟨⟨⟨os, forth⟩, back⟩, kubelet, controlPlane⟩
    exact ⟨os, fun role => ⟨forth role, back role⟩, kubelet, controlPlane⟩
  · rintro ⟨os, roles, kubelet, controlPlane⟩
    exact ⟨⟨⟨os, fun role => (roles role).mp⟩, fun role => (roles role).mpr⟩, kubelet, controlPlane⟩

end MachineShape

/-! ## Setups -/

namespace Setup

/-- The setup is for the machines of the shape. -/
def Serves (s : Setup) (shape : MachineShape) : Prop := ∃ own ∈ s.shapes, own.Alike shape

theorem fits_iff {s : Setup} {shape : MachineShape} : s.fits shape = true ↔ s.Serves shape := by
  simp only [fits, List.any_eq_true, MachineShape.agrees_iff, Serves]

/-- The setups are the same, but for order and repetition of their shapes, and of roles in each. -/
structure Alike (a b : Setup) : Prop where
  image : a.image = b.image
  items : a.items = b.items
  forth : ∀ own ∈ a.shapes, ∃ other ∈ b.shapes, own.Alike other
  back : ∀ other ∈ b.shapes, ∃ own ∈ a.shapes, own.Alike other

/-- Setups that are alike serve the machines of shapes that are alike. -/
theorem Alike.serves_iff {a b : Setup} (h : a.Alike b) {shape shape' : MachineShape}
    (same : shape.Alike shape') : a.Serves shape ↔ b.Serves shape' := by
  constructor
  · rintro ⟨own, mem, serves⟩
    obtain ⟨other, mem', alike⟩ := h.forth own mem
    exact ⟨other, mem', alike.symm.trans (serves.trans same)⟩
  · rintro ⟨other, mem', serves⟩
    obtain ⟨own, mem, alike⟩ := h.back other mem'
    exact ⟨own, mem, alike.trans (serves.trans same.symm)⟩

end Setup

/-! ## The choice -/

namespace Setups

/-- The setup is the only one that serves: at no other place there is one, not even the same. -/
def HasOnly (s : Setups) (shape : MachineShape) (setup : Setup) : Prop :=
  setup.Serves shape ∧ ∃ before after, s.all = before ++ setup :: after ∧
    ∀ other ∈ before ++ after, ¬ other.Serves shape

/-- No setup serves. -/
def HasNone (s : Setups) (shape : MachineShape) : Prop := ∀ setup ∈ s.all, ¬ setup.Serves shape

/-- At least two setups serve, which may be equal. -/
def HasMany (s : Setups) (shape : MachineShape) : Prop :=
  ∃ first second, [first, second].Sublist s.all ∧ first.Serves shape ∧ second.Serves shape

/-- The setups are the same but for their order, where each may be arranged differently. -/
def Alike (s t : Setups) : Prop :=
  ∃ arranged, s.all.Perm arranged ∧ List.Forall₂ Setup.Alike arranged t.all

variable {s : Setups} {shape : MachineShape}

theorem mem_fitting_iff {setup : Setup} :
    setup ∈ s.all.filter (·.fits shape) ↔ setup ∈ s.all ∧ setup.Serves shape := by
  rw [List.mem_filter, Setup.fits_iff]

theorem fitting_eq_nil_iff : s.all.filter (·.fits shape) = [] ↔ s.HasNone shape := by
  simp only [List.filter_eq_nil_iff, Setup.fits_iff, HasNone]

theorem fitting_eq_singleton_iff {setup : Setup} :
    s.all.filter (·.fits shape) = [setup] ↔ s.HasOnly shape setup := by
  have unfit (others : List Setup) :
      others.filter (·.fits shape) = [] ↔ ∀ other ∈ others, ¬ other.Serves shape := by
    simp only [List.filter_eq_nil_iff, Setup.fits_iff]
  constructor
  · intro one
    obtain ⟨before, after, all, none, serves, rest⟩ := List.filter_eq_cons_iff.mp one
    refine ⟨Setup.fits_iff.mp serves, before, after, all, fun other mem => ?_⟩
    obtain mem | mem := List.mem_append.mp mem
    · exact fun served => none other mem (Setup.fits_iff.mpr served)
    · exact (unfit after).mp rest other mem
  · rintro ⟨serves, before, after, all, none⟩
    obtain ⟨first, last⟩ := List.forall_mem_append.mp none
    have here : [setup].filter (·.fits shape) = [setup] := by
      simp [Setup.fits_iff.mpr serves]
    rw [all, List.filter_append, (unfit before).mpr first, ← List.singleton_append,
      List.filter_append, here, (unfit after).mpr last]
    rfl

theorem two_fitting_iff :
    (∃ first second rest, s.all.filter (·.fits shape) = first :: second :: rest) ↔
      s.HasMany shape := by
  constructor
  · rintro ⟨first, second, rest, two⟩
    have sub : [first, second].Sublist (s.all.filter (·.fits shape)) :=
      two ▸ ((List.nil_sublist rest).cons_cons second).cons_cons first
    exact ⟨first, second, sub.trans List.filter_sublist,
      (mem_fitting_iff.mp (sub.subset List.mem_cons_self)).2,
      (mem_fitting_iff.mp (sub.subset (List.mem_cons_of_mem _ List.mem_cons_self))).2⟩
  · rintro ⟨first, second, sub, serves, serves'⟩
    have both : [first, second].filter (·.fits shape) = [first, second] := by
      simp [Setup.fits_iff.mpr serves, Setup.fits_iff.mpr serves']
    have fitting := (sub.filter (·.fits shape)).length_le
    rw [both] at fitting
    generalize s.all.filter (·.fits shape) = fits at fitting
    match fits with
    | a :: b :: rest => exact ⟨a, b, rest, rfl⟩

/-- **One setup serves, or none, or several**, and that decides the choice. -/
theorem resolve_cases (s : Setups) (shape : MachineShape) :
    (∃ setup, s.HasOnly shape setup ∧ s.resolve shape = .ok setup) ∨
    (s.HasNone shape ∧ s.resolve shape = .error (.machineSetup (.noMatch shape.describe))) ∨
    (s.HasMany shape ∧
      s.resolve shape = .error (.machineSetup (.manyMatches shape.describe))) := by
  match fitting : s.all.filter (·.fits shape) with
  | [] => exact .inr (.inl ⟨fitting_eq_nil_iff.mp fitting, by rw [resolve, fitting]⟩)
  | [setup] =>
    exact .inl ⟨setup, fitting_eq_singleton_iff.mp fitting, by rw [resolve, fitting]⟩
  | first :: second :: rest =>
    refine .inr (.inr ⟨two_fitting_iff.mp ⟨first, second, rest, fitting⟩, ?_⟩)
    rw [resolve, fitting]

theorem HasOnly.resolve {setup : Setup} (h : s.HasOnly shape setup) :
    s.resolve shape = .ok setup := by
  rw [Setups.resolve, fitting_eq_singleton_iff.mpr h]

theorem HasNone.resolve (h : s.HasNone shape) :
    s.resolve shape = .error (.machineSetup (.noMatch shape.describe)) := by
  rw [Setups.resolve, fitting_eq_nil_iff.mpr h]

theorem HasMany.resolve (h : s.HasMany shape) :
    s.resolve shape = .error (.machineSetup (.manyMatches shape.describe)) := by
  obtain ⟨first, second, rest, fitting⟩ := two_fitting_iff.mpr h
  rw [Setups.resolve, fitting]

theorem resolve_eq_ok_iff {setup : Setup} :
    s.resolve shape = .ok setup ↔ s.HasOnly shape setup := by
  refine ⟨fun chosen => ?_, HasOnly.resolve⟩
  obtain ⟨only, h, eq⟩ | ⟨-, eq⟩ | ⟨-, eq⟩ := s.resolve_cases shape <;> rw [eq] at chosen <;>
    cases chosen
  exact h

/-- The choice fails with a message that gives this reason. -/
def FailsAs (s : Setups) (shape : MachineShape) (reason : String) : Prop :=
  ∃ e, s.resolve shape = .error e ∧
    e.message = s!"machine setup config: {reason} for params {shape.describe}"

theorem not_failsAs_of_ok {setup : Setup} (chosen : s.resolve shape = .ok setup) (reason : String) :
    ¬ s.FailsAs shape reason := by
  rintro ⟨e, failed, -⟩
  cases chosen.symm.trans failed

/-- A failure gives one reason. -/
theorem failsAs_of_error {e : BootstrapError} (own : String) {reason : String}
    (failed : s.resolve shape = .error e)
    (words : e.message = s!"machine setup config: {own} for params {shape.describe}") :
    s.FailsAs shape reason ↔ own = reason := by
  constructor
  · rintro ⟨e', failed', words'⟩
    obtain rfl := Except.error.inj (failed.symm.trans failed')
    simpa [toString] using words.symm.trans words'
  · rintro rfl
    exact ⟨e, failed, words⟩

/-- The reason if no setup serves. -/
def noMatchReason : String := "could not find a matching machine setup config"

/-- The reason if several setups serve. -/
def manyMatchesReason : String := "found multiple matching machine setup configs"

theorem failsAs_noMatch_iff : s.FailsAs shape noMatchReason ↔ s.HasNone shape := by
  constructor
  · intro fails
    obtain ⟨setup, -, eq⟩ | ⟨none, -⟩ | ⟨-, eq⟩ := s.resolve_cases shape
    · exact absurd fails (not_failsAs_of_ok eq _)
    · exact none
    · exact absurd ((failsAs_of_error manyMatchesReason eq rfl).mp fails) (by decide)
  · exact fun none => (failsAs_of_error noMatchReason none.resolve rfl).mpr rfl

theorem failsAs_manyMatches_iff : s.FailsAs shape manyMatchesReason ↔ s.HasMany shape := by
  constructor
  · intro fails
    obtain ⟨setup, -, eq⟩ | ⟨-, eq⟩ | ⟨many, -⟩ := s.resolve_cases shape
    · exact absurd fails (not_failsAs_of_ok eq _)
    · exact absurd ((failsAs_of_error noMatchReason eq rfl).mp fails) (by decide)
    · exact many
  · exact fun many => (failsAs_of_error manyMatchesReason many.resolve rfl).mpr rfl

/-- The choices are the same: two setups of one image and one list of items, or failures of one
kind. -/
def SameChoice : Except BootstrapError Setup → Except BootstrapError Setup → Prop
  | .ok a, .ok b => a.image = b.image ∧ a.items = b.items
  | .error (.machineSetup (.noMatch _)), .error (.machineSetup (.noMatch _)) => True
  | .error (.machineSetup (.manyMatches _)), .error (.machineSetup (.manyMatches _)) => True
  | _, _ => False

/-- Setups that are alike make the same choice for shapes that are alike. -/
theorem Alike.sameChoice {t : Setups} (h : s.Alike t) {shape' : MachineShape}
    (same : shape.Alike shape') : SameChoice (s.resolve shape) (t.resolve shape') := by
  obtain ⟨arranged, perm, alike⟩ := h
  have perm := perm.filter (·.fits shape)
  have alike : List.Forall₂ Setup.Alike (arranged.filter (·.fits shape))
      (t.all.filter (·.fits shape')) := by
    refine List.rel_filter (fun a b alike => ?_) alike
    change a.fits shape = true ↔ b.fits shape' = true
    rw [Setup.fits_iff, Setup.fits_iff, alike.serves_iff same]
  unfold resolve
  generalize s.all.filter (·.fits shape) = fitting at perm ⊢
  generalize arranged.filter (·.fits shape) = fitting' at perm alike
  generalize t.all.filter (·.fits shape') = fitting'' at alike ⊢
  cases alike with
  | nil =>
    rw [perm.eq_nil]
    trivial
  | cons first rest =>
    cases rest with
    | nil =>
      rw [List.perm_singleton.mp perm]
      exact ⟨first.image, first.items⟩
    | cons second rest =>
      have two := perm.length_eq
      rcases fitting with _ | ⟨a, _ | ⟨b, _⟩⟩
      · cases two
      · cases two
      · trivial

/-- **Exactly one setup has to serve.** It is chosen, with its image and its items. If none serves
or several do, the choice fails, each with a reason of its own. How setups, shapes and roles are
arranged does not matter. -/
theorem resolve_chooses (s : Setups) (shape : MachineShape) :
    (∀ image, (s.resolve shape).map Setup.image = .ok image ↔
      ∃ setup, s.HasOnly shape setup ∧ setup.image = image) ∧
    (∀ items, (s.resolve shape).map Setup.items = .ok items ↔
      ∃ setup, s.HasOnly shape setup ∧ setup.items = items) ∧
    (∀ setup setup', s.HasOnly shape setup → s.HasOnly shape setup' → setup = setup') ∧
    (s.FailsAs shape "could not find a matching machine setup config" ↔ s.HasNone shape) ∧
    (s.FailsAs shape "found multiple matching machine setup configs" ↔ s.HasMany shape) ∧
    ∀ (t : Setups) (shape' : MachineShape), s.Alike t → shape.Alike shape' →
      SameChoice (s.resolve shape) (t.resolve shape') := by
  have answers {α : Type} (part : Setup → α) (a : α) : (s.resolve shape).map part = .ok a ↔
      ∃ setup, s.HasOnly shape setup ∧ part setup = a := by
    refine map_eq_ok_iff.trans (exists_congr fun setup => ?_)
    rw [resolve_eq_ok_iff]
  exact ⟨answers _, answers _,
    fun _ _ only only' => Except.ok.inj (only.resolve.symm.trans only'.resolve),
    failsAs_noMatch_iff, failsAs_manyMatches_iff, fun _ _ alike same => alike.sameChoice same⟩

/-- A setup for machines that have one role or both, listed before and after one for other
machines, is chosen for a machine whose roles are given in any order and more than once. -/
theorem resolve_chooses_of_both_roles :
    let versions : Versions := ⟨"1.9.4", "1.9.4"⟩
    let node : MachineShape := ⟨"linux", [.node], ⟨"1.9.4", ""⟩⟩
    let both : Setup := { shapes := [node, ⟨"linux", [.node, .master], versions⟩], image := "both" }
    let both' : Setup :=
      { shapes := [⟨"linux", [.master, .node, .master], versions⟩, node], image := "both" }
    let master : Setup := { shapes := [⟨"linux", [.master], versions⟩], image := "master" }
    SameChoice (resolve ⟨[master, both]⟩ ⟨"linux", [.master, .node], versions⟩)
        (resolve ⟨[both', master]⟩ ⟨"linux", [.node, .node, .master], versions⟩) ∧
      (resolve ⟨[master, both]⟩ ⟨"linux", [.master, .node], versions⟩).map Setup.image
        = .ok "both" := by
  intro versions node both both' master
  have roles (role : Role) :
      role ∈ [Role.node, .master] ↔ role ∈ [Role.master, .node, .master] := by
    cases role <;> decide
  have alike : both.Alike both' := by
    refine ⟨rfl, rfl, fun own mem => ?_, fun other mem => ?_⟩
    all_goals
      rcases List.mem_pair.mp mem with rfl | rfl
    · exact ⟨node, List.mem_cons_of_mem _ List.mem_cons_self, rfl, fun _ => .rfl, rfl, rfl⟩
    · exact ⟨_, List.mem_cons_self, rfl, roles, rfl, rfl⟩
    · exact ⟨_, List.mem_cons_of_mem _ List.mem_cons_self, rfl, roles, rfl, rfl⟩
    · exact ⟨node, List.mem_cons_self, rfl, fun _ => .rfl, rfl, rfl⟩
  have self : master.Alike master :=
    ⟨rfl, rfl, fun own mem => ⟨own, mem, rfl, fun _ => .rfl, rfl, rfl⟩,
      fun own mem => ⟨own, mem, rfl, fun _ => .rfl, rfl, rfl⟩⟩
  refine ⟨(resolve_chooses ⟨[master, both]⟩ _).2.2.2.2.2 ⟨[both', master]⟩ _
    ⟨[both, master], List.Perm.swap _ _ _, .cons alike (.cons self .nil)⟩
    ⟨rfl, fun role => by cases role <;> decide, rfl, rfl⟩, ?_⟩
  decide

end Setups

end NodeProvisioner
