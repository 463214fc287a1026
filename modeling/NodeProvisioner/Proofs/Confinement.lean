import NodeProvisioner.Proofs.Confinement.Attempts
import NodeProvisioner.Proofs.Confinement.Passes

/-!
# Confinement of passes

A pass over a machine stays within the machine's reach: the project of its cluster, the places that
it asks for now or has asked for by its snapshot, and its own record. It leaves alone whatever else
there is, and how it goes does not depend on it. So passes over two machines that do not meet may
change places.

Main statement: `Provisions.carryOut_confined`.
-/

namespace NodeProvisioner

open Simulation (attempt)

/-- The machine has a name, and no slash is in what comes before the names in keys. -/
structure Machine.IsAddressed (m : Machine) : Prop where
  named : ∃ name, m.metadata.name = some name
  space : '/' ∉ m.namespaceText.toList
  zones : ∀ zone name, m.Claims zone name → '/' ∉ zone.toList

/-- The machines are not the same, and claim no place both. -/
structure Machine.IsApart (m m' : Machine) : Prop where
  identity : ¬ (m.namespaceText = m'.namespaceText ∧ m.metadata.nameOrStem = m'.metadata.nameOrStem)
  places : ∀ zone name, m.Claims zone name → ¬ m'.Claims zone name

/-- Each record is stored under its own key, and is of a namespace without a slash. -/
def Memory.IsFiled (a : Memory) : Prop :=
  ∀ k record, a.records.get? k = some record →
    Memory.recordKey record = k ∧ '/' ∉ record.namespaceText.toList

variable {m m' : Machine} {a b : Memory}

theorem Machine.IsApart.reach (apart : m.IsApart m') (addressed : m.IsAddressed)
    (addressed' : m'.IsAddressed) (c c' : Cluster) : (m.reach c).IsApart (m'.reach c') where
  instances := by
    rintro _ ⟨zone, name, own, rfl⟩ ⟨zone', name', own', same⟩
    have plain := addressed.zones zone name own
    have plain' := addressed'.zones zone' name' own'
    obtain ⟨rfl, rfl⟩ := (Memory.key_eq_key_iff plain plain').mp same
    exact apart.places zone name own own'
  record same := apart.identity ((Memory.key_eq_key_iff addressed.space addressed'.space).mp same)

namespace Memory

theorem IsFiled.files (filed : a.IsFiled) (addressed : m.IsAddressed) (c : Cluster) :
    a.Files (m.reach c) := by
  intro record found
  obtain ⟨own, plain⟩ := filed _ record found
  obtain ⟨space, name⟩ := (key_eq_key_iff plain addressed.space).mp own
  exact ⟨space, name⟩

theorem isFiled_empty : IsFiled {} := by
  intro k record found
  cases (StringMap.get?_empty k).symm.trans found

/-- A record may be stored. -/
theorem IsFiled.store (filed : a.IsFiled) (plain : '/' ∉ m.namespaceText.toList) :
    IsFiled { a with records := a.records.insert (recordKey m) m } := by
  intro k record found
  rw [StringMap.get?_insert] at found
  split at found
  · rename_i own
    cases found
    exact ⟨own.symm, plain⟩
  · exact filed k record found

/-- What is done within the reach of a machine leaves the records where they belong. -/
theorem IsFiled.of_agreesBeyond {c : Cluster} (filed : a.IsFiled) (addressed : m.IsAddressed)
    (beyond : a.AgreesBeyond (m.reach c) b) (files : b.Files (m.reach c)) : b.IsFiled := by
  intro k record found
  by_cases own : k = (m.reach c).recordKey
  · subst own
    obtain ⟨space, name⟩ := files record found
    exact ⟨by rw [recordKey, space, name]; rfl, space ▸ addressed.space⟩
  · exact filed k record ((beyond.records k own).trans found)

end Memory

/-- What carrying out a task comes to is within the machine's reach, and local. -/
theorem Provisions.attempt_carryOut (S : SignatureSystem) (p : Provisions) (o : Occasion)
    (c : Cluster) (addressed : m.IsAddressed) (task : Task) (faults : Faults)
    (token : Except BootstrapError String) (files : a.Files (m.reach c)) :
    (∀ call ∈ (attempt (p.carryOut S o c m task).run faults token a).1.2,
        call.Within (m.reach c)) ∧
      Memory.LocalAt (m.reach c) (attempt (p.carryOut S o c m task).run faults token) a :=
  addressed.named.elim fun _ named =>
    Simulation.attempt_confined (Machine.confines_carryOut S p o c task named)
      { memory := a, faults, token } files

/-- **Passes are confined to their machine.** All calls of a pass stay within the machine's reach;
the memory beyond the reach stays as it was, and the records where they belong; in a memory that is
the same within the reach the pass ends in the same, makes the same calls and leaves the same
there. Passes over machines apart may change places: each makes the same calls and ends in the same
as if it were the only one, and together they leave the same memory. -/
theorem Provisions.carryOut_confined (S : SignatureSystem) (p : Provisions) (o : Occasion)
    (c : Cluster) (task : Task) (faults : Faults) (token : Except BootstrapError String)
    (addressed : m.IsAddressed) (filed : a.IsFiled) :
    let pass := attempt (p.carryOut S o c m task).run faults token
    (∀ call ∈ (pass a).1.2, call.Within (m.reach c)) ∧
    a.AgreesBeyond (m.reach c) (pass a).2 ∧ (pass a).2.IsFiled ∧
    (∀ b, a.AgreesWithin (m.reach c) b →
      (pass b).1 = (pass a).1 ∧ (pass a).2.AgreesWithin (m.reach c) (pass b).2) ∧
    ∀ (S' : SignatureSystem) (p' : Provisions) (o' : Occasion) (c' : Cluster) (m' : Machine)
      (task' : Task) (faults' : Faults) (token' : Except BootstrapError String),
      m'.IsAddressed → m.IsApart m' →
      let other := attempt (p'.carryOut S' o' c' m' task').run faults' token'
      (pass (other a).2).1 = (pass a).1 ∧ (other (pass a).2).1 = (other a).1 ∧
        (other (pass a).2).2 = (pass (other a).2).2 := by
  intro pass
  obtain ⟨calls, own⟩ := attempt_carryOut S p o c addressed task faults token
    (filed.files addressed c)
  refine ⟨calls, own.beyond, filed.of_agreesBeyond addressed own.beyond own.files, own.within, ?_⟩
  intro S' p' o' c' m' task' faults' token' addressed' apart other
  have passes (b : Memory) (files : b.Files (m.reach c)) : Memory.LocalAt (m.reach c) pass b :=
    (attempt_carryOut S p o c addressed task faults token files).2
  have others (b : Memory) (files : b.Files (m'.reach c')) : Memory.LocalAt (m'.reach c') other b :=
    (attempt_carryOut S' p' o' c' addressed' task' faults' token' files).2
  exact Memory.LocalAt.swap (apart.reach addressed addressed' c c') (filed.files addressed c)
    (filed.files addressed' c') passes others

/-! ## Workers -/

section

variable {ns name zone kind kubelet : String}

/-- A worker claims no place but the one that it asks for. -/
theorem Machine.claims_worker (zone_ne : zone ≠ "") (kind_ne : kind ≠ "") {zone' name' : String}
    (claims : (worker ns name zone kind kubelet).Claims zone' name') :
    zone = zone' ∧ name = name' := by
  obtain ⟨spec, asked, rfl, rfl⟩ | ⟨current, shown, _⟩ := claims
  · rw [ofMachine_worker ns name zone kind kubelet zone_ne kind_ne] at asked
    cases asked
    exact ⟨rfl, rfl⟩
  · cases shown

theorem Machine.isAddressed_worker (zone_ne : zone ≠ "") (kind_ne : kind ≠ "")
    (space : '/' ∉ ns.toList) (plain : '/' ∉ zone.toList) :
    (worker ns name zone kind kubelet).IsAddressed where
  named := ⟨name, rfl⟩
  space := space
  zones _ _ claims := (claims_worker zone_ne kind_ne claims).1 ▸ plain

/-- Workers of different names are apart, even in one namespace and one zone. -/
theorem Machine.isApart_worker (zone_ne : zone ≠ "") (kind_ne : kind ≠ "") {name' : String}
    (ne : name ≠ name') :
    (worker ns name zone kind kubelet).IsApart (worker ns name' zone kind kubelet) where
  identity same := ne same.2
  places _ _ claims claims' := ne <|
    (claims_worker zone_ne kind_ne claims).2.trans (claims_worker zone_ne kind_ne claims').2.symm

/-- Two workers of one zone are created in either order. -/
theorem Provisions.carryOut_confined_of_workers :
    let m := Machine.worker "default" "worker-1" "zone-a" "small" "1.9.4"
    let m' := Machine.worker "default" "worker-2" "zone-a" "small" "1.9.4"
    let records := (StringMap.empty.insert (Memory.recordKey m) m).insert (Memory.recordKey m') m'
    let pass (m : Machine) := attempt ((ofWorkers "image" "1.9.4").carryOut .elliptic default
      (.reachable "project" ⟨"10.0.0.1", 443⟩) m .reconcile).run {} (.ok "c582f9.65a6f54fa78da5ae")
    let a : Memory := { records }
    m.IsAddressed ∧ a.IsFiled ∧ m'.IsAddressed ∧ m.IsApart m' ∧
      (pass m (pass m' a).2).1 = (pass m a).1 ∧ (pass m' (pass m a).2).1 = (pass m' a).1 ∧
      (pass m' (pass m a).2).2 = (pass m (pass m' a).2).2 ∧
      (pass m' (pass m a).2).2.instances.keys = ["zone-a/worker-1", "zone-a/worker-2"] := by
  intro m m' records pass a
  have addressed : m.IsAddressed :=
    Machine.isAddressed_worker (by decide) (by decide) (by decide) (by decide)
  have addressed' : m'.IsAddressed :=
    Machine.isAddressed_worker (by decide) (by decide) (by decide) (by decide)
  have filed : a.IsFiled := (Memory.isFiled_empty.store addressed.space).store addressed'.space
  have apart : m.IsApart m' := Machine.isApart_worker (by decide) (by decide) (by decide)
  obtain ⟨-, -, -, -, swap⟩ := carryOut_confined .elliptic (ofWorkers "image" "1.9.4") default
    (.reachable "project" ⟨"10.0.0.1", 443⟩) .reconcile {} (.ok "c582f9.65a6f54fa78da5ae")
    addressed filed
  obtain ⟨same, same', memory⟩ := swap _ _ _ _ m' .reconcile _ _ addressed' apart
  exact ⟨addressed, filed, addressed', apart, same, same', memory, by decide +kernel⟩

end

end NodeProvisioner
