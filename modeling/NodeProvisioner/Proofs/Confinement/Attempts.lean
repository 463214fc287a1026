import NodeProvisioner.Proofs.Confinement.Memories
import NodeProvisioner.Simulation.Faults

/-!
# Attempts

How a program goes on a memory, in a world that may let its calls fail. Each call within a reach is
local, and it is answered fairly if the record within the reach is filed where it belongs. So a
program that is confined to a reach is local as a whole.

Main statement: `Simulation.attempt_confined`.
-/

namespace NodeProvisioner

namespace Simulation

open Memory

variable {r : Reach} {s : Simulation} {α ρ : Type}

/-- A step of a simulation as an operation on its memory. What becomes of the rest of the simulation
is part of the result. -/
def onMemory (s : Simulation) (step : Simulation → ρ × Simulation) (a : Memory) :
    (ρ × Faults × Except BootstrapError String) × Memory :=
  let x := step { s with memory := a }
  ((x.1, x.2.faults, x.2.token), x.2.memory)

/-- A change of instances is local if it is so where no fault is in the way, and has no effect where
it fails. -/
theorem localAt_change {f : Memory → Except ComputeError Operation × Memory}
    (h : LocalAt r f s.memory) (spares : ∀ a e, (f a).1 = .error e → (f a).2 = a)
    (filed : s.memory.Files r) (failure : Option ComputeError)
    (answer : Option (Except ComputeError Operation)) :
    LocalAt r (s.onMemory fun s => s.change failure answer (f s.memory)) s.memory := by
  cases failure with
  | some e => exact (localAt_const (.error e, s.faults, s.token) filed).congr fun _ => rfl
  | none =>
    refine (h.map fun result => (result.bind fun operation => answer.getD (.ok operation),
      s.faults, s.token)).congr fun a => ?_
    have spared := spares a
    simp only [onMemory, change]
    generalize f a = edited at spared
    obtain ⟨e | operation, b⟩ := edited
    · rw [show b = a from spared e rfl]
      rfl
    · rfl

theorem spares_insertInstance (zone : String) (wanted : Instance) (a : Memory) (e : ComputeError)
    (failed : (a.insertInstance zone wanted).1 = .error e) :
    (a.insertInstance zone wanted).2 = a := by
  by_cases there : a.instances.contains (key zone wanted.name) = true
  · exact congrArg Prod.snd (if_pos there)
  · have inserted := congrArg Prod.fst (if_neg there : a.insertInstance zone wanted = _)
    cases inserted.symm.trans failed

theorem spares_deleteInstance (zone name : String) (a : Memory) (e : ComputeError)
    (failed : (a.deleteInstance zone name).1 = .error e) : (a.deleteInstance zone name).2 = a := by
  by_cases there : a.instances.contains (key zone name) = true
  · have deleted := congrArg Prod.fst (if_pos there : a.deleteInstance zone name = _)
    cases deleted.symm.trans failed
  · exact congrArg Prod.snd (if_neg there)

/-- Others may do what they want to the record within the reach. -/
theorem localAt_race (race : Race) (filed : a.Files r) :
    LocalAt r (fun a => ((), race.apply r.recordKey a)) a := by
  cases race with
  | remove =>
    refine localAt_record (fun _ => ()) (fun _ => none) (fun _ _ _ => rfl) (fun _ _ _ => rfl)
      (fun a x _ j => StringMap.get?_erase a.records r.recordKey j) ?_
    rintro _ ⟨⟩
  | write =>
    refine localAt_record (fun _ => ()) (Option.map (withVersion · "raced")) (fun _ _ _ => rfl)
      (fun a x there => ?_) (fun a x there j => ?_) fun record raced => ?_
    · cases x <;> simp only [Race.apply, there]
    · cases x <;> simp only [Race.apply, there]
      · exact get?_eq_ite there j
      · exact StringMap.get?_insert ..
    · obtain ⟨stored, found, rfl⟩ := Option.map_eq_some_iff.mp raced
      exact (filed stored found).withVersion "raced"

theorem localAt_read (filed : s.memory.Files r) :
    LocalAt r (s.onMemory (·.read r.space r.name)) s.memory := by
  cases fault : s.faults.readFault with
  | some f =>
    refine (localAt_const (.error (f.error r.space r.name), s.faults, s.token) filed).congr
      fun a => ?_
    simp only [onMemory, read, fault]
  | none =>
    have reads := (localAt_readRecord filed).map fun found =>
      ((.ok found : Except Error (Option Machine)), s.faults, s.token)
    cases raced : s.faults.race with
    | none =>
      refine reads.congr fun a => ?_
      simp only [onMemory, read, fault, raced]
    | some race =>
      refine (reads.bind (g := fun x a => (x, race.apply r.recordKey a))
        ((localAt_race race reads.files).map fun _ => _)).congr fun a => ?_
      simp only [onMemory, read, fault, raced]
      rfl

theorem localAt_write {m : Machine} (own : m.IsFiled r.space r.name) (filed : s.memory.Files r) :
    LocalAt r (s.onMemory (·.write m)) s.memory := by
  cases fault : s.faults.writeFault with
  | some f =>
    refine (localAt_const (.error (f.error m.namespaceText m.metadata.nameOrStem), s.faults,
      s.token) filed).congr fun a => ?_
    simp only [onMemory, write, fault]
  | none =>
    refine ((localAt_writeRecord own filed).map fun result =>
      (result, s.faults, s.token)).congr fun a => ?_
    simp only [onMemory, write, fault]

/-- **A call within the reach is local.** -/
theorem localAt_world {c : Call} (within : c.Within r) (filed : s.memory.Files r) :
    LocalAt r (s.onMemory (world c)) s.memory := by
  cases c with
  | getInstance project zone name =>
    have own : r.IsPlaceKey (key zone name) := ⟨zone, name, within.2, rfl⟩
    cases fault : s.faults.getError with
    | some e =>
      refine (localAt_const (.error e, s.faults, s.token) filed).congr fun a => ?_
      simp only [onMemory, world, fault]
    | none =>
      refine ((localAt_getInstance own filed).map fun found =>
        (.ok found, s.faults, s.token)).congr fun a => ?_
      simp only [onMemory, world, fault]
  | insertInstance project zone wanted =>
    have own : r.IsPlaceKey (key zone wanted.name) := ⟨zone, wanted.name, within.2, rfl⟩
    exact (localAt_change (localAt_insertInstance own filed) (spares_insertInstance zone wanted)
      filed s.faults.insertError s.faults.insertAnswer).congr fun _ => rfl
  | deleteInstance project zone name =>
    have own : r.IsPlaceKey (key zone name) := ⟨zone, name, within.2, rfl⟩
    exact (localAt_change (localAt_deleteInstance own filed) (spares_deleteInstance zone name)
      filed s.faults.deleteError s.faults.deleteAnswer).congr fun _ => rfl
  | pollOperation project zone operation =>
    cases polls : s.faults.polls with
    | nil =>
      refine (localAt_const (.ok { name := operation, status := "DONE" }, s.faults, s.token)
        filed).congr fun a => ?_
      simp only [onMemory, world, poll, polls]
    | cons answer rest =>
      refine (localAt_const (answer, { s.faults with polls := rest }, s.token) filed).congr
        fun a => ?_
      simp only [onMemory, world, poll, polls]
      rfl
  | createToken => exact (localAt_const (s.token, s.faults, s.token) filed).congr fun _ => rfl
  | readRecord ns name =>
    obtain ⟨rfl, rfl⟩ := within
    exact localAt_read filed
  | writeRecord m => exact localAt_write within filed
  | pause delay => exact (localAt_const ((), s.faults, s.token) filed).congr fun _ => rfl

/-- A record that is found is the one that was asked for. -/
theorem fair_world {c : Call} (within : c.Within r) (filed : s.memory.Files r) :
    c.Fair (world c s).1 := by
  cases c with
  | readRecord ns name =>
    obtain ⟨rfl, rfl⟩ := within
    simp only [world, read]
    cases s.faults.readFault with
    | some fault => trivial
    | none =>
      cases found : s.memory.readRecord r.space r.name with
      | none => trivial
      | some record => exact filed record found
  | _ => trivial

/-- How a program goes on a memory, with these faults and this token: what it ends in and its calls,
and the memory that it leaves. -/
def attempt (p : Program Call.Answer α) (faults : Faults) (token : Except BootstrapError String)
    (a : Memory) : (Option α × List Call) × Memory :=
  let (result, calls, s) := p.run world { memory := a, faults, token }
  ((result, calls), s.memory)

/-- A program that begins with a call goes on as what follows does, with the faults and the token
that the call has left. -/
theorem attempt_call (c : Call) (next : c.Answer → Program Call.Answer α) (s : Simulation)
    (a : Memory) : attempt (.call c next) s.faults s.token a =
      let x := s.onMemory (world c) a
      let y := attempt (next x.1.1) x.1.2.1 x.1.2.2 x.2
      ((y.1.1, c :: y.1.2), y.2) := rfl

/-- **What is confined to a reach stays within it, and is local.** -/
theorem attempt_confined {p : Program Call.Answer α} {post : α → Prop}
    (h : p.Confined (·.Within r) Call.Fair post) (s : Simulation) (filed : s.memory.Files r) :
    (∀ call ∈ (attempt p s.faults s.token s.memory).1.2, call.Within r) ∧
      LocalAt r (attempt p s.faults s.token) s.memory := by
  induction p generalizing s with
  | done x => exact ⟨List.forall_mem_nil _, localAt_const (some x, []) filed⟩
  | abort => exact ⟨List.forall_mem_nil _, localAt_const (none, []) filed⟩
  | call c next ih =>
    obtain ⟨here, rest⟩ := h
    have step : LocalAt r (s.onMemory (world c)) s.memory := localAt_world here filed
    obtain ⟨within, runs⟩ := ih _ (rest _ (fair_world here filed)) (world c s).2 step.files
    refine ⟨fun call among => ?_, ?_⟩
    · obtain rfl | later := List.mem_cons.mp among
      · exact here
      · exact within call later
    · refine (step.bind (g := fun x b =>
        let y := attempt (next x.1) x.2.1 x.2.2 b
        ((y.1.1, c :: y.1.2), y.2)) ?_).congr (attempt_call c next s)
      exact runs.map fun y => (y.1, c :: y.2)

end Simulation

end NodeProvisioner
