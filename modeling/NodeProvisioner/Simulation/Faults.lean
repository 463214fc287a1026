import NodeProvisioner.Simulation.Memory

/-!
# Faults

What may go wrong in a world that is otherwise all right: a call fails without effect, an operation
takes long or fails, or somebody else removes or writes a record between a read and a write.
-/

namespace NodeProvisioner

/-- Why a store refuses. -/
inductive StoreFault where
  | conflict
  | gone
  | api (failure : ApiFailure)

/-- What somebody else does to a record that has just been read. -/
inductive Race where
  | remove
  | write

/-- How a world deviates from one in which all goes well. -/
structure Faults where
  getError : Option ComputeError := none
  insertError : Option ComputeError := none
  deleteError : Option ComputeError := none
  /-- What an insertion that takes effect is answered with. -/
  insertAnswer : Option (Except ComputeError Operation) := none
  /-- What a deletion that takes effect is answered with. -/
  deleteAnswer : Option (Except ComputeError Operation) := none
  /-- What polls are answered with; further polls find the operation done. -/
  polls : List (Except ComputeError Operation) := []
  readFault : Option StoreFault := none
  writeFault : Option StoreFault := none
  race : Option Race := none

/-- A world: what is in it, how it deviates, and the token that it hands out. -/
structure Simulation where
  memory : Memory := {}
  faults : Faults := {}
  token : Except BootstrapError String

/-- The fault of a call for a record. -/
def StoreFault.error (ns name : String) : StoreFault → Error
  | conflict => .conflict ns name
  | gone => .recordGone ns name
  | api failure => .kube (.api failure)

/-- What a race does to a record. -/
def Race.apply (key : String) (m : Memory) : Race → Memory
  | remove => { m with records := m.records.erase key }
  | write =>
    match m.records.get? key with
    | none => m
    | some stored => { m with records := m.records.insert key (Memory.withVersion stored "raced") }

namespace Simulation

/-- The answer to a call that changes instances: the one of the memory, unless another is given. -/
def change (s : Simulation) (failure : Option ComputeError)
    (answer : Option (Except ComputeError Operation))
    (result : Except ComputeError Operation × Memory) :
    Except ComputeError Operation × Simulation :=
  match failure with
  | some e => (.error e, s)
  | none =>
    match result with
    | (.error e, _) => (.error e, s)
    | (.ok operation, memory) => (answer.getD (.ok operation), { s with memory })

/-- The answer to a poll. -/
def poll (s : Simulation) (asked : String) : Except ComputeError Operation × Simulation :=
  match s.faults.polls with
  | [] => (.ok { name := asked, status := "DONE" }, s)
  | answer :: polls => (answer, { s with faults := { s.faults with polls } })

/-- The answer to a read of a record. -/
def read (s : Simulation) (ns name : String) : Except Error (Option Machine) × Simulation :=
  match s.faults.readFault with
  | some fault => (.error (fault.error ns name), s)
  | none =>
    let memory := match s.faults.race with
      | none => s.memory
      | some race => race.apply (Memory.key ns name) s.memory
    (.ok (s.memory.readRecord ns name), { s with memory })

/-- The answer to a write of a record. -/
def write (s : Simulation) (m : Machine) : Except Error Machine × Simulation :=
  match s.faults.writeFault with
  | some fault => (.error (fault.error m.namespaceText m.metadata.nameOrStem), s)
  | none =>
    let (result, memory) := s.memory.writeRecord m
    (result, { s with memory })

/-- The world that a simulation stands for. Pauses take no time. -/
def world : Program.World Call.Answer Simulation
  | .getInstance _ zone name, s =>
    match s.faults.getError with
    | some e => (.error e, s)
    | none => (.ok (s.memory.getInstance zone name), s)
  | .insertInstance _ zone wanted, s =>
    s.change s.faults.insertError s.faults.insertAnswer (s.memory.insertInstance zone wanted)
  | .deleteInstance _ zone name, s =>
    s.change s.faults.deleteError s.faults.deleteAnswer (s.memory.deleteInstance zone name)
  | .pollOperation _ _ operation, s => s.poll operation
  | .createToken, s => (s.token, s)
  | .readRecord ns name, s => s.read ns name
  | .writeRecord m, s => s.write m
  | .pause _, s => ((), s)

end Simulation

end NodeProvisioner
