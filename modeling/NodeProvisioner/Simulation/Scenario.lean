import NodeProvisioner.Simulation.Responses

/-!
# Scenarios

What is done to a simulated world: passes of a provisioner, and edits of the world by somebody
else. Each is done under circumstances of its own, and leaves a memory for the next.

The clock stands still, and random bytes are the same in each run: a digest of what they are for and
of how often such bytes have been asked for before.
-/

namespace NodeProvisioner

/-- Something that is done to a simulated world. -/
inductive Deed where
  | create (c : Cluster) (m : Machine)
  | delete (c : Cluster) (m : Machine)
  | update (c : Cluster) (m : Machine)
  | reconcile (c : Cluster) (m : Machine)
  | exists (c : Cluster) (m : Machine)
  /-- Puts a snapshot of a machine onto its record in the store. -/
  | record (m : Machine)
  | putRecord (m : Machine)
  | putInstance (zone : String) (i : Instance)
  | removeRecord (key : String)
  | removeInstance (key : String)

/-- What a deed ends in. -/
inductive Finding where
  | outcome (o : Outcome)
  | truth (b : Bool)
  | machine (m : Machine)
  | nothing

/-- The circumstances of a deed. -/
structure Circumstances where
  occasion : Occasion
  /-- Random bytes for a token. -/
  blocks : List (List UInt8)
  faults : Faults := {}
  token : Except BootstrapError String
  responses : List Prepared := []

/-- What has come of a deed: the result, unless the deed was aborted, its effects, and the memory
that is left. -/
structure Aftermath where
  result : Option (Except Error Finding)
  effects : List Effect := []
  memory : Memory

namespace Source

/-- What the clock shows. -/
def now : Timestamp := ⟨1800000000, 0⟩

/-- Thirty-two bytes for a purpose. -/
def bytes (purpose : String) (n : Nat) : List UInt8 :=
  Digest.sha256.digest s!"{purpose} {n}".toUTF8.toList

/-- The occasion of issuing the `n`th certificate. -/
def occasion (n : Nat) : Occasion := ⟨now, bytes "key" n, bytes "serial" n, bytes "nonce" n⟩

/-- Blocks of bytes for the `n`th token. -/
def blocks (n : Nat) : List (List UInt8) :=
  (List.range 16).map fun i => bytes s!"token {n}" i

/-- The circumstances of the `n`th deed. -/
def circumstances (n : Nat) (token : Except BootstrapError String) : Circumstances :=
  { occasion := occasion n, blocks := blocks n, token }

end Source

namespace Circumstances

/-- A pass under the circumstances. -/
def runPass (s : Circumstances) (api : ApiServer) (memory : Memory) (pass : Pass Finding) :
    Aftermath :=
  let (result, effects, simulation, _) :=
    (api.carryPass pass).run Effect.world (⟨memory, s.faults, s.token⟩, s.responses)
  ⟨result, effects, simulation.memory⟩

end Circumstances

namespace Provisioner

variable (S : SignatureSystem) (p : Provisioner) (s : Circumstances) (memory : Memory)

/-- Does a deed. -/
def perform : Deed → Aftermath :=
  let api := p.api s.occasion.now s.blocks
  let pass (q : Pass Outcome) : Aftermath := s.runPass api memory (.outcome <$> q)
  fun deed => match deed with
    | .create c m => pass (p.provisions.create S s.occasion c m)
    | .delete c m => pass (p.provisions.delete c m)
    | .update c m => pass (p.provisions.update S s.occasion c m)
    | .reconcile c m => pass (p.provisions.reconcile S s.occasion c m)
    | .exists c m => s.runPass api memory (.truth <$> Pass.exists c m)
    | .record m => s.runPass { api with records := false } memory (.machine <$> Pass.record m)
    | .putRecord m =>
      ⟨some (.ok .nothing), [], { memory with records := memory.records.insert m.identity m }⟩
    | .putInstance zone i =>
      ⟨some (.ok .nothing), [],
        { memory with instances := memory.instances.insert (Memory.key zone i.name) i }⟩
    | .removeRecord key =>
      ⟨some (.ok (.truth (memory.records.contains key))), [],
        { memory with records := memory.records.erase key }⟩
    | .removeInstance key =>
      ⟨some (.ok (.truth (memory.instances.contains key))), [],
        { memory with instances := memory.instances.erase key }⟩

end Provisioner

end NodeProvisioner
