import NodeProvisioner.Compute.Instance
import NodeProvisioner.Compute.Operation
import NodeProvisioner.Duration
import NodeProvisioner.Error
import NodeProvisioner.Program
import NodeProvisioner.Snapshot

/-!
# Calls of a pass

A pass over a machine calls the compute provider, the issuer of tokens and the store of records.
These calls are all it can do to the world.

What a pass has observed of a machine is put onto the stored record of the machine. The record is
read anew first, so that what others have written to it in the meantime stays.
-/

namespace NodeProvisioner

/-- A call of a pass. -/
inductive Call where
  | getInstance (project zone name : String)
  | insertInstance (project zone : String) (wanted : Instance)
  | deleteInstance (project zone name : String)
  /-- Asks how an operation is getting on. -/
  | pollOperation (project zone operation : String)
  | createToken
  | readRecord (namespaceText name : String)
  /-- Replaces the record of the machine's namespace and name. -/
  | writeRecord (machine : Machine)
  | pause (delay : Duration)

/-- What a call is answered with. -/
def Call.Answer : Call → Type
  | getInstance .. => Except ComputeError (Option Instance)
  | insertInstance .. => Except ComputeError Operation
  | deleteInstance .. => Except ComputeError Operation
  | pollOperation .. => Except ComputeError Operation
  | createToken => Except BootstrapError String
  | readRecord .. => Except Error (Option Machine)
  | writeRecord _ => Except Error Machine
  | pause _ => Unit

/-- A part of a pass: it makes calls, and ends in a value or in an error. -/
abbrev Pass (α : Type) := ExceptT Error (Program Call.Answer) α

namespace Pass

/-- What the provider answers to a call that is part of an operation on a machine. -/
def provider {α : Type} (machine operation : String)
    (answer : Program Call.Answer (Except ComputeError α)) : Pass α :=
  ExceptT.mk (answer.bind fun result =>
    .done (result.mapError fun e => .provisioning machine operation e.message))

def getInstance (machine project zone name : String) : Pass (Option Instance) :=
  provider machine "instances.get" (.perform (Call.getInstance project zone name))

def insertInstance (machine project zone : String) (wanted : Instance) : Pass Operation :=
  provider machine "instances.insert" (.perform (Call.insertInstance project zone wanted))

def deleteInstance (machine project zone name : String) : Pass Operation :=
  provider machine "instances.delete" (.perform (Call.deleteInstance project zone name))

def pollOperation (machine project zone operation : String) : Pass Operation :=
  provider machine "zoneOperations.get" (.perform (Call.pollOperation project zone operation))

def createToken : Program Call.Answer (Except BootstrapError String) := .perform Call.createToken

def readRecord (namespaceText name : String) : Pass (Option Machine) :=
  ExceptT.mk (.perform (Call.readRecord namespaceText name))

def writeRecord (machine : Machine) : Pass Machine :=
  ExceptT.mk (.perform (Call.writeRecord machine))

/-- A part of a pass that makes no calls. -/
def ofExcept {α : Type} (result : Except Error α) : Pass α := ExceptT.mk (.done result)

/-- Puts a snapshot of the machine onto its stored record. -/
def record (m : Machine) : Pass Machine := do
  let ns := m.namespaceText
  let name := m.metadata.nameOrStem
  match ← readRecord ns name with
  | none => throw (.recordGone ns name)
  | some stored => writeRecord (stored.withSnapshot m)

end Pass

end NodeProvisioner
