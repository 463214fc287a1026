import NodeProvisioner.Decimal.Reading
import NodeProvisioner.Pass.Call

/-!
# A provider and a store in memory

Instances are kept by zone and name, records by namespace and name. Operations of the provider are
done at once. A record can be replaced only with the version that it has, and has a new version
afterwards.
-/

namespace NodeProvisioner

/-- What a provider and a store hold. -/
structure Memory where
  instances : StringMap Instance := .empty
  records : StringMap Machine := .empty
deriving Inhabited

namespace Memory

/-- The key of an instance or of a record: where it is and its name. -/
def key (place name : String) : String := s!"{place}/{name}"

/-! ## Instances -/

/-- An operation that is done. -/
def done (kind target : String) : Operation :=
  { name := "operation-" ++ kind, status := "DONE", operationType := kind, targetLink := target }

/-- The instance in a zone. -/
def getInstance (m : Memory) (zone name : String) : Option Instance :=
  m.instances.get? (key zone name)

/-- Inserts an instance: it must not be there yet. -/
def insertInstance (m : Memory) (zone : String) (wanted : Instance) :
    Except ComputeError Operation × Memory :=
  let k := key zone wanted.name
  if m.instances.contains k then (.error (.api 409 s!"The resource '{k}' already exists"), m)
  else (.ok (done "insert" k), { m with instances := m.instances.insert k wanted })

/-- Deletes an instance: it has to be there. -/
def deleteInstance (m : Memory) (zone name : String) : Except ComputeError Operation × Memory :=
  let k := key zone name
  if m.instances.contains k then
    (.ok (done "delete" k), { m with instances := m.instances.erase k })
  else (.error (.api 404 s!"The resource '{k}' was not found"), m)

/-! ## Records -/

/-- The key that the record of a machine is written under. -/
def recordKey (m : Machine) : String := key m.namespaceText m.metadata.nameOrStem

/-- The version of a record after one of version `version`. A version that is no number counts as
zero. -/
def nextVersion (version : Option String) : String :=
  toString ((version.bind fun v => Decimal.natural? 64 v.toList).getD 0 + 1)

/-- The record with a version. -/
def withVersion (m : Machine) (version : String) : Machine :=
  { m with metadata := { m.metadata with resourceVersion := some version } }

/-- The record of a machine. -/
def readRecord (m : Memory) (ns name : String) : Option Machine := m.records.get? (key ns name)

/-- Replaces the record of a machine. -/
def writeRecord (m : Memory) (machine : Machine) : Except Error Machine × Memory :=
  let ns := machine.namespaceText
  let name := machine.metadata.nameOrStem
  match m.records.get? (recordKey machine) with
  | none => (.error (.recordGone ns name), m)
  | some stored =>
    if stored.metadata.resourceVersion ≠ machine.metadata.resourceVersion then
      (.error (.conflict ns name), m)
    else
      let written := withVersion machine (nextVersion stored.metadata.resourceVersion)
      (.ok written, { m with records := m.records.insert (recordKey machine) written })

end Memory

end NodeProvisioner
