import NodeProvisioner.Compute.Instance
import NodeProvisioner.Config
import NodeProvisioner.Provider.Spec

/-!
# Instances for machines

The instance that a machine asks for. Its first disk holds the boot image and is at least as large
as the configuration demands; further disks start out empty. A machine without disks gets an
instance without disks.
-/

namespace NodeProvisioner

/-- All that an instance is made from. -/
structure Blueprint where
  cluster : Cluster
  machine : Machine
  spec : MachineProviderSpec
  image : String
  metadata : StringMap String

/-- The network tag of the workers of a cluster. -/
def workerTag (cluster : String) : String := cluster ++ "-worker"

/-- What the guest of an instance may do on behalf of its service account. -/
def cloudPlatformScope : String := "https://www.googleapis.com/auth/cloud-platform"

namespace Blueprint

/-- A disk; the first one, with the index zero, is the boot disk. -/
def disk (b : Blueprint) (config : Config) (disk : Disk) (index : Nat) : AttachedDisk :=
  let boot := index = 0
  let size := disk.params.sizeGb
  { autoDelete := true
    boot
    params := some
      { sizeGb := if boot then max size config.minBootDiskSize else size
        diskType := s!"zones/{b.spec.zone}/diskTypes/{disk.params.diskType}"
        sourceImage := if boot then b.image else "" } }

/-- The network tags. -/
def tags (b : Blueprint) : List String :=
  let worker := workerTag b.cluster.nameText
  if b.spec.isMaster then ["https-server", worker] else [worker]

/-- The instance. -/
def build (b : Blueprint) (config : Config) : Instance where
  name := b.machine.metadata.name.getD ""
  machineType := s!"zones/{b.spec.zone}/machineTypes/{b.spec.machineType}"
  canIpForward := true
  networkInterfaces :=
    [{ network := s!"global/networks/{config.network}"
       accessConfigs :=
        [{ name := "External NAT"
           kind := "ONE_TO_ONE_NAT"
           natIp := if b.spec.externalIp.isEmpty then none else some b.spec.externalIp }] }]
  disks := b.spec.disks.mapIdx fun index disk => b.disk config disk index
  metadata := some (.ofMap b.metadata)
  tags := some ⟨b.tags⟩
  serviceAccounts := [{ email := "default", scopes := [cloudPlatformScope] }]

end Blueprint

end NodeProvisioner
