import NodeProvisioner.Bootstrap.Error
import NodeProvisioner.Provider.Spec
import NodeProvisioner.Yaml.Reader

/-!
# Setups

A setup says which image the machines of certain shapes boot from and what their metadata contains
besides the boot script. Of all setups exactly one has to fit a machine.
-/

namespace NodeProvisioner

/-- What a setup depends on. Roles count as a set. -/
structure MachineShape where
  os : String
  roles : List Role
  versions : Versions
deriving Inhabited, DecidableEq

/-- A named piece of metadata. -/
structure MetadataItem where
  name : String
  value : String
deriving Inhabited, DecidableEq

/-- A setup for the machines of certain shapes. -/
structure Setup where
  shapes : List MachineShape
  image : String
  items : List MetadataItem := []
deriving Inhabited, DecidableEq

/-- All setups. -/
structure Setups where
  all : List Setup
deriving Inhabited, DecidableEq

namespace Codec

def machineShape : Codec MachineShape :=
  record (structFormat "ConfigParams")
    (.cons (.required "os" text) <| .cons (.required "roles" (list role)) <|
     .cons (.required "versions" versions) .nil)
    (fun (a, b, c, ()) => ⟨a, b, c⟩) (fun s => (s.os, s.roles, s.versions, ()))

def metadataItem : Codec MetadataItem :=
  record (structFormat "MetadataItem")
    (.cons (.required "name" text) <| .cons (.required "value" text) .nil)
    (fun (a, b, ()) => ⟨a, b⟩) (fun i => (i.name, i.value, ()))

def setup : Codec Setup :=
  record (structFormat "SetupConfig")
    (.cons (.required "machineParams" (list machineShape)) <| .cons (.required "image" text) <|
     .cons (.defaulted "metadata" (list metadataItem) []) .nil)
    (fun (a, b, c, ()) => ⟨a, b, c⟩) (fun s => (s.shapes, s.image, s.items, ()))

def setups : Codec Setups :=
  record (structFormat "ValidConfigs") (.cons (.required "items" (list setup)) .nil)
    (fun (a, ()) => ⟨a⟩) (fun s => (s.all, ()))

end Codec

namespace MachineShape

/-- The shape of a machine. -/
def ofMachine (spec : MachineProviderSpec) (versions : Versions) : MachineShape :=
  ⟨spec.os, spec.roles, versions⟩

/-- The shapes are the same, with the roles taken as sets. -/
def agrees (a b : MachineShape) : Bool :=
  a.os = b.os && a.roles.all b.roles.contains && b.roles.all a.roles.contains &&
    a.versions = b.versions

/-- The shape in words. -/
def describe (s : MachineShape) : String :=
  let roles := Text.bracketed (s.roles.map Role.name)
  let kubelet := Text.quoted s.versions.kubelet
  let controlPlane := Text.quoted s.versions.controlPlane
  let versions := s!"kubelet: {kubelet}, control_plane: {controlPlane}"
  s!"os={s.os} roles={roles} versions=MachineVersionInfo \x7b {versions} \x7d"

end MachineShape

/-- The setup fits the shape. -/
def Setup.fits (s : Setup) (shape : MachineShape) : Bool := s.shapes.any (·.agrees shape)

namespace Setups

/-- Reads setups from a text. -/
def ofYaml (yaml : String) (strict : Bool := false) : Except BootstrapError Setups :=
  (Yaml.read Codec.setups yaml strict).mapError fun e => .machineSetup (.invalid e.message)

/-- Reads setups from a file. -/
def ofFile (files : Files) (path : String) : Except BootstrapError Setups := do
  let yaml ← (files.readText path).mapError fun fault => .machineSetup (.unreadable path fault)
  ofYaml yaml

/-- The only setup that fits a shape. -/
def resolve (s : Setups) (shape : MachineShape) : Except BootstrapError Setup :=
  match s.all.filter (·.fits shape) with
  | [] => .error (.machineSetup (.noMatch shape.describe))
  | [setup] => .ok setup
  | _ => .error (.machineSetup (.manyMatches shape.describe))

end Setups

end NodeProvisioner
