import NodeProvisioner.Kube.Records
import NodeProvisioner.Kube.TokenIssuer
import NodeProvisioner.Pass.Lifecycle

/-!
# Provisioners

A provisioner is put together from parts. Records of machines may be kept by a store and tokens
issued by an issuer of one's own; otherwise the API server does both. The setups and the authority
are given, or read from the files that the configuration names.

What the API server does for a pass takes requests. So the calls of a pass are carried over to
effects: calls to parts of one's own, and requests.
-/

namespace NodeProvisioner

/-- What a provisioner is put together from. -/
structure Parts where
  /-- Records are kept by a store of one's own. -/
  hasStore : Bool := true
  /-- Tokens are issued by an issuer of one's own. -/
  hasIssuer : Bool := true
  /-- There is an API server. -/
  hasApi : Bool := false
  setups : Option Setups := none
  authority : Option KeyPair := none
  config : Config := {}
deriving Inhabited

/-- A provisioner of machines. -/
structure Provisioner where
  provisions : Provisions
  /-- Records are kept by the API server. -/
  recordsByApi : Bool := false
  /-- Tokens are issued by the API server. -/
  tokensByApi : Bool := false
deriving Inhabited

namespace Parts

variable (p : Parts)

/-- What is not there on its own is left to the API server, if there is one. -/
def leftToApi (isThere : Bool) (message : String) : Except Error Bool :=
  if isThere then .ok false else if p.hasApi then .ok true else .error (.validation message)

/-- The setups. -/
def chooseSetups (files : Files) : Except Error Setups :=
  match p.setups, p.config.setupFile with
  | some setups, _ => .ok setups
  | none, some path => (Setups.ofFile files path).mapError .bootstrap
  | none, none =>
    .error (.validation "machine setup configs or machineSetupConfigs path is required")

/-- The authority, if there is one. -/
def chooseAuthority (S : SignatureSystem) (files : Files) : Except Error (Option KeyPair) :=
  match p.authority, p.config.authorityDirectory with
  | some ca, _ => .ok (some ca)
  | none, some directory => (some <$> KeyPair.load S files directory).mapError .pki
  | none, none => .ok none

/-- Puts a provisioner together. -/
def assemble (S : SignatureSystem) (files : Files) : Except Error Provisioner := do
  p.config.validate
  let recordsByApi ← p.leftToApi p.hasStore "a machine store or kubernetes client is required"
  let tokensByApi ← p.leftToApi p.hasIssuer "a token issuer or kubernetes client is required"
  let setups ← p.chooseSetups files
  let authority ← p.chooseAuthority S files
  return { provisions := ⟨setups, authority, p.config⟩, recordsByApi, tokensByApi }

end Parts

/-! ## Effects -/

/-- What a pass does to the world. -/
inductive Effect where
  | call (c : Call)
  | request (r : HttpRequest)

/-- What an effect is answered with. -/
def Effect.Answer : Effect → Type
  | call c => c.Answer
  | request r => r.Answer

/-- Makes a call. -/
def Effect.ofCall (c : Call) : Program Effect.Answer c.Answer := .perform (Effect.call c)

/-- Makes requests. -/
def Effect.ofRequests {α : Type} (p : Program HttpRequest.Answer α) : Program Effect.Answer α :=
  p.translate fun r => .perform (Effect.request r)

/-- What the API server does in place of a call, at a time, with blocks of random bytes. -/
structure ApiServer where
  records : Bool
  issuer : Option TokenIssuer
  now : Timestamp
  blocks : List (List UInt8)

namespace ApiServer

/-- Carries a call over to effects. -/
def carry (s : ApiServer) : (c : Call) → Program Effect.Answer c.Answer
  | .readRecord ns name =>
    if s.records then Effect.ofRequests (KubeRecords.read ns name)
    else Effect.ofCall (.readRecord ns name)
  | .writeRecord m =>
    if s.records then Effect.ofRequests (KubeRecords.write m) else Effect.ofCall (.writeRecord m)
  | .createToken =>
    match s.issuer with
    | some issuer => Effect.ofRequests (issuer.createToken s.now s.blocks)
    | none => Effect.ofCall .createToken
  | c => Effect.ofCall c

/-- Carries a pass over to effects. -/
def carryPass {α : Type} (s : ApiServer) (pass : Pass α) :
    Program Effect.Answer (Except Error α) :=
  pass.run.translate s.carry

end ApiServer

namespace Provisioner

/-- The issuer of tokens that the configuration describes. -/
def issuer (p : Provisioner) : TokenIssuer :=
  ⟨p.provisions.config.tokenNamespace, p.provisions.config.tokenLifetime.toNat⟩

/-- What the API server does for the provisioner. -/
def api (p : Provisioner) (now : Timestamp) (blocks : List (List UInt8)) : ApiServer where
  records := p.recordsByApi
  issuer := if p.tokensByApi then some p.issuer else none
  now := now
  blocks := blocks

end Provisioner

end NodeProvisioner
