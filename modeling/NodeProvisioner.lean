import NodeProvisioner.Backoff
import NodeProvisioner.Bootstrap.Error
import NodeProvisioner.Bootstrap.Provisions
import NodeProvisioner.Bootstrap.Script
import NodeProvisioner.Bootstrap.Setup
import NodeProvisioner.Bootstrap.Token
import NodeProvisioner.Bootstrap.TokenSecret
import NodeProvisioner.Codec.Basic
import NodeProvisioner.Codec.Record
import NodeProvisioner.Compute.Blueprint
import NodeProvisioner.Compute.Instance
import NodeProvisioner.Compute.Operation
import NodeProvisioner.Compute.Wait
import NodeProvisioner.Config
import NodeProvisioner.Crypto.Curve
import NodeProvisioner.Crypto.Digest
import NodeProvisioner.Crypto.Ecdsa
import NodeProvisioner.Decimal.Layout
import NodeProvisioner.Decimal.Reading
import NodeProvisioner.Decimal.Shortest
import NodeProvisioner.Document.Fault
import NodeProvisioner.Document.Node
import NodeProvisioner.Duration
import NodeProvisioner.Encoding.Base64
import NodeProvisioner.Encoding.Der
import NodeProvisioner.Encoding.Pem
import NodeProvisioner.Error
import NodeProvisioner.Files
import NodeProvisioner.Json.Basic
import NodeProvisioner.Json.Lexeme
import NodeProvisioner.Json.Printer
import NodeProvisioner.Json.Reader
import NodeProvisioner.Kube.Collection
import NodeProvisioner.Kube.Error
import NodeProvisioner.Kube.Http
import NodeProvisioner.Kube.Records
import NodeProvisioner.Kube.TokenIssuer
import NodeProvisioner.Net.Address
import NodeProvisioner.Net.Block
import NodeProvisioner.Pass.Call
import NodeProvisioner.Pass.Lifecycle
import NodeProvisioner.Pass.Metadata
import NodeProvisioner.Pass.Site
import NodeProvisioner.Pki.AltNames
import NodeProvisioner.Pki.Authority
import NodeProvisioner.Pki.Certificate
import NodeProvisioner.Pki.Error
import NodeProvisioner.Pki.ObjectId
import NodeProvisioner.Pki.PrivateKey
import NodeProvisioner.Pki.Request
import NodeProvisioner.Pki.Signature
import NodeProvisioner.Program
import NodeProvisioner.Proofs.Acceptance
import NodeProvisioner.Proofs.BootScripts
import NodeProvisioner.Proofs.CallOrder
import NodeProvisioner.Proofs.Calls.Drafts
import NodeProvisioner.Proofs.Calls.Logs
import NodeProvisioner.Proofs.Calls.Parts
import NodeProvisioner.Proofs.Calls.Passes
import NodeProvisioner.Proofs.Ceiling
import NodeProvisioner.Proofs.CertifiedNames
import NodeProvisioner.Proofs.Codec.Accepting
import NodeProvisioner.Proofs.Codec.Carrying
import NodeProvisioner.Proofs.Codec.Machines
import NodeProvisioner.Proofs.Codec.Records
import NodeProvisioner.Proofs.Codec.Returning
import NodeProvisioner.Proofs.Codec.RoundTrips
import NodeProvisioner.Proofs.Codec.Steadiness
import NodeProvisioner.Proofs.Confinement
import NodeProvisioner.Proofs.Confinement.Attempts
import NodeProvisioner.Proofs.Confinement.Memories
import NodeProvisioner.Proofs.Confinement.Passes
import NodeProvisioner.Proofs.Confinement.Reaches
import NodeProvisioner.Proofs.Contention
import NodeProvisioner.Proofs.Contention.Archives
import NodeProvisioner.Proofs.Crypto.Ecdsa
import NodeProvisioner.Proofs.Decimal.Magnitudes
import NodeProvisioner.Proofs.Decimal.Naturals
import NodeProvisioner.Proofs.Decimal.Scaling
import NodeProvisioner.Proofs.Encoding.Der
import NodeProvisioner.Proofs.Encoding.Pem
import NodeProvisioner.Proofs.InstanceShapes
import NodeProvisioner.Proofs.Json.Arrangement
import NodeProvisioner.Proofs.Json.Building
import NodeProvisioner.Proofs.Json.Canonical
import NodeProvisioner.Proofs.Json.Documents
import NodeProvisioner.Proofs.Json.Floats
import NodeProvisioner.Proofs.Json.Grammar
import NodeProvisioner.Proofs.Json.Lexing
import NodeProvisioner.Proofs.Json.Numbers
import NodeProvisioner.Proofs.Json.Printing
import NodeProvisioner.Proofs.Json.Ranges
import NodeProvisioner.Proofs.Json.Reading
import NodeProvisioner.Proofs.Json.Scanning
import NodeProvisioner.Proofs.Json.Texts
import NodeProvisioner.Proofs.Keeping
import NodeProvisioner.Proofs.Keeping.Records
import NodeProvisioner.Proofs.Keeping.Shapes
import NodeProvisioner.Proofs.Kube.Exchanges
import NodeProvisioner.Proofs.Metadata
import NodeProvisioner.Proofs.Net.Addresses
import NodeProvisioner.Proofs.Net.Blocks
import NodeProvisioner.Proofs.OneInstance
import NodeProvisioner.Proofs.Outcomes
import NodeProvisioner.Proofs.Pauses
import NodeProvisioner.Proofs.Pki.Certificates
import NodeProvisioner.Proofs.Presence
import NodeProvisioner.Proofs.Recovery
import NodeProvisioner.Proofs.Refusals
import NodeProvisioner.Proofs.Removal
import NodeProvisioner.Proofs.Repetition
import NodeProvisioner.Proofs.Retrying
import NodeProvisioner.Proofs.Runs.Buildable
import NodeProvisioner.Proofs.Runs.ControlPlanes
import NodeProvisioner.Proofs.Runs.Courses
import NodeProvisioner.Proofs.Runs.Ends
import NodeProvisioner.Proofs.Runs.Histories
import NodeProvisioner.Proofs.Runs.Parts
import NodeProvisioner.Proofs.Runs.Passes
import NodeProvisioner.Proofs.Runs.Scenes
import NodeProvisioner.Proofs.Runs.Workers
import NodeProvisioner.Proofs.Secrets
import NodeProvisioner.Proofs.ServerNames
import NodeProvisioner.Proofs.ServiceAddresses
import NodeProvisioner.Proofs.SetupChoice
import NodeProvisioner.Proofs.Signing
import NodeProvisioner.Proofs.Snapshots
import NodeProvisioner.Proofs.Snapshots.RoundTrip
import NodeProvisioner.Proofs.Snapshots.Writes
import NodeProvisioner.Proofs.Teardown
import NodeProvisioner.Proofs.Text.Entries
import NodeProvisioner.Proofs.Time.Dates
import NodeProvisioner.Proofs.Time.Timestamps
import NodeProvisioner.Proofs.TokenGrammar
import NodeProvisioner.Proofs.Tokens
import NodeProvisioner.Proofs.Truth
import NodeProvisioner.Proofs.Vanished
import NodeProvisioner.Proofs.Waiting
import NodeProvisioner.Proofs.WireShapes
import NodeProvisioner.Provider.Spec
import NodeProvisioner.Provisioner
import NodeProvisioner.Resource.Cluster
import NodeProvisioner.Resource.Machine
import NodeProvisioner.Resource.ObjectMeta
import NodeProvisioner.Resource.Secret
import NodeProvisioner.Simulation.Faults
import NodeProvisioner.Simulation.Memory
import NodeProvisioner.Simulation.Responses
import NodeProvisioner.Simulation.Scenario
import NodeProvisioner.Simulation.Trials
import NodeProvisioner.Snapshot
import NodeProvisioner.StringMap
import NodeProvisioner.Text.Hex
import NodeProvisioner.Text.Place
import NodeProvisioner.Text.Properties
import NodeProvisioner.Text.Quoted
import NodeProvisioner.Text.Unprintable
import NodeProvisioner.Time.Date
import NodeProvisioner.Time.Timestamp
import NodeProvisioner.Yaml.Cursor
import NodeProvisioner.Yaml.Lexer
import NodeProvisioner.Yaml.Plain
import NodeProvisioner.Yaml.Reader
import NodeProvisioner.Yaml.Scalar
import NodeProvisioner.Yaml.Token
