import NodeProvisioner.Files

/-!
# Errors of the certificate authority
-/

namespace NodeProvisioner

/-- Why a certificate or a key cannot be read. -/
inductive ParseFault where
  | pem
  | certificate
  | privateKey
  | caCertificate
  | caKey
  | issuer
  | notAuthority (file : String)
  | other (message : String)
deriving Inhabited, DecidableEq, Repr

/-- Why a certificate cannot be signed. -/
inductive SigningFault where
  | dnsName (name : String)
  | other (message : String)
deriving Inhabited, DecidableEq, Repr

/-- An error of the certificate authority. -/
inductive PkiError where
  | keyGeneration (message : String)
  | signing (fault : SigningFault)
  | parse (fault : ParseFault)
  | io (fault : IoFault)
deriving Inhabited, DecidableEq, Repr

/-- The fault in words. -/
def ParseFault.message : ParseFault → String
  | pem => "failed to parse PEM"
  | certificate => "failed to parse certificate"
  | privateKey => "failed to parse private key"
  | caCertificate => "failed to parse CA cert"
  | caKey => "failed to load CA key"
  | issuer => "failed to create issuer"
  | notAuthority file => s!"{file} is not a CA certificate"
  | other message => message

/-- The fault in words. -/
def SigningFault.message : SigningFault → String
  | dnsName name => s!"invalid DNS name '{name}': Invalid IA5String: '{name}'"
  | other message => message

/-- The name of the kind of the error. -/
def PkiError.kind : PkiError → String
  | .keyGeneration _ => "KeyGenerationFailed"
  | .signing _ => "CertificateSigningFailed"
  | .parse _ => "ParseError"
  | .io _ => "Io"

/-- The error in words. -/
def PkiError.message : PkiError → String
  | keyGeneration message => s!"key generation failed: {message}"
  | signing fault => s!"certificate signing failed: {fault.message}"
  | parse fault => s!"certificate parsing error: {fault.message}"
  | io fault => s!"IO error: {fault.message}"

end NodeProvisioner
