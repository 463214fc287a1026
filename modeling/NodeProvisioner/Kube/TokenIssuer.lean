import NodeProvisioner.Bootstrap.Error
import NodeProvisioner.Bootstrap.TokenSecret
import NodeProvisioner.Kube.Collection

/-!
# Issuing tokens

A token is issued by putting a secret for it into a namespace of the cluster. The token is handed
out only when the API server has answered with the secret.

A lifetime too long to be stated in milliseconds is refused. There is no time after the year
262142: a token that would expire later cannot be issued at all.
-/

namespace NodeProvisioner

/-- Issues tokens that are good for some seconds. -/
structure TokenIssuer where
  namespaceText : String
  lifetime : Nat
deriving Inhabited, DecidableEq

/-- The longest lifetime of a token, in seconds. -/
def longestLifetime : Nat := (1 <<< 63 - 1) / 1000

namespace TokenIssuer

variable (i : TokenIssuer)

/-- When a token issued at some time expires. -/
def expiration? (now : Timestamp) : Option Timestamp :=
  let seconds := now.seconds + i.lifetime
  if seconds ≤ Timestamp.lastSecond then some ⟨seconds, now.nanos⟩ else none

/-- The secret is put where the issuer keeps its secrets. -/
def register (token : BootstrapToken) (expiration : Timestamp) :
    Program HttpRequest.Answer (Except BootstrapError String) :=
  (secrets.create i.namespaceText (token.secretFor i.namespaceText expiration)).run.bind
    fun result => .done <| match result with
      | .ok _ => .ok token.toText
      | .error e => .error (.tokenCreation e.message)

/-- Issues a token drawn from blocks of random bytes. -/
def createToken (now : Timestamp) (blocks : List (List UInt8)) :
    Program HttpRequest.Answer (Except BootstrapError String) :=
  match BootstrapToken.generate blocks with
  | none => .done (.error (.tokenCreation "cryptographic RNG unavailable"))
  | some (token, _) =>
    if i.lifetime > longestLifetime then
      .done (.error (.tokenCreation
        "invalid token ttl: Source duration value is out of range for the target type"))
    else match i.expiration? now with
      | none => .abort
      | some expiration => i.register token expiration

end TokenIssuer

end NodeProvisioner
