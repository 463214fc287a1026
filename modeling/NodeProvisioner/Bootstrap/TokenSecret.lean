import NodeProvisioner.Bootstrap.Token
import NodeProvisioner.Resource.Secret

/-!
# Token secrets

The cluster accepts a token while it keeps a secret for it. The secret says what the token may be
used for, which group its bearer joins, and when it expires.
-/

namespace NodeProvisioner

/-- The type of the secrets of tokens. -/
def tokenSecretKind : String := "bootstrap.kubernetes.io/token"

/-- The group that a bearer of a token joins. -/
def nodeTokenGroup : String := "system:bootstrappers:kubeadm:default-node-token"

namespace BootstrapToken

/-- The values of the secret of a token. -/
def secretData (t : BootstrapToken) (expiration : Timestamp) : StringMap String :=
  .ofList
    [("token-id", t.idText), ("token-secret", t.secretText),
     ("expiration", expiration.print),
     ("usage-bootstrap-authentication", "true"), ("usage-bootstrap-signing", "true"),
     ("auth-extra-groups", nodeTokenGroup), ("description", "worker join token")]

/-- The secret of a token in a namespace, good until `expiration`. -/
def secretFor (t : BootstrapToken) (namespaceName : String) (expiration : Timestamp) : Secret :=
  { metadata := { name := some t.secretName, namespaceName := some namespaceName },
    stringData := some (t.secretData expiration),
    kind := some tokenSecretKind }

end BootstrapToken

end NodeProvisioner
