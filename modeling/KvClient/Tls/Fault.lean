import KvClient.Files
import KvClient.Tls.Pem

/-!
# What can be wrong with credentials

Everything that keeps a connection from being tried: files, sections, certificates, keys, and the
name that the server's certificate would be checked against.
-/

namespace KvClient.Tls

/-- The three files that credentials are read from. -/
inductive Role
  | key
  | certificate
  | authority
  deriving Repr, DecidableEq

/-- How a message about an unreadable file calls it. -/
def Role.fileName : Role → String
  | .key => "private key"
  | .certificate => "certificate"
  | .authority => "CA bundle"

/-- How a message about its content calls it. -/
def Role.contentName : Role → String
  | .key => "private key"
  | .certificate => "client certificate"
  | .authority => "CA bundle"

/-- Why credentials cannot be used. -/
inductive Fault
  | unreadable (role : Role) (path : String) (fault : SystemFault)
  | badPem (role : Role) (fault : Pem.Fault)
  | noCertificates (role : Role)
  | noKey
  | badAuthority
  | badKey
  | badCertificate
  | badServerName (name : String)
  | other (text : String)
  deriving Repr, DecidableEq

/-- The wording of a fault. -/
def Fault.message : Fault → String
  | .unreadable role path fault => s!"failed to read {role.fileName} '{path}': {fault.message}"
  | .badPem role fault => s!"failed to parse {role.contentName}: {fault.message}"
  | .noCertificates role => s!"no certificates found in {role.contentName}"
  | .noKey => "no private key found"
  | .badAuthority => "invalid CA certificate: invalid peer certificate: BadEncoding"
  | .badKey =>
    "client certificate rejected: unexpected error: " ++
      "failed to parse private key as RSA, ECDSA, or EdDSA"
  | .badCertificate => "client certificate rejected: invalid peer certificate: BadEncoding"
  | .badServerName name => s!"invalid server name '{name}': invalid dns name"
  | .other text => text

end KvClient.Tls
