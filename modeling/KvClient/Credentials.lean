import KvClient.Config
import KvClient.Error

/-!
# Credentials

The texts of a key, a certificate chain and a list of authorities.  They are read before anything is
connected, so that an unreadable file is found at once; the key's file comes first.
-/

namespace KvClient

/-- Credentials, as they stand in their files. -/
structure Credentials where
  key : Bytes
  certificate : Bytes
  authority : Bytes
  deriving Repr, DecidableEq

namespace Credentials

/-- The content of one of the files. -/
def readFile (read : FileReader) (role : Tls.Role) (path : String) : Except Error Bytes :=
  match read path with
  | .error fault => .error (.setup (.unreadable role path fault))
  | .ok content => .ok content

/-- Reads the files that a configuration names. -/
def load (read : FileReader) (config : Config) : Except Error Credentials :=
  match readFile read .key config.keyPath with
  | .error e => .error e
  | .ok key =>
    match readFile read .certificate config.certificatePath with
    | .error e => .error e
    | .ok certificate =>
      match readFile read .authority config.authorityPath with
      | .error e => .error e
      | .ok authority => .ok ⟨key, certificate, authority⟩

/-- Credentials as they are shown to a programmer: their sizes only. -/
def describe (c : Credentials) : String :=
  "TlsCredentials \x7b " ++
    s!"key: <{c.key.length} bytes redacted>, cert: <{c.certificate.length} bytes>, " ++
    s!"ca: <{c.authority.length} bytes>" ++ " \x7d"

end Credentials

end KvClient
