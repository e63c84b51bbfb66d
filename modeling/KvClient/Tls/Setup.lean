import KvClient.Credentials
import KvClient.Tls.Certificate
import KvClient.Tls.PrivateKey
import KvClient.Tls.ServerName

/-!
# What a secure connection is set up with

Credentials become a list of authorities, a certificate chain and a key.  The authorities are read
and checked first, then the chain and the key are read, then the key and the first certificate of
the chain are checked.
-/

namespace KvClient.Tls

/-- The settings of a connection that presents a certificate. -/
structure Setup where
  authorities : List Bytes
  chain : List Bytes
  key : Pem.Section
  /-- The application protocols that are offered. -/
  protocols : List String
  /-- Whether the peer is told which name it is called by. -/
  sendsServerName : Bool
  deriving Repr, DecidableEq

/-- The certificates of one of the files, at least one. -/
def certificatesOf (role : Role) (text : Bytes) : Except Fault (List Bytes) :=
  match Pem.certificates text with
  | .error fault => .error (.badPem role fault)
  | .ok [] => .error (.noCertificates role)
  | .ok certificates => .ok certificates

/-- The first key of a file. -/
def keyOf (text : Bytes) : Except Fault Pem.Section :=
  match Pem.firstKey? text with
  | .error fault => .error (.badPem .key fault)
  | .ok none => .error .noKey
  | .ok (some key) => .ok key

/-- The settings that credentials make. -/
def Setup.ofCredentials (c : Credentials) : Except Fault Setup :=
  match certificatesOf .authority c.authority with
  | .error fault => .error fault
  | .ok authorities =>
    if !authorities.all Certificate.isWellFormed then .error .badAuthority
    else
      match certificatesOf .certificate c.certificate with
      | .error fault => .error fault
      | .ok chain =>
        match keyOf c.key with
        | .error fault => .error fault
        | .ok key =>
          if !PrivateKey.isWellFormed key then .error .badKey
          else if !((chain.take 1).all Certificate.isWellFormed) then .error .badCertificate
          else .ok ⟨authorities, chain, key, [], true⟩

/-- Everything that can be decided about a connection before a socket is opened. -/
def prepare (config : Config) (c : Credentials) : Except Error Setup :=
  match Setup.ofCredentials c with
  | .error fault => .error (.setup fault)
  | .ok setup =>
    if !ServerName.isValid config.serverName then
      .error (.setup (.badServerName config.serverName))
    else if config.host.toList.contains (Char.ofNat 0) then .error (.io .nulInName)
    else .ok setup

/-- The same for credentials that were handed over, or that are to be read. -/
def prepareWith (read : FileReader) (config : Config) (credentials? : Option Credentials) :
    Except Error Setup :=
  match credentials? with
  | some credentials => prepare config credentials
  | none =>
    match Credentials.load read config with
    | .error e => .error e
    | .ok credentials => prepare config credentials

end KvClient.Tls
