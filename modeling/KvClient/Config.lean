import KvClient.Duration
import KvClient.Protocol

/-!
# Configuration

Where the peer is, which files the credentials are in, and the limits that a client keeps to.
-/

namespace KvClient

/-- The port of the peer, unless told otherwise. -/
def defaultPort : Nat := 6842

/-- The configuration of a client. -/
structure Config where
  host : String
  port : Nat
  /-- The name that the peer's certificate is checked against, if it is not the host. -/
  serverName? : Option String
  certificatePath : String
  keyPath : String
  authorityPath : String
  /-- The limit on connecting. -/
  connectTimeout? : Option Duration
  /-- The limit on each exchange. -/
  requestTimeout? : Option Duration
  /-- The limit on a response that waits for its terminator. -/
  maxResponseSize : Nat
  deriving Repr, DecidableEq

namespace Config

/-- The configuration before anything is set. -/
def default : Config where
  host := "127.0.0.1"
  port := defaultPort
  serverName? := none
  certificatePath := "client.crt"
  keyPath := "client.key"
  authorityPath := "ca.crt"
  connectTimeout? := none
  requestTimeout? := none
  maxResponseSize := defaultMaxResponseSize

/-- The name that the peer's certificate is checked against. -/
def serverName (c : Config) : String := c.serverName?.getD c.host

/-- Host and port. -/
def endpoint (c : Config) : String := s!"{c.host}:{c.port}"

end Config

end KvClient
