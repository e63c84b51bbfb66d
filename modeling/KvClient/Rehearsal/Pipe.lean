import KvClient.Bytes

/-!
# A pipe between two ends

The client and the peer of a rehearsal talk through a pipe.  It holds a bounded number of bytes in
each direction, and whoever finds it full waits for the other end to read.  An end that is dropped
leaves its bytes behind for the other to read; writing to a dropped end fails.

The client's end has two halves, one that writes and one that reads, and is dropped when both are.
Each half can be made to fail.
-/

namespace KvClient.Rehearsal

/-- What can be made to fail at the client's end. -/
inductive FaultKind
  | read
  | write
  | flush
  | shutdown
  deriving Repr, DecidableEq

/-- A pipe. -/
structure Pipe where
  /-- How many bytes each direction holds. -/
  capacity : Nat
  toPeer : Bytes
  toClient : Bytes
  /-- Whether the peer's end is there. -/
  peerOpen : Bool
  writerOpen : Bool
  readerOpen : Bool
  /-- Whether the writing half of the client has been shut down. -/
  shut : Bool
  faults : List FaultKind

namespace Pipe

/-- An empty pipe. -/
def new (capacity : Nat) : Pipe := ⟨capacity, [], [], true, true, true, false, []⟩

/-- A pipe with only the peer's end left. -/
def abandoned (capacity : Nat) : Pipe :=
  { new capacity with writerOpen := false, readerOpen := false }

/-- Whether the client's end is there. -/
def clientOpen (p : Pipe) : Bool := p.writerOpen || p.readerOpen

/-- Whether something fails. -/
def fails (p : Pipe) (k : FaultKind) : Bool := p.faults.contains k

/-- How many bytes the client can write. -/
def roomToPeer (p : Pipe) : Nat := p.capacity - p.toPeer.length

/-- How many bytes the peer can write. -/
def roomToClient (p : Pipe) : Nat := p.capacity - p.toClient.length

/-- Whether the client sends no more. -/
def clientDone (p : Pipe) : Bool := p.shut || !p.clientOpen

end Pipe

end KvClient.Rehearsal
