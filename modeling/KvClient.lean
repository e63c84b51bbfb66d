import KvClient.Main
import KvClient.Rehearsal.Program
import KvClient.Rehearsal.Turnstile
import KvClient.Proofs.Frames
import KvClient.Proofs.Reassembly
import KvClient.Proofs.Link.Step
import KvClient.Proofs.Link.Written
import KvClient.Proofs.Link.Peer
import KvClient.Proofs.Link.Correlation
import KvClient.Proofs.Client.Step
import KvClient.Proofs.Client.Queue
import KvClient.Proofs.Client.Wire
import KvClient.Proofs.Link.Settlement
import KvClient.Proofs.Link.Arrival
import KvClient.Proofs.Link.Outcome
import KvClient.Proofs.Client.Closing
import KvClient.Proofs.Client.Absorbing
import KvClient.Proofs.Client.Late
import KvClient.Proofs.Client.Session
import KvClient.Proofs.Stored
import KvClient.Proofs.Gate
import KvClient.Proofs.Client.Refusal
import KvClient.Proofs.Json.Scalars
import KvClient.Proofs.Json.Roundtrip
import KvClient.Proofs.Entry.Roundtrip
import KvClient.Proofs.Limit
import KvClient.Proofs.Link.Completed
import KvClient.Proofs.Entry.Spelled
import KvClient.Proofs.Responses
import KvClient.Proofs.Text
import KvClient.Proofs.Recovery
import KvClient.Proofs.Entry.Shapes
import KvClient.Proofs.Client.Single
import KvClient.Proofs.Files
import KvClient.Proofs.Cli.Reimport
import KvClient.Proofs.Search
import KvClient.Proofs.Cli.OneFrame
