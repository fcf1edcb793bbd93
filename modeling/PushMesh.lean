import PushMesh.Discovery.Task
import PushMesh.Mesh.Shutdown
import PushMesh.Peer.Call
import PushMesh.Proofs.Api.Identity
import PushMesh.Proofs.Api.Wait
import PushMesh.Proofs.ConnectionSet
import PushMesh.Proofs.Discovery.Refresh
import PushMesh.Proofs.Discovery.Survival
import PushMesh.Proofs.Discovery.Window
import PushMesh.Proofs.Mesh.Accounting
import PushMesh.Proofs.Mesh.Agreement
import PushMesh.Proofs.Mesh.Arrival
import PushMesh.Proofs.Mesh.AtMostOnce
import PushMesh.Proofs.Mesh.Awaited
import PushMesh.Proofs.Mesh.Counts
import PushMesh.Proofs.Mesh.Departures
import PushMesh.Proofs.Mesh.Growth
import PushMesh.Proofs.Mesh.Looking
import PushMesh.Proofs.Mesh.Measured
import PushMesh.Proofs.Mesh.Receipts
import PushMesh.Proofs.Mesh.Refused
import PushMesh.Proofs.Mesh.Resolved
import PushMesh.Proofs.Mesh.Shutdown
import PushMesh.Proofs.Mesh.Unique
import PushMesh.Proofs.Operation.Response
import PushMesh.Proofs.Operation.Wire
import PushMesh.Proofs.Peer.Relay
import PushMesh.Proofs.Peer.Secret
import PushMesh.Proofs.Peer.Url
import PushMesh.Proofs.Registry.Admission
import PushMesh.Proofs.Registry.Listing
import PushMesh.Proofs.Registry.Reachable
import PushMesh.Proofs.Stream.Framing
import PushMesh.Proofs.Stream.LifeCycle
import PushMesh.Settings
