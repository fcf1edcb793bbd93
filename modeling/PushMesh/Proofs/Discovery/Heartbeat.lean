import PushMesh.Discovery.Heartbeat
import PushMesh.Proofs.Data.Table

/-!
# What a heartbeat sends

A heartbeat refreshes the entry of its own node, looks for the nodes that are gone, and removes none but
those that the look found (`heeds_heartbeat`). A look finds no node whose last heartbeat is within the
lifetime (`not_mem_expired`). A farewell removes nothing but the entry of its own node
(`leaves_deregister`).
-/

namespace PushMesh.Discovery

/-! ## The store -/

namespace Store

variable {s : Store} {id : String}

/-- A node is listed iff the time of its heartbeat passes. -/
theorem mem_idsWhere {p : Int → Bool} :
    id ∈ s.idsWhere p ↔ ∃ time, s.beats.get? id = some time ∧ p time = true := by
  rw [idsWhere, List.mem_map]
  simp only [List.mem_mergeSort, List.mem_filter, Table.get?_eq_some_iff]
  constructor
  · rintro ⟨e, ⟨he, hp⟩, rfl⟩
    exact ⟨e.2, he, hp⟩
  · rintro ⟨time, he, hp⟩
    exact ⟨(id, time), ⟨he, hp⟩, rfl⟩

/-- What is removed is gone, and everything else stays: by induction on what is removed. -/
theorem get?_foldl_erase {ν : Type} (ids : List String) (t : Table String ν) (id : String) :
    (ids.foldl Table.erase t).get? id = if id ∈ ids then none else t.get? id := by
  induction ids generalizing t with
  | nil => simp
  | cons k ids ih =>
    rw [List.foldl_cons, ih, Table.get?_erase]
    by_cases hk : id = k <;> simp [hk]

/-- The descriptor of a node after a command. -/
theorem get?_descriptors_run (s : Store) (c : Command) (id : String) :
    (s.run c).1.descriptors.get? id =
      match c with
      | .setDescriptor id' d => if id = id' then some d else s.descriptors.get? id
      | .removeDescriptors ids => if id ∈ ids then none else s.descriptors.get? id
      | _ => s.descriptors.get? id := by
  cases c with
  | setDescriptor id' d => simp [run]
  | removeDescriptors ids => exact get?_foldl_erase ids s.descriptors id
  | setBeat | beatsBefore | beatsFrom | removeBeats | getDescriptors => rfl

/-- The time of the last heartbeat of a node after a command. -/
theorem get?_beats_run (s : Store) (c : Command) (id : String) :
    (s.run c).1.beats.get? id =
      match c with
      | .setBeat id' time => if id = id' then some time else s.beats.get? id
      | .removeBeats ids => if id ∈ ids then none else s.beats.get? id
      | _ => s.beats.get? id := by
  cases c with
  | setBeat id' time => simp [run]
  | removeBeats ids => exact get?_foldl_erase ids s.beats id
  | setDescriptor | beatsBefore | beatsFrom | removeDescriptors | getDescriptors => rfl

end Store

/-! ## Too old -/

/-- A heartbeat counts as too old only if it is older than the lifetime, even where words of 64 bits
wrap around. -/
theorem toInt_cutoff_le {now : Int64} (hnow : 0 ≤ now.toInt) (seconds : UInt64) :
    (cutoff now seconds).toInt ≤ now.toInt - (lifetime seconds).toInt := by
  have hlow := Int64.le_toInt now
  have hhigh := Int64.toInt_lt now
  have hlife := Int64.toInt_lt (lifetime seconds)
  have hlife' := Int64.le_toInt (lifetime seconds)
  rw [cutoff, Int64.toInt_sub, Int.bmod_def]
  split <;> omega

/-- A look does not find a node whose last heartbeat is within the lifetime. -/
theorem not_mem_expired {s : Store} {id : String} {time : Int} (hbeat : s.beats.get? id = some time)
    {now : Int64} (hnow : 0 ≤ now.toInt) {seconds : UInt64}
    (halive : now.toInt ≤ time + (lifetime seconds).toInt) :
    id ∉ s.idsWhere (· < (cutoff now seconds).toInt) := by
  rw [Store.mem_idsWhere, hbeat]
  rintro ⟨time', htime, hlt⟩
  obtain rfl := Option.some.inj htime
  have hcutoff := toInt_cutoff_le hnow seconds
  rw [decide_eq_true_eq] at hlt
  omega

/-! ## Heartbeats -/

/-- What a heartbeat may remove after a reply: what the last look found. -/
def found (before : List String) : Command → Reply → List String
  | .beatsBefore _, .ids ids => ids
  | _, _ => before

/-- Whether a command is one of a heartbeat that began at a time and found some nodes to be gone: it
refreshes the own node, looks for nodes that are gone by that time, removes just those found, or reads. -/
def Fits (self : Node) (seconds : UInt64) (now : Int64) (expired : List String) : Command → Prop
  | .setDescriptor id d => id = self.id ∧ d = descriptorText self
  | .setBeat id time => id = self.id ∧ time = now.toInt
  | .beatsBefore time => time = (cutoff now seconds).toInt
  | .removeBeats ids => ids = expired
  | .removeDescriptors ids => ids = expired
  | .beatsFrom _ => True
  | .getDescriptors _ => True

/-- Whether all commands that are still sent are those of a heartbeat. -/
inductive Heeds (self : Node) (seconds : UInt64) (now : Int64) :
    List String → Exchange (List Node) → Prop where
  | done {expired : List String} (peers : List Node) : Heeds self seconds now expired (.done peers)
  | failed {expired : List String} : Heeds self seconds now expired .failed
  | ask {expired : List String} {c : Command} {next : Reply → Exchange (List Node)}
    (hfits : Fits self seconds now expired c)
    (hnext : ∀ reply, Heeds self seconds now (found expired c reply) (next reply)) :
    Heeds self seconds now expired (.ask c next)

variable {self : Node} {seconds : UInt64} {now : Int64} {expired : List String}

/-- Reading the peers removes nothing. -/
theorem heeds_readPeers (live : List String) :
    Heeds self seconds now expired (readPeers self live) := by
  rw [readPeers]
  split
  · exact .done _
  · refine .ask trivial fun reply => ?_
    cases reply with
    | descriptors l => exact .done _
    | done | ids _ => exact .failed

/-- Nothing is removed after the nodes that were found to be gone. -/
theorem heeds_list (time : Int) :
    Heeds self seconds now expired (.askIds (.beatsFrom time) (readPeers self)) := by
  refine .ask trivial fun reply => ?_
  cases reply with
  | ids live => exact heeds_readPeers live
  | done | descriptors _ => exact .failed

/-- **A heartbeat removes just what it found.** -/
theorem heeds_heartbeat (self : Node) (seconds : UInt64) (now : Int64) (expired : List String) :
    Heeds self seconds now expired (heartbeat self seconds now) := by
  rw [heartbeat]
  refine .ask ⟨rfl, rfl⟩ fun _ => .ask ⟨rfl, rfl⟩ fun _ => .ask rfl fun reply => ?_
  cases reply with
  | done | descriptors _ => exact .failed
  | ids expired =>
    dsimp only
    rw [prune]
    split
    · exact heeds_list _
    · exact .ask rfl fun _ => .ask rfl fun _ => heeds_list _

/-- Whether what a farewell still sends removes the entry of its own node and does nothing else. -/
inductive Leaves (self : Node) : Exchange Unit → Prop where
  | done (u : Unit) : Leaves self (.done u)
  | ask {c : Command} {next : Reply → Exchange Unit}
    (hown : c = .removeBeats [self.id] ∨ c = .removeDescriptors [self.id])
    (hnext : ∀ reply, Leaves self (next reply)) : Leaves self (.ask c next)

/-- A farewell removes the entry of its own node. -/
theorem leaves_deregister (self : Node) : Leaves self (deregister self) :=
  .ask (.inl rfl) fun _ => .ask (.inr rfl) fun _ => .done ()

end PushMesh.Discovery
