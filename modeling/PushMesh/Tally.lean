import PushMesh.Data.Ascending
import PushMesh.Data.Table
import PushMesh.Failure
import PushMesh.Operation.Wire

/-!
# Results of several nodes folded into one

The answers of the nodes to one operation are folded into a tally. Counts add up as words of 64
bits, connections are collected under node and connection id, keys are united, and a distinct count
is the number of united keys. Where two nodes describe the same connection the descriptor that came
first stands.
-/

namespace PushMesh

/-- What identifies a connection in the whole cluster. -/
structure ConnectionKey where
  nodeId : String
  id : ConnectionId
deriving DecidableEq

namespace ConnectionKey

/-- The order of connections: by node, then by number. -/
instance : Ord ConnectionKey := ⟨compareLex (compareOn (·.nodeId)) (compareOn (·.id))⟩

instance : Std.TransOrd ConnectionKey :=
  inferInstanceAs (Std.TransCmp (compareLex (compareOn nodeId) (compareOn id)))

instance : Std.LawfulEqOrd ConnectionKey where
  eq_of_compare {a b} h := by
    obtain ⟨h₁, h₂⟩ := Ordering.then_eq_eq.1 h
    have h₁ := Std.LawfulEqOrd.eq_of_compare h₁
    have h₂ := Std.LawfulEqOrd.eq_of_compare h₂
    cases a; cases b; simp_all

end ConnectionKey

/-- How a connection is identified. -/
def Descriptor.key (d : Descriptor) : ConnectionKey := ⟨d.nodeId, d.id⟩

/-- Connections under their keys. -/
abbrev ConnectionSet := Table ConnectionKey Descriptor

namespace ConnectionSet

/-- The set with a connection added, unless its key is there already. -/
def add (s : ConnectionSet) (d : Descriptor) : ConnectionSet := s.insertNew d.key d

/-- The connections of a list, the first of several with one key standing. -/
def ofList (l : List Descriptor) : ConnectionSet := l.foldl add ∅

/-- The connections of two sets, those of the first standing. -/
def merge (s t : ConnectionSet) : ConnectionSet :=
  t.entries.foldl (fun s e => s.insertNew e.1 e.2) s

end ConnectionSet

/-- The ways in which answers are folded. -/
inductive Tally.Kind where
  | count
  | connections
  | keys
  | distinct
deriving DecidableEq

/-- The folded answers of some nodes. -/
inductive Tally where
  | count (n : UInt64)
  | connections (set : ConnectionSet)
  | keys (set : Ascending String)
  /-- The keys whose number is the result. -/
  | distinct (set : Ascending String)
deriving DecidableEq

namespace Tally

/-- How the answers of a tally are folded. -/
def kind : Tally → Kind
  | count _ => .count
  | connections _ => .connections
  | keys _ => .keys
  | distinct _ => .distinct

/-- The tally of no answer. -/
def empty : Kind → Tally
  | .count => count 0
  | .connections => connections ∅
  | .keys => keys ∅
  | .distinct => distinct ∅

/-- The tally of two tallies of one kind; of two kinds the first stands. -/
def merge : Tally → Tally → Tally
  | count m, count n => count (m + n)
  | connections s, connections t => connections (s.merge t)
  | keys s, keys t => keys (s ∪ t)
  | distinct s, distinct t => distinct (s ∪ t)
  | s, _ => s

/-- The kind of answer that is folded. -/
def Kind.answer : Kind → String
  | .count => "count"
  | .connections => "connections"
  | .keys => "keys"
  | .distinct => "keys"

/-- The tally of one answer, if it is of the right kind. -/
def ofOutput (kind : Kind) (output : Output) : Except PeerError Tally :=
  match kind, output with
  | .count, .count n => .ok (count n)
  | .connections, .connections l => .ok (connections (ConnectionSet.ofList l))
  | .keys, .keys l => .ok (keys (Ascending.ofList l))
  | .distinct, .keys l => .ok (distinct (Ascending.ofList l))
  | kind, output => .error (.domain ("expected " ++ kind.answer ++ ", got " ++ output.kind))

/-- The number of things a tally holds; for a count the count itself. -/
def size : Tally → Nat
  | count n => n.toNat
  | connections s => s.size
  | keys s => s.size
  | distinct s => s.size

/-- The written form. -/
def toJson : Tally → Json
  | count n => .nat n.toNat
  | connections s => .list Descriptor.toJson s.values
  | keys s => .list .string s.toList
  | distinct s => .nat s.size

end Tally

end PushMesh
