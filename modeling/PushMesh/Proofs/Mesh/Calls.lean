import PushMesh.Mesh.Run
import PushMesh.Proofs.Mesh.Work
import PushMesh.Proofs.Registry.Perform

/-!
# One call

What the parts of a call do to a mesh, each as one equation: running the operation
(`execute_eq`), making an attempt (`begin_eq`), and ending it (`arrive_eq`). All of them note what
they do in the journal, and touch neither timers nor gathers. Running an operation changes the
registry of the callee and nothing else of the hosts, which `serveAt` says.

The hosts of a mesh have different ids; the equations rest on that.
-/

namespace PushMesh

/-- The host after it ran an operation for a peer. -/
def Host.serve (op : Operation) (h : Host) : Host :=
  { h with registry := (h.registry.respond op).1 }

/-- The hosts after the one of a node ran an operation for a peer. -/
def serveAt (node : String) (op : Operation) (hosts : List Host) : List Host :=
  hosts.map fun h => if h.self.id == node then h.serve op else h

/-- What a call brings if its operation is run. -/
def replyOf (hosts : List Host) (c : PeerCall) : Except PeerError Output :=
  match hosts.find? (·.self.id == c.callee.id) with
  | none => .error (.unreachable ("connect failed: " ++ c.callee.address ++ " refused"))
  | some h =>
    match c.operation.check with
    | .error e => .error (.domain e.text)
    | .ok () => .ok (h.registry.perform c.operation).2

/-- The note that an operation was run, if there is a host to run it. -/
def ranBy (hosts : List Host) (c : PeerCall) : List CallEvent :=
  if (hosts.find? (·.self.id == c.callee.id)).isSome then [.ran c] else []

/-- The links that calls to a node can meet. -/
def linksTo (links : Table String (List Link)) (node : String) : List Link :=
  match links.get? node with
  | none => [.direct]
  | some [] => [.direct]
  | some l => l

/-- The link that the next call to a node meets. -/
def nextLink (links : Table String (List Link)) (node : String) : Link :=
  match links.get? node with
  | some (link :: _) => link
  | _ => .direct

/-- The links after a call to a node has met the next: the last of a list stays. -/
def restLinks (links : Table String (List Link)) (node : String) : Table String (List Link) :=
  match links.get? node with
  | some (_ :: next :: rest) => links.insert node (next :: rest)
  | _ => links

/-- A call is run by one host at most. -/
theorem length_ranBy_le (hosts : List Host) (c : PeerCall) : (ranBy hosts c).length ≤ 1 := by
  unfold ranBy
  split
  · exact Nat.le_refl _
  · exact Nat.zero_le _

/-- What is noted of a call that is run is noted of that call. -/
theorem call_of_mem_ranBy {hosts : List Host} {c : PeerCall} {e : CallEvent}
    (he : e ∈ ranBy hosts c) :
    e.call = c := by
  unfold ranBy at he
  split at he
  · rw [List.mem_singleton.1 he]
    rfl
  · cases he

/-- A call to a node meets one of the links to it. -/
theorem nextLink_mem (links : Table String (List Link)) (node : String) :
    nextLink links node ∈ linksTo links node := by
  unfold nextLink linksTo
  cases links.get? node with
  | none => simp
  | some l => rcases l with _ | ⟨link, rest⟩ <;> simp

/-- Taking a link brings no new ones. -/
theorem linksTo_restLinks (links : Table String (List Link)) (node node' : String) :
    linksTo (restLinks links node) node' ⊆ linksTo links node' := by
  unfold restLinks
  cases hget : links.get? node with
  | none => exact fun _ h => h
  | some l =>
    rcases l with _ | ⟨link, _ | ⟨next, rest⟩⟩
    · exact fun _ h => h
    · exact fun _ h => h
    · unfold linksTo
      rw [Table.get?_insert]
      by_cases hnode : node' = node
      · subst hnode
        rw [hget, if_pos (beq_self_eq_true node')]
        exact List.subset_cons_self link (next :: rest)
      · rw [if_neg (by simpa using hnode)]
        exact fun _ h => h

namespace Link

/-- Whether the operation is run when a call starts. -/
def runsEarly (l : Link) : Bool :=
  l.runsFirst && match l.fate with
    | .runs => true
    | _ => false

/-- The result of an attempt that ends, unless the operation has still to be run. -/
def verdict (l : Link) (timeout : Nat) (early : Option (Except PeerError Output)) :
    Option (Except PeerError Output) :=
  if timeout < l.delay then some (.error (.timeout timeout))
  else
    match early, l.fate with
    | some result, _ => some result
    | none, .runs => none
    | none, .fails e => some (.error e)
    | none, .timesOut => some (.error (.timeout timeout))
    | none, .answers output => some (.ok output)

end Link

/-! ## Hosts -/

/-- A host of the list is the one that is found under its id. -/
theorem find?_of_mem {hosts : List Host} (hids : (hosts.map (·.self.id)).Nodup) {h : Host}
    (hh : h ∈ hosts) : hosts.find? (·.self.id == h.self.id) = some h := by
  induction hosts with
  | nil => cases hh
  | cons g hosts ih =>
    obtain ⟨hnew, hids⟩ := List.nodup_cons.1 hids
    rw [List.find?_cons]
    rcases List.mem_cons.1 hh with rfl | hh
    · simp
    · have hne : g.self.id ≠ h.self.id := fun heq => hnew (List.mem_map.2 ⟨h, hh, heq.symm⟩)
      rw [show (g.self.id == h.self.id) = false from beq_eq_false_iff_ne.2 hne]
      exact ih hids hh

/-- A host is found by its id iff it is one of the hosts. -/
theorem find?_eq_some_iff {hosts : List Host} (hids : (hosts.map (·.self.id)).Nodup)
    {node : String} {h : Host} :
    hosts.find? (·.self.id == node) = some h ↔ h ∈ hosts ∧ h.self.id = node := by
  constructor
  · intro hfind
    exact ⟨List.mem_of_find?_eq_some hfind, by simpa using List.find?_some hfind⟩
  · rintro ⟨hmem, rfl⟩
    exact find?_of_mem hids hmem

/-- Every host of an id is the one that is found by it. -/
theorem eq_of_find?_eq_some {hosts : List Host} (hids : (hosts.map (·.self.id)).Nodup) {node : String}
    {g h : Host} (hh : hosts.find? (·.self.id == node) = some h) (hg : g ∈ hosts)
    (hid : (g.self.id == node) = true) : g = h := by
  have hfind := find?_of_mem hids hg
  rw [beq_iff_eq.1 hid, hh] at hfind
  exact (Option.some.inj hfind).symm

/-- Where a node has no host, nothing is served. -/
theorem serveAt_of_find?_eq_none {hosts : List Host} {node : String}
    (h : hosts.find? (·.self.id == node) = none) (op : Operation) :
    serveAt node op hosts = hosts := by
  refine (List.map_congr_left fun g hg => ?_).trans (List.map_id hosts)
  rw [if_neg (List.find?_eq_none.1 h g hg)]
  rfl

/-- Where an operation is refused, nothing is served. -/
theorem serveAt_of_check {op : Operation} {e : Refusal} (h : op.check = .error e) (node : String)
    (hosts : List Host) : serveAt node op hosts = hosts := by
  refine (List.map_congr_left fun g _ => ?_).trans (List.map_id hosts)
  split
  · rw [Host.serve, Registry.fst_respond, h]
    rfl
  · rfl

/-- The one host of a node serves, and the others stay what they are. -/
theorem serveAt_of_find?_eq_some {hosts : List Host} (hids : (hosts.map (·.self.id)).Nodup)
    {node : String} {h : Host} (hh : hosts.find? (·.self.id == node) = some h) (op : Operation) :
    ∃ l₁ l₂, hosts = l₁ ++ h :: l₂ ∧ serveAt node op hosts = l₁ ++ h.serve op :: l₂ := by
  obtain ⟨hmem, rfl⟩ := (find?_eq_some_iff hids).1 hh
  obtain ⟨l₁, l₂, rfl⟩ := List.append_of_mem hmem
  refine ⟨l₁, l₂, rfl, ?_⟩
  rw [List.map_append, List.map_cons, List.nodup_append, List.nodup_cons] at hids
  obtain ⟨-, ⟨hback, -⟩, hfront⟩ := hids
  have hother : ∀ l : List Host, h.self.id ∉ l.map (·.self.id) →
      serveAt h.self.id op l = l := by
    intro l hl
    refine serveAt_of_find?_eq_none (List.find?_eq_none.2 fun g hg hid => ?_) op
    exact hl (List.mem_map.2 ⟨g, hg, beq_iff_eq.1 hid⟩)
  have hl₁ := hother l₁ fun hin => hfront _ hin _ (List.mem_cons_self ..) rfl
  have hl₂ := hother l₂ hback
  rw [serveAt] at hl₁ hl₂ ⊢
  rw [List.map_append, List.map_cons, hl₁, hl₂, if_pos (beq_self_eq_true _)]

namespace Mesh

/-! ## The parts of a call -/

/-- To put the registry after an operation in its place is to serve it. -/
theorem hosts_setRegistry {m : Mesh} (hids : (m.hosts.map (·.self.id)).Nodup) {node : String}
    {h : Host} (hh : m.hosts.find? (·.self.id == node) = some h) {op : Operation}
    (hcheck : op.check = .ok ()) :
    (m.setRegistry node h.registry (h.registry.perform op).1).hosts = serveAt node op m.hosts := by
  refine List.map_congr_left fun g hg => ?_
  split
  · next hid =>
    obtain rfl := eq_of_find?_eq_some hids hh hg hid
    rw [Host.serve, Registry.fst_respond, if_pos hcheck]
  · rfl

/-- Running the operation of a call changes the registry of the callee. -/
theorem execute_eq {m : Mesh} (hids : (m.hosts.map (·.self.id)).Nodup) (c : PeerCall) :
    ∃ metrics, m.execute c =
      ({ m with
          hosts := serveAt c.callee.id c.operation m.hosts
          metrics
          journal := m.journal ++ ranBy m.hosts c },
        replyOf m.hosts c) := by
  unfold execute replyOf ranBy
  cases hh : m.host? c.callee.id with
  | none =>
    rw [host?] at hh
    rw [hh, serveAt_of_find?_eq_none hh]
    exact ⟨m.metrics, by simp⟩
  | some h =>
    rw [host?] at hh
    dsimp only
    rw [hh, Registry.execute_eq]
    cases hcheck : c.operation.check with
    | error e =>
      rw [serveAt_of_check hcheck]
      exact ⟨m.metrics, rfl⟩
    | ok _ =>
      rw [← hosts_setRegistry hids hh hcheck]
      exact ⟨_, rfl⟩

/-- Taking a link leaves the rest of them. -/
theorem takeLink_eq (m : Mesh) (node : String) :
    m.takeLink node = ({ m with links := restLinks m.links node }, nextLink m.links node) := by
  unfold takeLink restLinks nextLink
  cases m.links.get? node with
  | none => rfl
  | some l => rcases l with _ | ⟨link, _ | ⟨next, rest⟩⟩ <;> rfl

/-- Making an attempt takes a link, and runs the operation if the link does that first. -/
theorem begin_eq {m : Mesh} (hids : (m.hosts.map (·.self.id)).Nodup) (c : PeerCall) :
    let link := nextLink m.links c.callee.id
    ∃ calls metrics, m.begin c =
      if link.runsEarly then
        ({ m with
            calls
            metrics
            links := restLinks m.links c.callee.id
            hosts := serveAt c.callee.id c.operation m.hosts
            journal := m.journal ++ [.began c] ++ ranBy m.hosts c },
          link, some (replyOf m.hosts c))
      else
        ({ m with
            calls
            metrics
            links := restLinks m.links c.callee.id
            journal := m.journal ++ [.began c] },
          link, none) := by
  intro link
  let record : CallRecord := ⟨c.caller, c.callee.id, c.operation.name⟩
  let started : Mesh := { m with
    calls := m.calls ++ [record]
    links := restLinks m.links c.callee.id
    journal := m.journal ++ [.began c] }
  -- the call is recorded and noted before its link is taken
  have htake : ({ m with calls := m.calls ++ [record] }.note (.began c)).takeLink c.callee.id =
      (started, link) := by
    rw [takeLink_eq]
    rfl
  obtain ⟨metrics, hexecute⟩ := execute_eq (m := started) hids c
  unfold begin
  dsimp only
  rw [htake]
  dsimp only
  cases hfirst : link.runsFirst with
  | false =>
    refine ⟨m.calls ++ [record], m.metrics, ?_⟩
    simp only [Link.runsEarly, hfirst, Bool.false_and, Bool.false_eq_true, if_false]
    rfl
  | true =>
    cases hfate : link.fate with
    | runs =>
      refine ⟨m.calls ++ [record], metrics, ?_⟩
      simp only [Link.runsEarly, hfirst, hfate, Bool.true_and, if_true, hexecute]
      rfl
    | fails _ | timesOut | answers _ =>
      refine ⟨m.calls ++ [record], m.metrics, ?_⟩
      simp only [Link.runsEarly, hfirst, hfate, Bool.and_false, Bool.false_eq_true, if_false]
      rfl

/-- Ending an attempt runs the operation if that has still to be done, and notes the result. -/
theorem arrive_eq {m : Mesh} (hids : (m.hosts.map (·.self.id)).Nodup) (c : PeerCall) (link : Link)
    (early : Option (Except PeerError Output)) :
    ∃ metrics, m.arrive c link early =
      match link.verdict c.timeout early with
      | some result => ({ m with metrics, journal := m.journal ++ [.ended c result] }, result)
      | none =>
        ({ m with
            metrics
            hosts := serveAt c.callee.id c.operation m.hosts
            journal := m.journal ++ ranBy m.hosts c ++ [.ended c (replyOf m.hosts c)] },
          replyOf m.hosts c) := by
  obtain ⟨metrics, hexecute⟩ := execute_eq hids c
  by_cases hlate : c.timeout < link.delay
  · refine ⟨m.metrics, ?_⟩
    simp only [arrive, answer, Link.verdict, if_pos hlate]
    rfl
  · simp only [arrive, answer, Link.verdict, if_neg hlate]
    cases early with
    | some result => exact ⟨m.metrics, rfl⟩
    | none =>
      cases hfate : link.fate with
      | runs =>
        refine ⟨metrics, ?_⟩
        rw [hexecute]
        rfl
      | fails _ | timesOut | answers _ => exact ⟨m.metrics, rfl⟩

/-! ## What calls leave alone -/

/-- What is noted of a call takes a mesh to another, and leaves timers and gathers alone. -/
structure Noted (c : PeerCall) (events : List CallEvent) (m m' : Mesh) : Prop where
  timers : m'.timers = m.timers
  gathers : m'.gathers = m.gathers
  journal : m'.journal = m.journal ++ events
  call : ∀ e ∈ events, e.call = c

theorem noted_append {c : PeerCall} {m m' : Mesh} {events events' : List CallEvent}
    (htimers : m'.timers = m.timers) (hgathers : m'.gathers = m.gathers)
    (hjournal : m'.journal = m.journal ++ events ++ events') (h : ∀ e ∈ events, e.call = c)
    (h' : ∀ e ∈ events', e.call = c) : Noted c (events ++ events') m m' where
  timers := htimers
  gathers := hgathers
  journal := by rw [hjournal, List.append_assoc]
  call e he := (List.mem_append.1 he).elim (h e) (h' e)

/-- A single note is about its call. -/
theorem call_of_mem_singleton {c : PeerCall} {e e' : CallEvent} (h : e.call = c)
    (he : e' ∈ [e]) : e'.call = c := by
  rw [List.mem_singleton.1 he]
  exact h

/-- An attempt is made: the operation is run at once and its reply is there early, or it is not. -/
theorem begin_cases {m : Mesh} (hids : (m.hosts.map (·.self.id)).Nodup) (c : PeerCall) :
    ∃ m', ((m.begin c = (m', nextLink m.links c.callee.id, some (replyOf m.hosts c)) ∧
          m'.hosts = serveAt c.callee.id c.operation m.hosts ∧
          Noted c ([.began c] ++ ranBy m.hosts c) m m') ∨
        (m.begin c = (m', nextLink m.links c.callee.id, none) ∧ m'.hosts = m.hosts ∧
          Noted c [.began c] m m')) ∧
      m'.links = restLinks m.links c.callee.id := by
  obtain ⟨calls, metrics, hbegin⟩ := begin_eq hids c
  by_cases hearly : (nextLink m.links c.callee.id).runsEarly = true
  · rw [if_pos hearly] at hbegin
    exact ⟨_, .inl ⟨hbegin, rfl, noted_append rfl rfl rfl
      (fun _ he => call_of_mem_singleton rfl he) fun _ he => call_of_mem_ranBy he⟩, rfl⟩
  · rw [if_neg hearly] at hbegin
    exact ⟨_, .inr ⟨hbegin, rfl, rfl, rfl, rfl, fun _ he => call_of_mem_singleton rfl he⟩, rfl⟩

/-- An attempt ends: with the verdict of its link, or by running the operation. -/
theorem arrive_cases {m : Mesh} (hids : (m.hosts.map (·.self.id)).Nodup) (c : PeerCall)
    (link : Link) (early : Option (Except PeerError Output)) :
    ∃ m', ((∃ r, link.verdict c.timeout early = some r ∧ m.arrive c link early = (m', r) ∧
          m'.hosts = m.hosts ∧ Noted c [.ended c r] m m') ∨
        (link.verdict c.timeout early = none ∧ m.arrive c link early = (m', replyOf m.hosts c) ∧
          m'.hosts = serveAt c.callee.id c.operation m.hosts ∧
          Noted c (ranBy m.hosts c ++ [.ended c (replyOf m.hosts c)]) m m')) ∧
      m'.links = m.links := by
  obtain ⟨metrics, harrive⟩ := arrive_eq hids c link early
  cases hverdict : link.verdict c.timeout early with
  | some r =>
    rw [hverdict] at harrive
    exact ⟨_, .inl ⟨r, rfl, harrive, rfl, rfl, rfl, rfl,
      fun _ he => call_of_mem_singleton rfl he⟩, rfl⟩
  | none =>
    rw [hverdict] at harrive
    exact ⟨_, .inr ⟨rfl, harrive, rfl, noted_append rfl rfl rfl
      (fun _ he => call_of_mem_ranBy he) fun _ he => call_of_mem_singleton rfl he⟩, rfl⟩

end Mesh

end PushMesh
