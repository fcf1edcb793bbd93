import PushMesh.Proofs.Discovery.Heartbeat

/-!
# Heartbeats of many nodes on one store

Any number of nodes send their heartbeats to one store. A command takes effect at once, but between any
two commands of a node there may be commands of the others, a session may be given up at any point, and
the clock that all of them share goes on. A world keeps, besides the store and what every node is about to
send, a log of the commands that took effect.

`moves_turn` says once what can happen in a turn: nothing to the store, a command of a heartbeat, or a
command of a farewell. What every reachable world has in common (`Orderly`) follows from that.
-/

namespace PushMesh.Discovery

/-- What a node is about to send. -/
inductive Session where
  | idle
  /-- The rest of a heartbeat, with the time at which it began and the nodes that it found to be gone. -/
  | beating (self : Node) (now : Int64) (expired : List String) (rest : Exchange (List Node))
  /-- The rest of a farewell. -/
  | leaving (self : Node) (rest : Exchange Unit)

/-- A command that took effect. -/
structure Deed where
  /-- The id of the node that sent it. -/
  node : String
  command : Command
  /-- Whether the node is going away. -/
  farewell : Bool
deriving DecidableEq

/-- A store and the nodes that use it. -/
structure World where
  store : Store
  /-- The time that all nodes read, in milliseconds. -/
  clock : Int64
  /-- What the nodes are about to send, by their ids. -/
  sessions : String → Session
  /-- The commands that took effect, in order. -/
  log : List Deed

/-- What can happen next. -/
inductive Turn where
  /-- The clock goes on to a time, unless it is past it. -/
  | pass (time : Int64)
  /-- A node that is idle begins a heartbeat. -/
  | beat (self : Node)
  /-- A node that is idle begins to go away. -/
  | leave (self : Node)
  /-- The next command of a node takes effect. -/
  | send (id : String)
  /-- A node sends nothing more of what it began. -/
  | abandon (id : String)

namespace World

/-- A world at its start: the store may hold anything, and no node has begun. -/
def start (store : Store) : World :=
  { store, clock := 0, sessions := fun _ => .idle, log := [] }

/-- The world with another session of a node. -/
def setSession (w : World) (id : String) (session : Session) : World :=
  { w with sessions := fun id' => if id' = id then session else w.sessions id' }

/-- The world after a command of a node, which then goes on with a session. -/
def act (w : World) (id : String) (c : Command) (farewell : Bool) (session : Session) : World :=
  { w.setSession id session with
    store := (w.store.run c).1
    log := w.log ++ [⟨id, c, farewell⟩] }

/-- The world after the next command of a node. -/
def send (w : World) (id : String) : World :=
  match w.sessions id with
  | .beating self now expired (.ask c next) =>
    let (_, rest) := (Exchange.ask c next).step w.store
    w.act id c false (.beating self now (found expired c (w.store.run c).2) rest)
  | .leaving self (.ask c next) =>
    let (_, rest) := (Exchange.ask c next).step w.store
    w.act id c true (.leaving self rest)
  | _ => w.setSession id .idle

/-- The world after a turn. -/
def turn (seconds : UInt64) (w : World) : Turn → World
  | .pass time => if w.clock ≤ time then { w with clock := time } else w
  | .beat self =>
    match w.sessions self.id with
    | .idle => w.setSession self.id (.beating self w.clock [] (heartbeat self seconds w.clock))
    | _ => w
  | .leave self =>
    match w.sessions self.id with
    | .idle => w.setSession self.id (.leaving self (deregister self))
    | _ => w
  | .send id => w.send id
  | .abandon id => w.setSession id .idle

/-- The world after some turns. -/
def run (seconds : UInt64) (w : World) (turns : List Turn) : World :=
  turns.foldl (turn seconds) w

end World

/-! ## What can happen in a turn -/

/-- Whether a session goes on as it was, ends or has just begun. -/
inductive Session.Settles (seconds : UInt64) (clock : Int64) (id : String) (before : Session) :
    Session → Prop where
  | same : Settles seconds clock id before before
  | idle : Settles seconds clock id before .idle
  | beating {self : Node} (hself : self.id = id) :
    Settles seconds clock id before (.beating self clock [] (heartbeat self seconds clock))
  | leaving {self : Node} (hself : self.id = id) :
    Settles seconds clock id before (.leaving self (deregister self))

/-- A node in a heartbeat was in it before, or has just begun it. -/
theorem Session.Settles.of_beating {seconds : UInt64} {clock now : Int64} {id : String}
    {before : Session} {self : Node} {expired : List String} {rest : Exchange (List Node)}
    (h : before.Settles seconds clock id (.beating self now expired rest)) :
    before = .beating self now expired rest ∨
      self.id = id ∧ now = clock ∧ expired = [] ∧ rest = heartbeat self seconds clock := by
  cases h with
  | same => exact .inl rfl
  | beating hself => exact .inr ⟨hself, rfl, rfl, rfl⟩

/-- A node that is going away was so before, or has just begun to. -/
theorem Session.Settles.of_leaving {seconds : UInt64} {clock : Int64} {id : String}
    {before : Session} {self : Node} {rest : Exchange Unit}
    (h : before.Settles seconds clock id (.leaving self rest)) :
    before = .leaving self rest ∨ self.id = id ∧ rest = deregister self := by
  cases h with
  | same => exact .inl rfl
  | leaving hself => exact .inr ⟨hself, rfl⟩

/-- Whether a world comes from another one by a turn. -/
inductive Moves (seconds : UInt64) (w : World) : World → Prop where
  | quiet {w' : World} (hstore : w'.store = w.store) (hlog : w'.log = w.log)
    (hclock : w.clock.toInt ≤ w'.clock.toInt)
    (hsessions : ∀ id, (w.sessions id).Settles seconds w.clock id (w'.sessions id)) :
    Moves seconds w w'
  | beats {id : String} {self : Node} {now : Int64} {expired : List String} {c : Command}
    {next : Reply → Exchange (List Node)}
    (hsession : w.sessions id = .beating self now expired (.ask c next)) :
    Moves seconds w (w.act id c false
      (.beating self now (found expired c (w.store.run c).2) (next (w.store.run c).2)))
  | leaves {id : String} {self : Node} {c : Command} {next : Reply → Exchange Unit}
    (hsession : w.sessions id = .leaving self (.ask c next)) :
    Moves seconds w (w.act id c true (.leaving self (next (w.store.run c).2)))

variable {seconds : UInt64} {w w' : World}

/-- Setting the session of one node leaves the others alone. -/
theorem sessions_setSession (w : World) (id : String) (session : Session) (id' : String) :
    (w.setSession id session).sessions id' = if id' = id then session else w.sessions id' := rfl

/-- A command of one node leaves the sessions of the others alone. -/
theorem sessions_act (w : World) (id : String) (c : Command) (farewell : Bool) (session : Session)
    (id' : String) : (w.act id c farewell session).sessions id' =
      if id' = id then session else w.sessions id' := rfl

/-- After a command of a node, a session is what the node goes on with, or was so before. -/
theorem sessions_act_cases {id id' : String} {c : Command} {farewell : Bool} {session s : Session}
    (h : (w.act id c farewell session).sessions id' = s) :
    id' = id ∧ session = s ∨ w.sessions id' = s := by
  rw [sessions_act] at h
  split at h
  · next heq => exact .inl ⟨heq, h⟩
  · exact .inr h

/-- Another session of one node is all that changes. -/
theorem Moves.setSession {id : String} {session : Session}
    (h : (w.sessions id).Settles seconds w.clock id session) :
    Moves seconds w (w.setSession id session) := by
  refine .quiet rfl rfl (Int.le_refl _) fun id' => ?_
  rw [sessions_setSession]
  split
  · next heq =>
    subst heq
    exact h
  · exact .same

/-- A world in which nothing moves moves to itself. -/
theorem Moves.rfl' : Moves seconds w w :=
  .quiet rfl rfl (Int.le_refl _) fun _ => .same

/-- Sending a command moves a world. -/
theorem moves_send (id : String) : Moves seconds w (w.send id) := by
  rw [World.send]
  split
  · next hsession => exact .beats hsession
  · next hsession => exact .leaves hsession
  · exact .setSession .idle

/-- Any turn moves a world. -/
theorem moves_turn (turn : Turn) : Moves seconds w (w.turn seconds turn) := by
  cases turn with
  | pass time =>
    rw [World.turn]
    split
    · next hle => exact .quiet rfl rfl (Int64.le_iff_toInt_le.1 hle) fun _ => .same
    · exact .rfl'
  | beat self =>
    rw [World.turn]
    split
    · exact .setSession (.beating rfl)
    · exact .rfl'
  | leave self =>
    rw [World.turn]
    split
    · exact .setSession (.leaving rfl)
    · exact .rfl'
  | send id => exact moves_send id
  | abandon id => exact .setSession .idle

/-- What every turn keeps holds after a run: by induction on the turns. -/
theorem World.run_induction {P : World → Prop} (hstep : ∀ w w', Moves seconds w w' → P w → P w')
    (turns : List Turn) (hw : P w) : P (w.run seconds turns) := by
  induction turns generalizing w with
  | nil => exact hw
  | cons turn turns ih => exact ih (hstep _ _ (moves_turn turn) hw)

/-! ## What all worlds have in common -/

/-- Whether every session is what is left of a heartbeat that began in the past, or of a farewell, and
whether no refresh of a node is later than the clock or than the heartbeat that the node is about to
send. -/
structure Orderly (seconds : UInt64) (w : World) : Prop where
  clock : 0 ≤ w.clock.toInt
  beating : ∀ id self now expired rest, w.sessions id = .beating self now expired rest →
    self.id = id ∧ 0 ≤ now.toInt ∧ now.toInt ≤ w.clock.toInt ∧ Heeds self seconds now expired rest
  leaving : ∀ id self rest, w.sessions id = .leaving self rest → self.id = id ∧ Leaves self rest
  refreshed : ∀ id time farewell, ⟨id, .setBeat id time, farewell⟩ ∈ w.log → time ≤ w.clock.toInt
  monotone : ∀ id time farewell self now expired rest, ⟨id, .setBeat id time, farewell⟩ ∈ w.log →
    w.sessions id = .beating self now expired rest → time ≤ now.toInt

/-- At the start everything is in order. -/
theorem orderly_start (store : Store) : Orderly seconds (World.start store) where
  clock := Int.le_refl 0
  beating _ _ _ _ _ h := nomatch h
  leaving _ _ _ h := nomatch h
  refreshed _ _ _ h := absurd h List.not_mem_nil
  monotone _ _ _ _ _ _ _ h := absurd h List.not_mem_nil

/-- A turn in which nothing is sent keeps the order: a heartbeat that begins reads the clock. -/
theorem Orderly.quiet (h : Orderly seconds w) (hlog : w'.log = w.log)
    (hclock : w.clock.toInt ≤ w'.clock.toInt)
    (hsessions : ∀ id, (w.sessions id).Settles seconds w.clock id (w'.sessions id)) :
    Orderly seconds w' where
  clock := Int.le_trans h.clock hclock
  beating := by
    intro id self now expired rest hs
    rcases (hs ▸ hsessions id).of_beating with hs | ⟨hself, rfl, rfl, rfl⟩
    · obtain ⟨hself, hnow, hpast, hrest⟩ := h.beating _ _ _ _ _ hs
      exact ⟨hself, hnow, Int.le_trans hpast hclock, hrest⟩
    · exact ⟨hself, h.clock, hclock, heeds_heartbeat self seconds w.clock []⟩
  leaving := by
    intro id self rest hs
    rcases (hs ▸ hsessions id).of_leaving with hs | ⟨hself, rfl⟩
    · exact h.leaving _ _ _ hs
    · exact ⟨hself, leaves_deregister self⟩
  refreshed := fun id time farewell he => Int.le_trans (h.refreshed _ _ _ (hlog ▸ he)) hclock
  monotone := by
    intro id time farewell self now expired rest he hs
    rcases (hs ▸ hsessions id).of_beating with hs | ⟨-, rfl, -, -⟩
    · exact h.monotone _ _ _ _ _ _ _ (hlog ▸ he) hs
    · exact h.refreshed _ _ _ (hlog ▸ he)

/-- A heartbeat that goes on keeps the order: a refresh that takes effect is as old as it. -/
theorem Orderly.beats (h : Orderly seconds w) {id : String} {self : Node} {now : Int64}
    {expired : List String} {c : Command} {next : Reply → Exchange (List Node)}
    (hsession : w.sessions id = .beating self now expired (.ask c next)) :
    Orderly seconds (w.act id c false
      (.beating self now (found expired c (w.store.run c).2) (next (w.store.run c).2))) := by
  obtain ⟨hself, hnow, hpast, hrest⟩ := h.beating _ _ _ _ _ hsession
  cases hrest with | ask hfits hnext =>
  -- the log has one deed more, which is a refresh only at the time of this heartbeat
  have hlast : ∀ id' time farewell, ⟨id', .setBeat id' time, farewell⟩ ∈ w.log ++ [⟨id, c, false⟩] →
      ⟨id', .setBeat id' time, farewell⟩ ∈ w.log ∨ id' = id ∧ time = now.toInt := by
    intro id' time farewell he
    rcases List.mem_append.1 he with he | he
    · exact .inl he
    · cases List.mem_singleton.1 he
      exact .inr ⟨rfl, hfits.2⟩
  refine ⟨h.clock, ?_, ?_, ?_, ?_⟩
  · intro id' self' now' expired' rest' hs
    rcases sessions_act_cases hs with ⟨heq, hnew⟩ | hbefore
    · cases hnew
      exact ⟨hself.trans heq.symm, hnow, hpast, hnext _⟩
    · exact h.beating _ _ _ _ _ hbefore
  · intro id' self' rest' hs
    rcases sessions_act_cases hs with ⟨-, hnew⟩ | hbefore
    · cases hnew
    · exact h.leaving _ _ _ hbefore
  · intro id' time farewell he
    rcases hlast id' time farewell he with he | ⟨-, rfl⟩
    · exact h.refreshed _ _ _ he
    · exact hpast
  · intro id' time farewell self' now' expired' rest' he hs
    rw [sessions_act] at hs
    rcases hlast id' time farewell he with he | ⟨rfl, rfl⟩
    · split at hs
      · next heq =>
        cases hs
        exact h.monotone _ _ _ _ _ _ _ he (heq ▸ hsession)
      · exact h.monotone _ _ _ _ _ _ _ he hs
    · rw [if_pos rfl] at hs
      cases hs
      exact Int.le_refl _

/-- A farewell that goes on keeps the order: no refresh is part of it. -/
theorem Orderly.leaves (h : Orderly seconds w) {id : String} {self : Node} {c : Command}
    {next : Reply → Exchange Unit} (hsession : w.sessions id = .leaving self (.ask c next)) :
    Orderly seconds (w.act id c true (.leaving self (next (w.store.run c).2))) := by
  obtain ⟨hself, hrest⟩ := h.leaving _ _ _ hsession
  cases hrest with | ask hown hnext =>
  have hlast : ∀ id' time farewell, ⟨id', .setBeat id' time, farewell⟩ ∈ w.log ++ [⟨id, c, true⟩] →
      ⟨id', .setBeat id' time, farewell⟩ ∈ w.log := by
    intro id' time farewell he
    rcases List.mem_append.1 he with he | he
    · exact he
    · cases List.mem_singleton.1 he
      rcases hown with hown | hown <;> cases hown
  refine ⟨h.clock, ?_, ?_, ?_, ?_⟩
  · intro id' self' now' expired' rest' hs
    rcases sessions_act_cases hs with ⟨-, hnew⟩ | hbefore
    · cases hnew
    · exact h.beating _ _ _ _ _ hbefore
  · intro id' self' rest' hs
    rcases sessions_act_cases hs with ⟨heq, hnew⟩ | hbefore
    · cases hnew
      exact ⟨hself.trans heq.symm, hnext _⟩
    · exact h.leaving _ _ _ hbefore
  · exact fun id' time farewell he => h.refreshed _ _ _ (hlast id' time farewell he)
  · intro id' time farewell self' now' expired' rest' he hs
    rcases sessions_act_cases hs with ⟨-, hnew⟩ | hbefore
    · cases hnew
    · exact h.monotone _ _ _ _ _ _ _ (hlast id' time farewell he) hbefore

/-- A world in order stays so as it moves. -/
theorem Orderly.moves (h : Orderly seconds w) (hmoves : Moves seconds w w') : Orderly seconds w' := by
  cases hmoves with
  | quiet _ hlog hclock hsessions => exact h.quiet hlog hclock hsessions
  | beats hsession => exact h.beats hsession
  | leaves hsession => exact h.leaves hsession

/-- A world is in order at any moment of a run. -/
theorem orderly_run (store : Store) (turns : List Turn) :
    Orderly seconds ((World.start store).run seconds turns) :=
  World.run_induction (fun _ _ hmoves h => h.moves hmoves) turns (orderly_start store)

end PushMesh.Discovery
