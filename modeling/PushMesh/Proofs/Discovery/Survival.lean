import PushMesh.Proofs.Discovery.Interleaving

/-!
# How long a node stays in the store

A node that has refreshed its entry stays in the store for its lifetime, unless it goes away or a removal
takes effect that rests on a look made before the refresh (`listed_run`). Such a removal is possible: the
look and the removal are two commands, and the refresh can come between them (`not_listed_laggard`).
-/

namespace PushMesh.Discovery

namespace Command

/-- Whether a command removes a node. -/
def removes (id : String) : Command → Prop
  | removeBeats ids => id ∈ ids
  | removeDescriptors ids => id ∈ ids
  | _ => False

instance (id : String) (c : Command) : Decidable (c.removes id) :=
  match c with
  | removeBeats ids => inferInstanceAs (Decidable (id ∈ ids))
  | removeDescriptors ids => inferInstanceAs (Decidable (id ∈ ids))
  | setDescriptor _ _ | setBeat _ _ | beatsBefore _ | beatsFrom _ | getDescriptors _ =>
    isFalse fun h => h

/-- Whether a command looks for nodes that are gone. -/
def isLook : Command → Prop
  | beatsBefore _ => True
  | _ => False

end Command

/-! ## What a command does to the entry of a node -/

/-- Whether the store holds a descriptor of a node: the given one, or one that the node wrote later. -/
def Described (id d : String) (deeds : List Deed) (s : Store) : Prop :=
  ∃ d', s.descriptors.get? id = some d' ∧ (d' = d ∨ ⟨id, .setDescriptor id d', false⟩ ∈ deeds)

/-- Whether the store holds a heartbeat of a node at a time or later. -/
def Alive (id : String) (time : Int) (s : Store) : Prop :=
  ∃ time', time ≤ time' ∧ s.beats.get? id = some time'

variable {id d : String} {time : Int} {deeds : List Deed} {s : Store} {e : Deed}

/-- A descriptor that no command removes stays, or gives way to one that the node itself wrote. -/
theorem Described.run (h : Described id d deeds s)
    (hkept : ∀ ids, e.command = .removeDescriptors ids → id ∉ ids)
    (hset : ∀ d', e.command = .setDescriptor id d' → e.node = id ∧ e.farewell = false) :
    Described id d (deeds ++ [e]) (s.run e.command).1 := by
  obtain ⟨d', hd', hwritten⟩ := h
  have hstill : d' = d ∨ ⟨id, .setDescriptor id d', false⟩ ∈ deeds ++ [e] :=
    hwritten.imp_right (List.mem_append_left _)
  obtain ⟨node, c, farewell⟩ := e
  rw [Described]
  simp only [Store.get?_descriptors_run]
  cases c with
  | setDescriptor id' d'' =>
    dsimp only
    split
    · next heq =>
      subst heq
      obtain ⟨hnode, hstays⟩ := hset d'' rfl
      -- the new descriptor is one that the node wrote
      have hlast : (⟨id, .setDescriptor id d'', false⟩ : Deed) =
          ⟨node, .setDescriptor id d'', farewell⟩ := by rw [← hnode, ← hstays]
      exact ⟨d'', rfl, .inr (List.mem_append_right _ (List.mem_singleton.2 hlast))⟩
    · exact ⟨d', hd', hstill⟩
  | removeDescriptors ids =>
    dsimp only
    rw [if_neg (hkept ids rfl)]
    exact ⟨d', hd', hstill⟩
  | setBeat | beatsBefore | beatsFrom | removeBeats | getDescriptors => exact ⟨d', hd', hstill⟩

/-- A command that does not remove a node does not name it among the descriptors to remove. -/
theorem not_mem_of_not_removes {c : Command} (h : ¬c.removes id) (ids : List String)
    (hc : c = .removeDescriptors ids) : id ∉ ids := by
  subst hc
  exact h

/-- A heartbeat that no command removes or sets back stays at its time or later. -/
theorem Alive.run {c : Command} (h : Alive id time s) (hkept : ¬c.removes id)
    (hset : ∀ time', c = .setBeat id time' → time ≤ time') : Alive id time (s.run c).1 := by
  obtain ⟨time', hle, hbeat⟩ := h
  rw [Alive]
  simp only [Store.get?_beats_run]
  cases c with
  | setBeat id' time'' =>
    dsimp only
    split
    · next heq =>
      subst heq
      exact ⟨time'', hset time'' rfl, rfl⟩
    · exact ⟨time', hle, hbeat⟩
  | removeBeats ids =>
    have hout : id ∉ ids := hkept
    dsimp only
    rw [if_neg hout]
    exact ⟨time', hle, hbeat⟩
  | setDescriptor | beatsBefore | beatsFrom | removeDescriptors | getDescriptors =>
    exact ⟨time', hle, hbeat⟩

/-! ## From the descriptor to the refresh -/

/-- Whether a node does not go away, and its descriptor is not removed. -/
structure Calm (id : String) (deeds : List Deed) : Prop where
  stays : ∀ e ∈ deeds, e.node = id → e.farewell = false
  kept : ∀ e ∈ deeds, ∀ ids, e.command = .removeDescriptors ids → id ∉ ids

/-- Whether the descriptor of a node is in the store if it has been calm since the node wrote it. -/
def Describes (w : World) : Prop :=
  ∀ id d before between, w.log = before ++ ⟨id, .setDescriptor id d, false⟩ :: between →
    Calm id between → Described id d between w.store

/-- The last of several deeds is the chosen one, or stands behind it. -/
theorem concat_eq_append_cons {α : Type} {l before after : List α} {a b : α}
    (h : l ++ [a] = before ++ b :: after) :
    (after = [] ∧ l = before ∧ a = b) ∨ ∃ after', after = after' ++ [a] ∧ l = before ++ b :: after' := by
  rcases List.eq_nil_or_concat after with rfl | ⟨after', c, rfl⟩
  · obtain ⟨rfl, hab⟩ := List.append_inj' h rfl
    exact .inl ⟨rfl, rfl, (List.singleton_inj.1 hab)⟩
  · rw [List.concat_eq_append, ← List.cons_append, ← List.append_assoc] at h
    obtain ⟨rfl, hac⟩ := List.append_inj' h rfl
    obtain rfl := List.singleton_inj.1 hac
    exact .inr ⟨after', List.concat_eq_append .., rfl⟩

/-- A node that is calm all along is calm in the first part. -/
theorem Calm.of_append {l l' : List Deed} (h : Calm id (l ++ l')) : Calm id l where
  stays e he := h.stays e (List.mem_append_left _ he)
  kept e he := h.kept e (List.mem_append_left _ he)

variable {seconds : UInt64} {w w' : World}

/-- The commands of a heartbeat write no descriptor but the own one. -/
theorem node_eq_of_fits {self : Node} {now : Int64} {expired : List String} {c : Command}
    (hfits : Fits self seconds now expired c) {id d : String} (hc : c = .setDescriptor id d) :
    self.id = id := by
  subst hc
  exact hfits.1.symm

/-- The commands of a heartbeat remove no nodes but those that its last look found. -/
theorem mem_expired_of_removes {self : Node} {now : Int64} {expired : List String} {c : Command}
    (hfits : Fits self seconds now expired c) (hremoves : c.removes id) : id ∈ expired := by
  cases c with
  | removeBeats ids | removeDescriptors ids => exact hfits ▸ hremoves
  | setDescriptor | setBeat | beatsBefore | beatsFrom | getDescriptors => exact hremoves.elim

/-- A look of a heartbeat does not find a node that is still alive at that time. -/
theorem Alive.not_mem_found {store : Store} (h : Alive id time store) {self : Node} {now : Int64}
    (hnow : 0 ≤ now.toInt) (halive : now.toInt ≤ time + (lifetime seconds).toInt)
    {expired : List String} {c : Command} (hfits : Fits self seconds now expired c) (hc : c.isLook)
    (before : List String) : id ∉ found before c (store.run c).2 := by
  cases c with
  | beatsBefore time' =>
    obtain rfl : time' = _ := hfits
    obtain ⟨time'', hle, hbeat⟩ := h
    exact not_mem_expired hbeat hnow (by omega)
  | setDescriptor | setBeat | beatsFrom | removeBeats | removeDescriptors | getDescriptors =>
    exact hc.elim

/-- What a heartbeat may remove changes with its look alone. -/
theorem found_of_not_isLook {c : Command} (hc : ¬c.isLook) (before : List String) (reply : Reply) :
    found before c reply = before := by
  cases c with
  | beatsBefore => exact absurd trivial hc
  | setDescriptor | setBeat | beatsFrom | removeBeats | removeDescriptors | getDescriptors => rfl

/-- A farewell of another node removes nothing of this one. -/
theorem not_removes_of_own {self : Node} {c : Command} {id : String}
    (hown : c = .removeBeats [self.id] ∨ c = .removeDescriptors [self.id]) (hne : self.id ≠ id) :
    ¬c.removes id := by
  rcases hown with rfl | rfl <;> exact fun hmem => hne (List.mem_singleton.1 hmem).symm

/-- A turn keeps what is known of descriptors. -/
theorem Describes.moves (h : Describes w) (horder : Orderly seconds w)
    (hmoves : Moves seconds w w') : Describes w' := by
  intro id d before between hlog hcalm
  cases hmoves with
  | quiet hstore hquiet hclock hsessions =>
    rw [hstore]
    exact h id d before between (hquiet ▸ hlog) hcalm
  | @beats node self now expired c next hsession =>
    obtain ⟨hself, -, -, hrest⟩ := horder.beating _ _ _ _ _ hsession
    cases hrest with | ask hfits hnext =>
    -- the descriptor is written just now, or it was before
    rcases concat_eq_append_cons hlog with ⟨rfl, rfl, heq⟩ | ⟨between, rfl, hprior⟩
    · cases heq
      refine ⟨d, ?_, .inl rfl⟩
      change (w.store.run _).1.descriptors.get? id = _
      rw [Store.get?_descriptors_run]
      exact if_pos rfl
    · have hbefore := h id d before between hprior hcalm.of_append
      have hlast := hcalm.kept _ (List.mem_append_right _ (List.mem_singleton_self _))
      refine hbefore.run (e := ⟨node, c, false⟩) hlast fun d' hd' => ⟨?_, rfl⟩
      exact hself.symm.trans (node_eq_of_fits hfits hd')
  | @leaves node self c next hsession =>
    obtain ⟨hself, hrest⟩ := horder.leaving _ _ _ hsession
    cases hrest with | ask hown hnext =>
    rcases concat_eq_append_cons hlog with ⟨-, -, heq⟩ | ⟨between, rfl, hprior⟩
    · cases heq
    · have hbefore := h id d before between hprior hcalm.of_append
      have hlast := hcalm.kept _ (List.mem_append_right _ (List.mem_singleton_self _))
      refine hbefore.run (e := ⟨node, c, true⟩) hlast fun d' hd' => ?_
      rcases hown with rfl | rfl <;> cases hd'

/-- At the start no node has written its descriptor. -/
theorem describes_start (store : Store) : Describes (World.start store) :=
  fun _ _ _ _ hlog => absurd hlog.symm (List.append_ne_nil_of_right_ne_nil _ (List.cons_ne_nil _ _))

/-- In any run a node that has been calm since it wrote its descriptor still has one. -/
theorem describes_run (store : Store) (turns : List Turn) :
    Describes ((World.start store).run seconds turns) := by
  have hboth : ∀ w w', Moves seconds w w' → Orderly seconds w ∧ Describes w →
      Orderly seconds w' ∧ Describes w' :=
    fun _ _ hmoves h => ⟨h.1.moves hmoves, h.2.moves h.1 hmoves⟩
  exact (World.run_induction hboth turns ⟨orderly_start store, describes_start store⟩).2

/-! ## From the refresh on -/

/-- Whether nothing comes in the way of a node that sets its descriptor, then refreshes its heartbeat and
goes on: it is calm between the two, it does not go away afterwards, and a removal of it afterwards rests
on a look that was made afterwards too. -/
structure Undisturbed (id : String) (between after : List Deed) : Prop where
  calm : Calm id between
  stays : ∀ e ∈ after, e.node = id → e.farewell = false
  fresh : ∀ l e l', after = l ++ e :: l' → e.command.removes id →
    ∃ e' ∈ l, e'.node = e.node ∧ e'.command.isLook

/-- A node that nothing came in the way of was undisturbed before the last command too. -/
theorem Undisturbed.of_concat {between after : List Deed} {e : Deed}
    (h : Undisturbed id between (after ++ [e])) : Undisturbed id between after where
  calm := h.calm
  stays e he := h.stays e (List.mem_append_left _ he)
  fresh l e' l' hafter := h.fresh l e' (l' ++ [e]) (by rw [hafter, List.append_assoc, List.cons_append])

/-- What is kept since a node refreshed its heartbeat: its entry, and that no other node is about to remove
it that has looked since then. -/
structure Kept (id d : String) (time : Int) (between after : List Deed) (w : World) : Prop where
  described : Described id d (between ++ ⟨id, .setBeat id time, false⟩ :: after) w.store
  alive : Alive id time w.store
  unseen : ∀ node self now expired rest, w.sessions node = .beating self now expired rest →
    id ∈ expired → ∀ e ∈ after, e.node = node → ¬e.command.isLook

/-- Whether the entry of a node is kept for its lifetime since every refresh, if nothing comes in the
way. -/
def Keeps (seconds : UInt64) (w : World) : Prop :=
  ∀ id d time before between after,
    w.log = before ++ ⟨id, .setDescriptor id d, false⟩ :: between ++
      ⟨id, .setBeat id time, false⟩ :: after →
    Undisturbed id between after → w.clock.toInt ≤ time + (lifetime seconds).toInt →
    Kept id d time between after w

/-- At the start no node has refreshed. -/
theorem keeps_start (store : Store) : Keeps seconds (World.start store) :=
  fun _ _ _ _ _ _ hlog =>
    absurd hlog.symm (List.append_ne_nil_of_right_ne_nil _ (List.cons_ne_nil _ _))

/-- A refresh begins to keep the entry of its node, whose descriptor is in the store. -/
theorem kept_of_refresh (h : Describes w) {between before : List Deed}
    (hlog : w.log = before ++ ⟨id, .setDescriptor id d, false⟩ :: between) (hcalm : Calm id between)
    (session : Session) : Kept id d time between [] (w.act id (.setBeat id time) false session) where
  described := by
    have hbefore := h id d before between hlog hcalm
    exact hbefore.run (e := ⟨id, .setBeat id time, false⟩) nofun nofun
  alive := by
    refine ⟨time, Int.le_refl time, ?_⟩
    change (w.store.run _).1.beats.get? id = _
    rw [Store.get?_beats_run]
    exact if_pos rfl
  unseen _ _ _ _ _ _ _ e he := absurd he List.not_mem_nil

/-- A command of another heartbeat, or of a later one of the node itself, keeps its entry. A removal
would rest on a look made before the refresh, and a look made since then does not find the node. -/
theorem Kept.beats {between after : List Deed} (h : Kept id d time between after w)
    (horder : Orderly seconds w) {node : String} {self : Node} {now : Int64} {expired : List String}
    {c : Command} {next : Reply → Exchange (List Node)}
    (hsession : w.sessions node = .beating self now expired (.ask c next))
    (hfresh : c.removes id → ∃ e ∈ after, e.node = node ∧ e.command.isLook)
    (hrefresh : ⟨id, .setBeat id time, false⟩ ∈ w.log)
    (halive : w.clock.toInt ≤ time + (lifetime seconds).toInt) :
    Kept id d time between (after ++ [⟨node, c, false⟩])
      (w.act node c false
        (.beating self now (found expired c (w.store.run c).2) (next (w.store.run c).2))) := by
  obtain ⟨rfl, hnow, hpast, hrest⟩ := horder.beating _ _ _ _ _ hsession
  cases hrest with | ask hfits hnext =>
  have hkept : ¬c.removes id := by
    intro hremoves
    obtain ⟨e, he, hnode, hlook⟩ := hfresh hremoves
    exact h.unseen _ _ _ _ _ hsession (mem_expired_of_removes hfits hremoves) e he hnode hlook
  refine ⟨?_, ?_, ?_⟩
  · have hdescribed := h.described.run (e := ⟨self.id, c, false⟩) (not_mem_of_not_removes hkept)
      fun d' hd' => ⟨node_eq_of_fits hfits hd', rfl⟩
    rw [List.append_assoc, List.cons_append] at hdescribed
    exact hdescribed
  · refine h.alive.run hkept ?_
    rintro time' rfl
    obtain ⟨rfl, rfl⟩ := hfits
    exact horder.monotone _ _ _ _ _ _ _ hrefresh hsession
  · intro node' self' now' expired' rest' hs hexpired e he hnode hlook
    rw [sessions_act] at hs
    split at hs
    · next heq =>
      -- what this node is about to remove now
      cases hs
      by_cases hc : c.isLook
      · have hnow' := Int.le_trans hpast halive
        exact h.alive.not_mem_found hnow hnow' hfits hc expired hexpired
      · rw [found_of_not_isLook hc] at hexpired
        rcases List.mem_append.1 he with he | he
        · exact h.unseen _ _ _ _ _ hsession hexpired e he (hnode.trans heq) hlook
        · obtain rfl := List.mem_singleton.1 he
          exact hc hlook
    · next hne =>
      rcases List.mem_append.1 he with he | he
      · exact h.unseen _ _ _ _ _ hs hexpired e he hnode hlook
      · obtain rfl := List.mem_singleton.1 he
        exact hne hnode.symm

/-- A command of the farewell of another node keeps the entry. -/
theorem Kept.leaves {between after : List Deed} (h : Kept id d time between after w)
    {node : String} {self : Node} {c : Command} {rest : Exchange Unit}
    (hown : c = .removeBeats [self.id] ∨ c = .removeDescriptors [self.id]) (hne : self.id ≠ id) :
    Kept id d time between (after ++ [⟨node, c, true⟩]) (w.act node c true (.leaving self rest)) := by
  have hkept := not_removes_of_own hown hne
  refine ⟨?_, ?_, ?_⟩
  · have hdescribed := h.described.run (e := ⟨node, c, true⟩) (not_mem_of_not_removes hkept)
      fun d' hd' => by rcases hown with rfl | rfl <;> cases hd'
    rw [List.append_assoc, List.cons_append] at hdescribed
    exact hdescribed
  · refine h.alive.run hkept fun time' hc => ?_
    rcases hown with rfl | rfl <;> cases hc
  · intro node' self' now' expired' rest' hs hexpired e he hnode hlook
    rw [sessions_act] at hs
    split at hs
    · cases hs
    · next hne' =>
      rcases List.mem_append.1 he with he | he
      · exact h.unseen _ _ _ _ _ hs hexpired e he hnode hlook
      · obtain rfl := List.mem_singleton.1 he
        exact hne' hnode.symm

/-- Every turn keeps the entries that were refreshed. -/
theorem Keeps.moves (h : Keeps seconds w) (horder : Orderly seconds w) (hdescribes : Describes w)
    (hmoves : Moves seconds w w') : Keeps seconds w' := by
  intro id d time before between after hlog hundisturbed halive
  cases hmoves with
  | quiet hstore hquiet hclock hsessions =>
    have hkept := h id d time before between after (hquiet ▸ hlog) hundisturbed
      (Int.le_trans hclock halive)
    refine ⟨hstore ▸ hkept.described, hstore ▸ hkept.alive, ?_⟩
    intro node self now expired rest hs hexpired
    rcases (hs ▸ hsessions node).of_beating with hs | ⟨-, -, rfl, -⟩
    · exact hkept.unseen _ _ _ _ _ hs hexpired
    · exact absurd hexpired List.not_mem_nil
  | @beats node self now expired c next hsession =>
    -- the refresh is the new deed itself, or it was there before
    rcases concat_eq_append_cons hlog with ⟨rfl, hprior, heq⟩ | ⟨after, rfl, hprior⟩
    · cases heq
      exact kept_of_refresh hdescribes hprior hundisturbed.calm _
    · have hkept := h id d time before between after hprior hundisturbed.of_concat halive
      have hrefresh : ⟨id, .setBeat id time, false⟩ ∈ w.log := by
        rw [hprior]
        exact List.mem_append_right _ List.mem_cons_self
      exact hkept.beats horder hsession (hundisturbed.fresh after _ [] rfl) hrefresh halive
  | @leaves node self c next hsession =>
    obtain ⟨hself, hrest⟩ := horder.leaving _ _ _ hsession
    cases hrest with | ask hown hnext =>
    -- a farewell is no refresh, so the refresh was there before
    rcases concat_eq_append_cons hlog with ⟨-, -, heq⟩ | ⟨after, rfl, hprior⟩
    · cases heq
    · have hkept := h id d time before between after hprior hundisturbed.of_concat halive
      refine hkept.leaves hown fun heq => ?_
      have hstays := hundisturbed.stays _ (List.mem_append_right _ (List.mem_singleton_self _))
      exact Bool.noConfusion (hstays (hself.symm.trans heq))

/-- In any run the entry of an undisturbed node is kept for its lifetime. -/
theorem keeps_run (store : Store) (turns : List Turn) :
    Keeps seconds ((World.start store).run seconds turns) := by
  have hall : ∀ w w', Moves seconds w w' →
      (Orderly seconds w ∧ Describes w) ∧ Keeps seconds w →
      (Orderly seconds w' ∧ Describes w') ∧ Keeps seconds w' := fun _ _ hmoves h =>
    ⟨⟨h.1.1.moves hmoves, h.1.2.moves h.1.1 hmoves⟩, h.2.moves h.1.1 h.1.2 hmoves⟩
  exact (World.run_induction hall turns
    ⟨⟨orderly_start store, describes_start store⟩, keeps_start store⟩).2

/-- **A node that has refreshed its entry stays in the store for its lifetime, if no removal is late.**
Let any nodes send their heartbeats to one store, in any order. After a node has set its descriptor and
then refreshed its heartbeat at a time, both stay in the store, the heartbeat at that time or later, until
more than the lifetime has passed since that time or the node goes away; unless its descriptor is removed
between the two commands, or a removal takes effect that rests on a look from before the refresh. A
removal is a command of its own, which does not look again. -/
theorem listed_run (store : Store) (turns : List Turn) {before between after : List Deed}
    (hlog : ((World.start store).run seconds turns).log =
      before ++ ⟨id, .setDescriptor id d, false⟩ :: between ++ ⟨id, .setBeat id time, false⟩ :: after)
    (hundisturbed : Undisturbed id between after)
    (halive : ((World.start store).run seconds turns).clock.toInt ≤ time + (lifetime seconds).toInt) :
    Described id d (between ++ ⟨id, .setBeat id time, false⟩ :: after)
        ((World.start store).run seconds turns).store ∧
      Alive id time ((World.start store).run seconds turns).store :=
  have hkept := keeps_run store turns id d time before between after hlog hundisturbed halive
  ⟨hkept.described, hkept.alive⟩

/-- A node refreshes its entry; another one then removes a third that is gone, gives up its session, and
looks again at the last moment of the lifetime. -/
def vigil : List Turn :=
  [.pass 5000, .beat (.peer "a" "host:1"), .send "a", .send "a", .beat (.peer "b" "host:2")]
    ++ List.replicate 5 (.send "b") ++ [.abandon "b", .pass 6000, .beat (.peer "b" "host:2")]
    ++ List.replicate 3 (.send "b")

/-- A node that refreshes in time is listed beside one that has stopped. -/
theorem listed_run_vigil :
    let store : Store := ⟨Table.ofList [("c", "")], Table.ofList [("c", 0)]⟩
    let w := (World.start store).run 1 vigil
    let descriptor := descriptorText (.peer "a" "host:1")
    let after := w.log.drop 2
    w.log = [] ++ ⟨"a", .setDescriptor "a" descriptor, false⟩ :: [] ++
        ⟨"a", .setBeat "a" 5000, false⟩ :: after ∧
      ⟨"b", .removeBeats ["c"], false⟩ ∈ after ∧ Undisturbed "a" [] after ∧
      w.clock.toInt = 5000 + (lifetime 1).toInt ∧
      Described "a" descriptor ([] ++ ⟨"a", .setBeat "a" 5000, false⟩ :: after) w.store ∧
      Alive "a" 5000 w.store := by
  intro store w descriptor after
  have hlog : w.log = [] ++ ⟨"a", .setDescriptor "a" descriptor, false⟩ :: [] ++
      ⟨"a", .setBeat "a" 5000, false⟩ :: after := by decide +kernel
  have hclock : w.clock.toInt = 5000 + (lifetime 1).toInt := by decide +kernel
  have hundisturbed : Undisturbed "a" [] after := by
    have hkept : ∀ e ∈ after, ¬e.command.removes "a" := by decide +kernel
    refine ⟨⟨nofun, nofun⟩, by decide +kernel, ?_⟩
    intro l e l' hafter hremoves
    refine absurd hremoves (hkept e ?_)
    rw [hafter]
    exact List.mem_append_right _ List.mem_cons_self
  have hlisted := listed_run store vigil hlog hundisturbed (Int.le_of_eq hclock)
  exact ⟨hlog, by decide +kernel, hundisturbed, hclock, hlisted.1, hlisted.2⟩

/-- A node whose heartbeat is too old refreshes it after another node has looked, and before that one has
removed what it found. -/
def laggard : List Turn :=
  .beat (.peer "a" "host:1") :: List.replicate 5 (.send "a")
    ++ [.pass 5000, .beat (.peer "b" "host:2"), .send "b", .send "b", .send "b"]
    ++ [.beat (.peer "a" "host:1"), .send "a", .send "a", .send "b", .send "b"]

/-- That node is then not in the store, at the very moment of its refresh and without having gone away. -/
theorem not_listed_laggard :
    let w := (World.start .empty).run 1 laggard
    let descriptor := descriptorText (.peer "a" "host:1")
    w.log.drop 7 =
        [ ⟨"a", .setDescriptor "a" descriptor, false⟩, ⟨"a", .setBeat "a" 5000, false⟩,
          ⟨"b", .removeBeats ["a"], false⟩, ⟨"b", .removeDescriptors ["a"], false⟩ ] ∧
      (∀ e ∈ w.log, e.farewell = false) ∧ w.clock.toInt = 5000 ∧ 0 < (lifetime 1).toInt ∧
      w.store.descriptors.get? "a" = none ∧ w.store.beats.get? "a" = none := by
  decide +kernel

end PushMesh.Discovery
