import PushMesh.Gather
import PushMesh.Proofs.Data.Ascending
import PushMesh.Proofs.Tally

/-!
# The accounts of a gather

Every peer of a gather stands in exactly one place: among those that answered, among those that
failed, or among those still awaited. `Accounts` says so, together with what follows from it for the
value and for the phase. A gather starts with its accounts in order (`accounts_start`), every step
keeps them (`Accounts.take`), and so does every run (`Accounts.takeAll`), whatever it offers: an
answer that is not awaited changes nothing.
-/

namespace PushMesh.Gather

/-! ## Steps -/

/-- Something that happens to a gather. -/
inductive Step where
  | complete (nodeId : String) (value : Tally)
  | fail (failure : NodeFailure)
  | cancel
  | track (task : Nat)
  | onComplete (label : String)
  | snapshot

/-- The answer that a step offers, with the node that gives it. -/
def Step.answer? : Step → Option (String × Tally)
  | complete nodeId value => some (nodeId, value)
  | _ => none

/-- The failure that a step offers. -/
def Step.failure? : Step → Option NodeFailure
  | fail failure => some failure
  | _ => none

/-- The gather after a step, and the callbacks that ran. -/
def take (g : Gather) : Step → Gather × List Notice
  | .complete nodeId value => g.complete nodeId value
  | .fail failure => g.fail failure
  | .cancel => (g.cancel.1, [])
  | .track task => ((g.track task).1, [])
  | .onComplete label => g.onComplete label
  | .snapshot => (g, [])

/-- The gather after several steps. -/
def takeAll (g : Gather) (steps : List Step) : Gather :=
  steps.foldl (fun g s => (g.take s).1) g

theorem takeAll_append (g : Gather) (steps steps' : List Step) :
    g.takeAll (steps ++ steps') = (g.takeAll steps).takeAll steps' :=
  List.foldl_append

/-! ## The accounts -/

/-- The accounts of a gather of `node` whose own answer is `own` and whose peers are `peers`, after
the `answers` were taken into its value in this order. -/
structure Accounts (node : String) (own : Tally) (peers : Ascending String)
    (answers : List (String × Tally)) (g : Gather) : Prop where
  responded : g.responded = node :: answers.map (·.1)
  value : g.value = answers.foldl (fun v a => v.merge a.2) own
  /-- Everyone stands in exactly one place. -/
  places : (g.responded ++ g.failures.map (·.nodeId) ++ g.outstanding.toList).Perm
    (node :: peers.toList)
  completed_iff : g.phase = .completed ↔ g.outstanding.isEmpty = true
  phase : g.phase = .completed ∨ g.phase = .running ∨ g.phase = .cancelled

/-- The part of a gather that its accounts are about. -/
structure SameBooks (g g' : Gather) : Prop where
  value : g'.value = g.value
  responded : g'.responded = g.responded
  outstanding : g'.outstanding = g.outstanding
  failures : g'.failures = g.failures

theorem SameBooks.refl (g : Gather) : g.SameBooks g := ⟨rfl, rfl, rfl, rfl⟩

theorem SameBooks.trans {g g' g'' : Gather} (h : g.SameBooks g') (h' : g'.SameBooks g'') :
    g.SameBooks g'' :=
  ⟨h'.value.trans h.value, h'.responded.trans h.responded, h'.outstanding.trans h.outstanding,
    h'.failures.trans h.failures⟩

variable {node : String} {own : Tally} {peers : Ascending String}
  {answers : List (String × Tally)} {g g' : Gather}

/-- A new gather has taken in no answer. -/
theorem accounts_start (node : String) (own : Tally) (peers : List String)
    (partialOnTimeout : Bool) :
    Accounts node own (Ascending.ofList peers) [] (start node own peers partialOnTimeout) := by
  refine ⟨rfl, rfl, .refl _, ?_, ?_⟩
  · unfold start
    dsimp only
    split
    · next h => simp [h]
    · next h => simp [h]
  · unfold start
    dsimp only
    split
    · exact .inl rfl
    · exact .inr (.inl rfl)

/-- Nothing is cancelled at the start. -/
theorem phase_start_ne (node : String) (own : Tally) (peers : List String)
    (partialOnTimeout : Bool) :
    (start node own peers partialOnTimeout).phase ≠ .cancelled := by
  unfold start
  dsimp only
  split <;> decide

/-- What leaves the books and the phase as they are keeps the accounts. -/
theorem Accounts.congr (h : Accounts node own peers answers g) (hsame : g.SameBooks g')
    (hphase : g'.phase = g.phase) : Accounts node own peers answers g' := by
  obtain ⟨hvalue, hresponded, houtstanding, hfailures⟩ := hsame
  constructor
  · rw [hresponded, h.responded]
  · rw [hvalue, h.value]
  · rw [hresponded, hfailures, houtstanding]
    exact h.places
  · rw [hphase, houtstanding]
    exact h.completed_iff
  · rw [hphase]
    exact h.phase

/-- Nobody but a peer is awaited. -/
theorem Accounts.mem_peers (h : Accounts node own peers answers g) (hnode : node ∉ peers)
    {n : String} (hn : n ∈ g.outstanding) : n ∈ peers := by
  have hlast : n ∈ g.responded ++ g.failures.map (·.nodeId) ++ g.outstanding.toList :=
    List.mem_append_right _ hn
  have hnodup := h.places.nodup_iff.2 (List.nodup_cons.2 ⟨hnode, peers.nodup⟩)
  rcases List.mem_cons.1 (h.places.mem_iff.1 hlast) with rfl | hpeer
  · -- the node itself stands among those that answered
    have hfirst : n ∈ g.responded ++ g.failures.map (·.nodeId) := by
      rw [h.responded]
      exact List.mem_append_left _ (List.mem_cons_self ..)
    exact absurd rfl ((List.nodup_append.1 hnodup).2.2 n hfirst n hn)
  · exact hpeer

/-! ## Settling a peer -/

/-- A gather awaits a peer iff it runs and the peer is outstanding. -/
theorem awaits_iff {nodeId : String} :
    g.awaits nodeId = true ↔ g.phase = .running ∧ nodeId ∈ g.outstanding := by
  simp [awaits]

/-- Settling leaves the books as they are. -/
theorem sameBooks_settle (g : Gather) : g.SameBooks g.settle.1 := by
  unfold settle
  split <;> exact ⟨rfl, rfl, rfl, rfl⟩

/-- A running gather is complete after settling if nobody is awaited, and runs on otherwise. -/
theorem phase_settle (h : g.phase = .running) :
    g.settle.1.phase = if g.outstanding.isEmpty then .completed else .running := by
  unfold settle
  split
  · rfl
  · exact h

/-- A gather whose books are in order has its accounts in order once it is settled. -/
theorem accounts_settle (hresponded : g.responded = node :: answers.map (·.1))
    (hvalue : g.value = answers.foldl (fun v a => v.merge a.2) own)
    (hplaces : (g.responded ++ g.failures.map (·.nodeId) ++ g.outstanding.toList).Perm
      (node :: peers.toList))
    (hphase : g.phase = .running) : Accounts node own peers answers g.settle.1 := by
  obtain ⟨hvalue', hresponded', houtstanding', hfailures'⟩ := g.sameBooks_settle
  constructor
  · rw [hresponded', hresponded]
  · rw [hvalue', hvalue]
  · rw [hresponded', hfailures', houtstanding']
    exact hplaces
  · rw [phase_settle hphase, houtstanding']
    split <;> simp_all
  · rw [phase_settle hphase]
    split
    · exact .inl rfl
    · exact .inr (.inl rfl)

/-- The books after an awaited answer. -/
theorem sameBooks_complete {nodeId : String} (hwait : g.awaits nodeId = true) (value : Tally) :
    SameBooks
      { g with
        value := g.value.merge value
        responded := g.responded ++ [nodeId]
        outstanding := g.outstanding.erase nodeId }
      (g.complete nodeId value).1 := by
  rw [Gather.complete, if_pos hwait]
  exact sameBooks_settle _

/-- The books after an awaited failure. -/
theorem sameBooks_fail (failure : NodeFailure) (hwait : g.awaits failure.nodeId = true) :
    SameBooks
      { g with
        failures := g.failures ++ [failure]
        outstanding := g.outstanding.erase failure.nodeId }
      (g.fail failure).1 := by
  rw [Gather.fail, if_pos hwait]
  exact sameBooks_settle _

/-- Settling does not cancel a gather. -/
theorem phase_settle_ne (h : g.phase ≠ .cancelled) : g.settle.1.phase ≠ .cancelled := by
  unfold settle
  split
  · exact nofun
  · exact h

/-- An answer does not cancel a gather. -/
theorem phase_complete_ne (h : g.phase ≠ .cancelled) (nodeId : String) (value : Tally) :
    (g.complete nodeId value).1.phase ≠ .cancelled := by
  unfold complete
  split
  · exact phase_settle_ne h
  · exact h

/-- A failure does not cancel a gather. -/
theorem phase_fail_ne (h : g.phase ≠ .cancelled) (failure : NodeFailure) :
    (g.fail failure).1.phase ≠ .cancelled := by
  unfold fail
  split
  · exact phase_settle_ne h
  · exact h

/-- An awaited answer goes into the value, and its node from those awaited to those that answered. -/
theorem Accounts.complete (h : Accounts node own peers answers g) {nodeId : String}
    (hwait : g.awaits nodeId = true) (value : Tally) :
    Accounts node own peers (answers ++ [(nodeId, value)]) (g.complete nodeId value).1 := by
  obtain ⟨hphase, hmem⟩ := awaits_iff.1 hwait
  have hplaces := h.places
  rw [Gather.complete, if_pos hwait]
  refine accounts_settle ?_ ?_ ?_ hphase
  · simp [h.responded]
  · simp [h.value, List.foldl_append]
  · -- the node moves from the end of the listing to its place behind those that answered
    refine List.Perm.trans ?_ hplaces
    have hout := Ascending.perm_cons_erase hmem
    simp only [List.append_assoc, List.singleton_append]
    refine List.Perm.append_left _ ?_
    refine List.Perm.trans ?_ (List.Perm.append_left _ hout.symm)
    exact List.perm_middle.symm

/-- An awaited failure is recorded, and its node goes from those awaited to those that failed. -/
theorem Accounts.fail (h : Accounts node own peers answers g) {failure : NodeFailure}
    (hwait : g.awaits failure.nodeId = true) :
    Accounts node own peers answers (g.fail failure).1 := by
  obtain ⟨hphase, hmem⟩ := awaits_iff.1 hwait
  have hplaces := h.places
  rw [Gather.fail, if_pos hwait]
  refine accounts_settle h.responded h.value ?_ hphase
  refine List.Perm.trans ?_ hplaces
  have hout := Ascending.perm_cons_erase hmem
  simp only [List.map_append, List.map_cons, List.map_nil, List.append_assoc]
  refine List.Perm.append_left _ (List.Perm.append_left _ ?_)
  exact hout.symm

/-! ## Every step -/

/-- Cancelling a gather leaves its books alone. -/
theorem sameBooks_cancel (g : Gather) : g.SameBooks g.cancel.1 := by
  unfold cancel
  split <;> exact ⟨rfl, rfl, rfl, rfl⟩

/-- Only a gather that runs is cancelled. -/
theorem phase_cancel (g : Gather) :
    g.cancel.1.phase = if g.phase = .running then .cancelled else g.phase := by
  unfold cancel
  split
  · next h => rw [if_pos h]
  · next h => rw [if_neg h]

/-- Tracking a call and registering a callback leave books and phase as they are. -/
theorem sameBooks_track (g : Gather) (task : Nat) :
    g.SameBooks (g.track task).1 ∧ (g.track task).1.phase = g.phase := by
  unfold track
  split
  · exact ⟨⟨rfl, rfl, rfl, rfl⟩, rfl⟩
  · exact ⟨.refl g, rfl⟩
  · exact ⟨.refl g, rfl⟩

/-- A callback that is registered changes neither the books nor the phase. -/
theorem sameBooks_onComplete (g : Gather) (label : String) :
    g.SameBooks (g.onComplete label).1 ∧ (g.onComplete label).1.phase = g.phase := by
  unfold onComplete
  split
  · exact ⟨⟨rfl, rfl, rfl, rfl⟩, rfl⟩
  · exact ⟨.refl g, rfl⟩
  · exact ⟨.refl g, rfl⟩

/-- A cancellation stops a running gather, which awaits somebody. -/
theorem Accounts.cancel (h : Accounts node own peers answers g) :
    Accounts node own peers answers g.cancel.1 := by
  obtain ⟨hvalue, hresponded, houtstanding, hfailures⟩ := g.sameBooks_cancel
  have hphase := g.phase_cancel
  constructor
  · rw [hresponded, h.responded]
  · rw [hvalue, h.value]
  · rw [hresponded, hfailures, houtstanding]
    exact h.places
  · rw [hphase, houtstanding, ← h.completed_iff]
    split
    · next hrun => simp [hrun]
    · exact Iff.rfl
  · rw [hphase]
    split
    · exact .inr (.inr rfl)
    · exact h.phase

/-- The answer that a step brings into the value, if it brings one. -/
def accepted (g : Gather) (s : Step) : Option (String × Tally) :=
  s.answer?.filter fun a => g.awaits a.1

/-- The failure that a step records, if it records one. -/
def recorded (g : Gather) (s : Step) : Option NodeFailure :=
  s.failure?.filter fun f => g.awaits f.nodeId

/-- What one step keeps. -/
theorem Accounts.take (h : Accounts node own peers answers g) (s : Step) :
    Accounts node own peers (answers ++ (g.accepted s).toList) (g.take s).1 := by
  -- a step that accepts nothing adds nothing to the answers
  have hsilent : ∀ {g'}, g.accepted s = none → Accounts node own peers answers g' →
      Accounts node own peers (answers ++ (g.accepted s).toList) g' := by
    intro g' hnone h'
    rwa [hnone, Option.toList_none, List.append_nil]
  cases s with
  | complete nodeId value =>
    cases hwait : g.awaits nodeId with
    | true =>
      have hacc : g.accepted (.complete nodeId value) = some (nodeId, value) := by
        simp [accepted, Step.answer?, hwait]
      rw [hacc]
      exact h.complete hwait value
    | false =>
      refine hsilent (by simp [accepted, Step.answer?, hwait]) ?_
      rw [Gather.take, Gather.complete, if_neg (by simp [hwait])]
      exact h
  | fail failure =>
    refine hsilent rfl ?_
    cases hwait : g.awaits failure.nodeId with
    | true => exact h.fail hwait
    | false =>
      rw [Gather.take, Gather.fail, if_neg (by simp [hwait])]
      exact h
  | cancel => exact hsilent rfl h.cancel
  | track task =>
    have hkeep := g.sameBooks_track task
    exact hsilent rfl (h.congr hkeep.1 hkeep.2)
  | onComplete label =>
    have hkeep := g.sameBooks_onComplete label
    exact hsilent rfl (h.congr hkeep.1 hkeep.2)
  | snapshot => exact hsilent rfl h

/-- A step appends the failure that it records, and touches the list in no other way. -/
theorem failures_take (g : Gather) (s : Step) :
    (g.take s).1.failures = g.failures ++ (g.recorded s).toList := by
  -- a step that records nothing leaves the books, and the failures with them
  have hsilent : ∀ {g' : Gather}, g.recorded s = none → g.SameBooks g' →
      g'.failures = g.failures ++ (g.recorded s).toList := by
    intro g' hnone hsame
    rw [hsame.failures, hnone, Option.toList_none, List.append_nil]
  cases s with
  | complete nodeId value =>
    rw [take, complete]
    split
    · rw [(sameBooks_settle _).failures]
      simp [recorded, Step.failure?]
    · exact hsilent rfl (.refl g)
  | fail failure =>
    rw [take, fail]
    split
    · next hwait =>
      rw [(sameBooks_settle _).failures]
      simp [recorded, Step.failure?, Option.filter, hwait]
    · next hwait => exact hsilent (by simp [recorded, Step.failure?, Option.filter, hwait]) (.refl g)
  | cancel => exact hsilent rfl g.sameBooks_cancel
  | track task => exact hsilent rfl (g.sameBooks_track task).1
  | onComplete label => exact hsilent rfl (g.sameBooks_onComplete label).1
  | snapshot => exact hsilent rfl (.refl g)

/-! ## Every run -/

/-- The answers that a run brings into the value, in order. -/
def acceptedAll : Gather → List Step → List (String × Tally)
  | _, [] => []
  | g, s :: steps => (g.accepted s).toList ++ acceptedAll (g.take s).1 steps

/-- The failures that a run records, in order. -/
def recordedAll : Gather → List Step → List NodeFailure
  | _, [] => []
  | g, s :: steps => (g.recorded s).toList ++ recordedAll (g.take s).1 steps

/-- What a run keeps: by induction on the steps. -/
theorem Accounts.takeAll (h : Accounts node own peers answers g) (steps : List Step) :
    Accounts node own peers (answers ++ g.acceptedAll steps) (g.takeAll steps) := by
  induction steps generalizing g answers with
  | nil => simpa [acceptedAll, Gather.takeAll] using h
  | cons s steps ih =>
    have hstep := ih (h.take s)
    rwa [List.append_assoc] at hstep

/-- The failures of a gather are those that a run records. -/
theorem failures_takeAll (g : Gather) (steps : List Step) :
    (g.takeAll steps).failures = g.failures ++ g.recordedAll steps := by
  induction steps generalizing g with
  | nil => simp [takeAll, recordedAll]
  | cons s steps ih =>
    have hstep := ih (g.take s).1
    rw [failures_take, List.append_assoc] at hstep
    exact hstep

/-- Nothing is accepted that was not offered, and nothing twice for one offer. -/
theorem acceptedAll_sublist (g : Gather) (steps : List Step) :
    (g.acceptedAll steps).Sublist (steps.filterMap Step.answer?) := by
  induction steps generalizing g with
  | nil => exact .slnil
  | cons s steps ih =>
    rw [acceptedAll, List.filterMap_cons]
    cases hs : s.answer? with
    | none => simpa [accepted, hs] using ih _
    | some a =>
      dsimp only
      by_cases hwait : g.awaits a.1
      · simpa [accepted, hs, Option.filter, hwait] using ih _
      · simpa [accepted, hs, Option.filter, hwait] using (ih _).cons a

/-- A run records no failure that it was not told. -/
theorem recordedAll_sublist (g : Gather) (steps : List Step) :
    (g.recordedAll steps).Sublist (steps.filterMap Step.failure?) := by
  induction steps generalizing g with
  | nil => exact .slnil
  | cons s steps ih =>
    rw [recordedAll, List.filterMap_cons]
    cases hs : s.failure? with
    | none => simpa [recorded, hs] using ih _
    | some f =>
      dsimp only
      by_cases hwait : g.awaits f.nodeId
      · simpa [recorded, hs, Option.filter, hwait] using ih _
      · simpa [recorded, hs, Option.filter, hwait] using (ih _).cons f

/-! ## Nobody is overlooked -/

/-- The node that a step has something to say about. -/
def Step.node? : Step → Option String
  | complete nodeId _ => some nodeId
  | fail failure => some failure.nodeId
  | _ => none

/-- A gather that runs after settling ran before, and awaits the same nodes. -/
theorem running_settle (h : g.settle.1.phase = .running) :
    g.phase = .running ∧ g.settle.1.outstanding = g.outstanding := by
  unfold settle at h ⊢
  split at h
  · cases h
  · next hne =>
    rw [if_neg hne]
    exact ⟨h, rfl⟩

/-- A node that a running gather does not await is not outstanding. -/
theorem mem_outstanding_of_not_awaits {nodeId : String} (h : g.phase = .running)
    (hwait : ¬g.awaits nodeId = true) (n : String) :
    n ∈ g.outstanding ↔ n ∈ g.outstanding ∧ some nodeId ≠ some n := by
  have hnot : nodeId ∉ g.outstanding := fun hmem => hwait (awaits_iff.2 ⟨h, hmem⟩)
  rw [iff_self_and]
  rintro hn ⟨⟩
  exact hnot hn

/-- A gather that runs after a step ran before it, and awaits the nodes that it awaited but the one
that the step has something to say about. -/
theorem running_take {s : Step} (h : (g.take s).1.phase = .running) :
    g.phase = .running ∧ ∀ n, n ∈ (g.take s).1.outstanding ↔
      n ∈ g.outstanding ∧ s.node? ≠ some n := by
  cases s with
  | complete nodeId value =>
    rw [take, complete] at h ⊢
    split at h
    · next hwait =>
      rw [if_pos hwait]
      obtain ⟨hrun, hout⟩ := running_settle h
      refine ⟨hrun, fun n => ?_⟩
      rw [hout]
      simp [Step.node?, eq_comm]
    · next hwait =>
      rw [if_neg hwait]
      exact ⟨h, mem_outstanding_of_not_awaits h hwait⟩
  | fail failure =>
    rw [take, fail] at h ⊢
    split at h
    · next hwait =>
      rw [if_pos hwait]
      obtain ⟨hrun, hout⟩ := running_settle h
      refine ⟨hrun, fun n => ?_⟩
      rw [hout]
      simp [Step.node?, eq_comm]
    · next hwait =>
      rw [if_neg hwait]
      exact ⟨h, mem_outstanding_of_not_awaits h hwait⟩
  | cancel =>
    -- a cancelled gather does not run
    have hphase := g.phase_cancel
    change g.cancel.1.phase = .running at h
    rw [hphase] at h
    split at h
    · cases h
    · next hne => exact absurd h hne
  | track task =>
    obtain ⟨hsame, hphase⟩ := g.sameBooks_track task
    change (g.track task).1.phase = .running at h
    rw [hphase] at h
    refine ⟨h, fun n => ?_⟩
    rw [take, hsame.outstanding]
    simp [Step.node?]
  | onComplete label =>
    obtain ⟨hsame, hphase⟩ := g.sameBooks_onComplete label
    change (g.onComplete label).1.phase = .running at h
    rw [hphase] at h
    refine ⟨h, fun n => ?_⟩
    rw [take, hsame.outstanding]
    simp [Step.node?]
  | snapshot =>
    refine ⟨h, fun n => ?_⟩
    simp [take, Step.node?]

/-- While a gather runs it awaits exactly the nodes that no step had anything to say about. -/
theorem running_takeAll {steps : List Step} (h : (g.takeAll steps).phase = .running) :
    g.phase = .running ∧ ∀ n, n ∈ (g.takeAll steps).outstanding ↔
      n ∈ g.outstanding ∧ ∀ s ∈ steps, s.node? ≠ some n := by
  induction steps generalizing g with
  | nil => exact ⟨h, by simp [takeAll]⟩
  | cons s steps ih =>
    obtain ⟨hnext, hmem⟩ := ih (g := (g.take s).1) h
    obtain ⟨hrun, hone⟩ := running_take hnext
    refine ⟨hrun, fun n => ?_⟩
    change n ∈ ((g.take s).1.takeAll steps).outstanding ↔ _
    rw [hmem, hone, List.forall_mem_cons, and_assoc]

/-- Only a cancellation cancels a gather. -/
theorem cancelled_takeAll {steps : List Step} (h : (g.takeAll steps).phase = .cancelled) :
    g.phase = .cancelled ∨ .cancel ∈ steps := by
  induction steps generalizing g with
  | nil => exact .inl h
  | cons s steps ih =>
    rcases ih (g := (g.take s).1) h with hphase | hmem
    · -- settling completes a gather or leaves its phase
      have hsettle : ∀ g' : Gather, g'.settle.1.phase = .cancelled → g'.phase = .cancelled := by
        intro g' h'
        unfold settle at h'
        split at h'
        · cases h'
        · exact h'
      cases s with
      | complete nodeId value =>
        rw [take, complete] at hphase
        split at hphase
        · have hbefore := hsettle _ hphase
          exact .inl hbefore
        · exact .inl hphase
      | fail failure =>
        rw [take, fail] at hphase
        split at hphase
        · have hbefore := hsettle _ hphase
          exact .inl hbefore
        · exact .inl hphase
      | cancel => exact .inr (List.mem_cons_self ..)
      | track task => exact .inl ((g.sameBooks_track task).2 ▸ hphase)
      | onComplete label => exact .inl ((g.sameBooks_onComplete label).2 ▸ hphase)
      | snapshot => exact .inl hphase
    · exact .inr (List.mem_cons_of_mem _ hmem)

/-! ## Results -/

/-- A result that can be seen of a gather: by looking at it, as its outcome, or by giving up the wait
for it. -/
def Shows (g : Gather) (r : Gathered) : Prop :=
  r = g.snapshot ∨ g.outcome? = some (.ok r) ∨ g.expired = .ok r

/-- What a gather comes to is its snapshot. -/
theorem outcome?_eq_ok {r : Gathered} (h : g.outcome? = some (.ok r)) : r = g.snapshot := by
  unfold outcome? at h
  split at h <;> simp_all

/-- Every result is what the gather holds. -/
theorem Shows.eq_snapshot {r : Gathered} (h : g.Shows r) : r = g.snapshot := by
  rcases h with h | h | h
  · exact h
  · exact outcome?_eq_ok h
  · unfold expired at h
    split at h
    · next o ho => exact outcome?_eq_ok (h ▸ ho)
    · split at h
      · exact (Except.ok.inj h).symm
      · cases h

/-- A gather is done iff it no longer runs. -/
theorem isDone_iff : g.isDone = true ↔ g.phase ≠ .running := by
  rw [isDone, bne_iff_ne]

/-- A gather that no longer runs never changes again. -/
theorem take_of_isDone (h : g.isDone = true) (s : Step) : (g.take s).1 = g := by
  rw [isDone_iff] at h
  have hwait : ∀ nodeId, g.awaits nodeId = false := by
    intro nodeId
    simp [awaits, h]
  cases s with
  | complete nodeId value => simp [take, complete, hwait]
  | fail failure => simp [take, fail, hwait]
  | cancel =>
    rw [take, cancel]
    split
    · next hrun => exact absurd hrun h
    · rfl
  | track task =>
    rw [take, track]
    split
    · next hrun => exact absurd hrun h
    · rfl
    · rfl
  | onComplete label =>
    rw [take, onComplete]
    split
    · next hnone =>
      unfold outcome? at hnone
      split at hnone
      · next hrun => exact absurd hrun h
      all_goals cases hnone
    · rfl
    · rfl
  | snapshot => rfl

/-- A gather that is done takes nothing more. -/
theorem takeAll_of_isDone (h : g.isDone = true) (steps : List Step) : g.takeAll steps = g := by
  induction steps with
  | nil => rfl
  | cons s steps ih =>
    rw [takeAll, List.foldl_cons, take_of_isDone h]
    exact ih

/-- A gather that is completed is done. -/
theorem isDone_of_completed (h : g.phase = .completed) : g.isDone = true := by
  rw [isDone, h]
  rfl

/-- Callbacks run when a gather is complete, and are given what it holds then. -/
theorem notices_settle {n : Notice} (hn : n ∈ g.settle.2) :
    g.settle.1.phase = .completed ∧ n.2 = .ok g.settle.1.snapshot := by
  unfold settle at hn ⊢
  split at hn
  · next hempty =>
    obtain ⟨label, -, rfl⟩ := List.mem_map.1 hn
    rw [if_pos hempty]
    exact ⟨rfl, rfl⟩
  · cases hn

/-- A callback runs only when the gather is completed, and with its snapshot. -/
theorem Accounts.notices_take (h : Accounts node own peers answers g) (s : Step) {n : Notice}
    (hn : n ∈ (g.take s).2) :
    (g.take s).1.phase = .completed ∧ n.2 = .ok (g.take s).1.snapshot := by
  cases s with
  | complete nodeId value =>
    unfold Gather.take Gather.complete at hn ⊢
    dsimp only at hn ⊢
    split at hn
    · next hwait =>
      rw [if_pos hwait]
      exact notices_settle hn
    · cases hn
  | fail failure =>
    unfold Gather.take Gather.fail at hn ⊢
    dsimp only at hn ⊢
    split at hn
    · next hwait =>
      rw [if_pos hwait]
      exact notices_settle hn
    · cases hn
  | cancel | track _ | snapshot => cases hn
  | onComplete label =>
    -- a callback that comes late runs at once, and the gather is complete then
    rcases h.phase with hphase | hphase | hphase
    · obtain rfl : n = (label, .ok g.snapshot) := by
        simpa [Gather.take, Gather.onComplete, outcome?, hphase] using hn
      rw [take_of_isDone (isDone_of_completed hphase)]
      exact ⟨hphase, rfl⟩
    · simp [Gather.take, Gather.onComplete, outcome?, hphase] at hn
    · simp [Gather.take, Gather.onComplete, outcome?, hphase] at hn

/-- The callbacks that run in a run, in order. -/
def noticesAll : Gather → List Step → List Notice
  | _, [] => []
  | g, s :: steps => (g.take s).2 ++ noticesAll (g.take s).1 steps

theorem noticesAll_append (g : Gather) (steps steps' : List Step) :
    g.noticesAll (steps ++ steps') = g.noticesAll steps ++ (g.takeAll steps).noticesAll steps' := by
  induction steps generalizing g with
  | nil => rfl
  | cons s steps ih =>
    rw [List.cons_append, noticesAll, noticesAll, ih, List.append_assoc]
    rfl

/-- In any run a callback finds the gather completed, and gets its snapshot. -/
theorem Accounts.notices_takeAll (h : Accounts node own peers answers g) (steps : List Step)
    {n : Notice} (hn : n ∈ g.noticesAll steps) :
    (g.takeAll steps).phase = .completed ∧ n.2 = .ok (g.takeAll steps).snapshot := by
  induction steps generalizing g answers with
  | nil => cases hn
  | cons s steps ih =>
    rw [noticesAll, List.mem_append] at hn
    rw [Gather.takeAll, List.foldl_cons]
    rcases hn with hn | hn
    · obtain ⟨hphase, hout⟩ := h.notices_take s hn
      -- nothing happens any more after the callbacks
      have hstop := takeAll_of_isDone (isDone_of_completed hphase) steps
      rw [Gather.takeAll] at hstop
      rw [hstop]
      exact ⟨hphase, hout⟩
    · exact ih (h.take s) hn

end PushMesh.Gather
