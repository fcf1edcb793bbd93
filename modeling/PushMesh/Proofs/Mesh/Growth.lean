import Mathlib.Algebra.Order.BigOperators.Group.List
import PushMesh.Proofs.Gather.Growth
import PushMesh.Proofs.Mesh.Resolved

/-!
# Later results

Results of a dispatch are had by looking at its gather or by waiting for it (`Obtains`). Of two of
them the later one has everything the earlier one has, whatever happens to the mesh in between
(`grown_later`). A run of the mesh is a run of the gather, so this is a matter of its steps. How much a
count may have grown can be read from the journal, since no answer comes into a gather without being
written down first (`Brings`).
-/

namespace PushMesh

/-- What a reply has for the gather of its call. -/
def PeerCall.tally? (c : PeerCall) (r : Reply) : Option Tally :=
  (r.bind (Tally.ofOutput c.kind)).toOption

/-- What the end of an attempt has for the gather. -/
def CallEvent.tally? : CallEvent → Option Tally
  | began _ => none
  | ran _ => none
  | ended c r => c.tally? r

namespace Mesh

variable {m m' s : Mesh} {c : PeerCall} {id : Nat} {g : Gather} {l l' : List Tally}

/-- What the peers have answered to a gather, the oldest answer first. -/
def answersTo (m : Mesh) (id : Nat) : List Tally :=
  (m.journal.filter (CallEvent.isFor id)).filterMap CallEvent.tally?

/-! ## What is written down -/

/-- What is written down of a call, with the answers `l`, while gathers stay as they are. -/
structure Writes (c : PeerCall) (l : List Tally) (m m' : Mesh) : Prop where
  gathers : m'.gathers = m.gathers
  journal : ∃ events, m'.journal = m.journal ++ events ∧ (∀ e ∈ events, e.call = c) ∧
    events.filterMap CallEvent.tally? = l

/-- Where gathers and the journal stay the same, nothing is written down. -/
theorem writes_of_journal (hgathers : m'.gathers = m.gathers) (hjournal : m'.journal = m.journal) :
    Writes c [] m m' where
  gathers := hgathers
  journal := by
    refine ⟨[], ?_, fun e he => ?_, rfl⟩
    · rw [hjournal, List.append_nil]
    · exact absurd he List.not_mem_nil

/-- A note writes down the answer that it has, if any. -/
theorem writes_note (m : Mesh) {e : CallEvent} (he : e.call = c) :
    Writes c e.tally?.toList m (m.note e) := by
  refine ⟨rfl, [e], rfl, fun _ => call_of_mem_singleton he, ?_⟩
  rw [List.filterMap_cons, List.filterMap_nil]
  cases e.tally? <;> rfl

theorem Writes.trans (h : Writes c l m m') (h' : Writes c l' m' s) : Writes c (l ++ l') m s := by
  obtain ⟨events, hjournal, hcall, rfl⟩ := h.journal
  obtain ⟨events', hjournal', hcall', rfl⟩ := h'.journal
  refine ⟨h'.gathers.trans h.gathers, events ++ events', ?_, ?_, List.filterMap_append⟩
  · rw [hjournal', hjournal, List.append_assoc]
  · exact fun e he => (List.mem_append.1 he).elim (hcall e) (hcall' e)

/-- What is written down of a call of a gather stands behind what the peers answered before. -/
theorem Writes.answersTo_eq (h : Writes c l m m') (hc : c.gather = id) :
    m'.answersTo id = m.answersTo id ++ l := by
  obtain ⟨events, hjournal, hcall, rfl⟩ := h.journal
  have hown : events.filter (CallEvent.isFor id) = events := by
    refine List.filter_eq_self.2 fun e he => ?_
    rw [CallEvent.isFor, hcall e he, hc]
    exact beq_self_eq_true id
  rw [answersTo, hjournal, List.filter_append, List.filterMap_append, hown]
  rfl

/-- Executing an operation writes down no answer. -/
theorem writes_execute (m : Mesh) (c : PeerCall) : Writes c [] m (m.execute c).1 := by
  have hran : ∀ {s : Mesh}, Writes c [] m s → Writes c [] m (s.note (.ran c)) :=
    fun hs => hs.trans (writes_note _ (e := .ran c) rfl)
  unfold execute
  split
  · exact writes_of_journal rfl rfl
  · split
    · exact hran (writes_of_journal rfl rfl)
    · exact hran (writes_of_journal rfl rfl)

/-- The start of a call writes down no answer. -/
theorem writes_begin (m : Mesh) (c : PeerCall) : Writes c [] m (m.begin c).1 := by
  have hbegan : ∀ {s : Mesh}, s.gathers = m.gathers → s.journal = m.journal ++ [.began c] →
      Writes c [] m s :=
    fun hgathers hjournal => ⟨hgathers, _, hjournal, fun _ => call_of_mem_singleton rfl, rfl⟩
  have hexecute : ∀ {s : Mesh}, Writes c [] m s → Writes c [] m (s.execute c).1 :=
    fun hs => hs.trans (writes_execute _ c)
  unfold begin
  dsimp only
  rw [takeLink_eq]
  dsimp only
  split
  · exact hexecute (hbegan rfl rfl)
  · exact hbegan rfl rfl

/-- The end of an attempt is written down with its reply. -/
theorem writes_arrive (m : Mesh) (c : PeerCall) (link : Link) (early : Option Reply) :
    Writes c (c.tally? (m.arrive c link early).2).toList m (m.arrive c link early).1 := by
  have hanswer : Writes c [] m (m.answer c link early).1 := by
    unfold answer
    split
    · exact writes_of_journal rfl rfl
    · split
      · exact writes_of_journal rfl rfl
      · exact writes_execute m c
      all_goals exact writes_of_journal rfl rfl
  have hended : ∀ (s : Mesh) (r : Reply), Writes c (c.tally? r).toList s (s.note (.ended c r)) :=
    fun s r => s.writes_note (e := .ended c r) rfl
  exact hanswer.trans (hended _ _)

/-- An attempt that gets a reply writes down its answer. -/
theorem writes_attempt (m : Mesh) (c : PeerCall) (isSecond : Bool) :
    ∃ s, (∃ r, m.attempt c isSecond = (s, some r) ∧ Writes c (c.tally? r).toList m s) ∨
      (m.attempt c isSecond = (s, none) ∧ Writes c [] m s) := by
  have hbegin := m.writes_begin c
  unfold attempt
  dsimp only
  split
  · exact ⟨_, .inl ⟨_, rfl, hbegin.trans (writes_arrive _ c _ _)⟩⟩
  · exact ⟨_, .inr ⟨rfl, hbegin.trans (writes_of_journal rfl rfl)⟩⟩

/-! ## What comes into the gather -/

/-- What becomes of a call in a step: it is still under way, or it ends with a reply that has been written
down. -/
def Brings (c : PeerCall) (m m' : Mesh) : Prop :=
  Writes c [] m m' ∨ ∃ s r, Writes c (c.tally? r).toList m s ∧ m' = s.conclude c r

/-- After an attempt a call is still under way, or it ends with a reply that was written down. -/
theorem brings_afterAttempt {r : Reply} (h : Writes c (c.tally? r).toList m s) (isSecond : Bool) :
    Brings c m (s.afterAttempt c isSecond r) := by
  by_cases hretry : (!isSecond && wantsRetry c r) = true
  · -- only an attempt without an answer is repeated
    have hnone : (c.tally? r).toList = [] := by
      cases r with
      | ok _ => simp [wantsRetry] at hretry
      | error _ => rfl
    rw [hnone] at h
    rw [afterAttempt, if_pos hretry]
    obtain ⟨s', ⟨r', heq, hwrites⟩ | ⟨heq, hwrites⟩⟩ := s.writes_attempt c true
    · rw [heq]
      exact .inr ⟨s', r', h.trans hwrites, rfl⟩
    · rw [heq]
      exact .inl (h.trans hwrites)
  · rw [afterAttempt, if_neg hretry]
    exact .inr ⟨s, r, h, rfl⟩

/-- Whatever goes off for a call, it stays under way or ends with a reply that was written down. -/
theorem brings_perform (m : Mesh) {event : Event} (hcall : event.call? = some c) :
    Brings c m (m.perform event) := by
  cases event with
  | call c' =>
    obtain rfl : c' = c := Option.some.inj hcall
    rw [perform]
    obtain ⟨s, ⟨r, heq, hwrites⟩ | ⟨heq, hwrites⟩⟩ := m.writes_attempt c' false
    · rw [heq]
      exact brings_afterAttempt hwrites false
    · rw [heq]
      exact .inl hwrites
  | arrival c' isSecond link early =>
    obtain rfl : c' = c := Option.some.inj hcall
    exact brings_afterAttempt (m.writes_arrive c' link early) isSecond
  | sweeperStart _ | sweep _ => cases hcall

/-- What a verdict offers the gather is what the reply has for it. -/
theorem answer?_verdict (c : PeerCall) (r : Reply) :
    (c.verdict r).step.answer?.map (·.2) = c.tally? r := by
  rw [Gather.Verdict.answer?_step, Gather.Verdict.answer?, PeerCall.verdict, PeerCall.tally?]
  cases r.bind (Tally.ofOutput c.kind) <;> rfl

/-- What a gather takes, and the answers that it is offered with that. -/
structure Offered (id : Nat) (l : List Tally) (m m' : Mesh) (g : Gather) (steps : List Gather.Step) :
    Prop where
  gather : m'.gather? id = some (g.takeAll steps)
  answersTo : m'.answersTo id = m.answersTo id ++ l
  offers : (steps.filterMap Gather.Step.answer?).map (·.2) = l

/-- A gather is offered only answers that were written down. -/
theorem Brings.offered (h : Brings c m m') (hc : c.gather = id) (hg : m.gather? id = some g) :
    ∃ steps l, Offered id l m m' g steps := by
  rcases h with hwrites | ⟨s, r, hwrites, rfl⟩
  · exact ⟨[], [], (congrArg (Table.get? · id) hwrites.gathers).trans hg, hwrites.answersTo_eq hc, rfl⟩
  · obtain ⟨f, heq⟩ := s.exists_conclude_eq c r
    have hs : (s.record f).gather? id = some g :=
      (congrArg (Table.get? · id) hwrites.gathers).trans hg
    obtain ⟨gathers, notices, hframe⟩ := (s.record f).onGather_frame id (·.take (c.verdict r).step)
    have hjournal : (s.conclude c r).answersTo id = s.answersTo id := by
      rw [heq, hc, hframe]
      rfl
    refine ⟨[(c.verdict r).step], _, ?_, hjournal.trans (hwrites.answersTo_eq hc), ?_⟩
    · rw [heq, hc]
      exact (takes_onGather hs (c.verdict r).step).gather
    · rw [← answer?_verdict, List.filterMap_cons, List.filterMap_nil]
      cases (c.verdict r).step.answer? <;> rfl

/-- What a turn offers a gather is written down in it. -/
theorem exists_offered_turn (hm : m.Sound) (hid : id < m.nextId) (hg : m.gather? id = some g)
    (t : Turn) : ∃ steps l, Offered id l m (m.turn t) g steps := by
  -- where nothing is written down, nothing may be offered
  have hnothing : ∀ steps, (m.turn t).gather? id = some (g.takeAll steps) →
      (m.turn t).journal.filter (CallEvent.isFor id) = m.journal.filter (CallEvent.isFor id) →
      steps.filterMap Gather.Step.answer? = [] → ∃ steps l, Offered id l m (m.turn t) g steps := by
    intro steps hgather hjournal hsteps
    refine ⟨steps, [], hgather, ?_, by rw [hsteps]; rfl⟩
    rw [answersTo, hjournal, List.append_nil]
    rfl
  cases ht : m.concerns id t with
  | false =>
    refine hnothing [] ((gather?_turn ht).trans hg) ?_ rfl
    refine (undisturbed_turn hm hid fun htouches => ?_).journal
    cases t with
    | dispatch node inquiry => exact absurd htouches.symm (beq_eq_false_iff_ne.1 ht)
    | fire order => exact Bool.false_ne_true (ht.symm.trans htouches)
    | cancel id' => exact absurd htouches.symm (beq_eq_false_iff_ne.1 ht)
    | _ => exact htouches
  | true =>
    cases t with
    | dispatch node inquiry =>
      exact absurd hid (by rw [beq_iff_eq.1 ht]; exact Nat.lt_irrefl _)
    | fire order =>
      obtain ⟨t, htimer, hfor⟩ := (Option.any_eq_true ..).1 ht
      obtain ⟨c, hc, hgather⟩ := Timer.isFor_iff.1 hfor
      have hturn : m.turn (.fire order) = (m.popped t).perform t.event := by
        rw [turn, htimer]
        rfl
      rw [hturn]
      obtain ⟨steps, l, hoffered⟩ := (brings_perform (m.popped t) hc).offered hgather (g := g) hg
      exact ⟨steps, l, hoffered.gather, hoffered.answersTo, hoffered.offers⟩
    | cancel id' =>
      obtain rfl := beq_iff_eq.1 ht
      refine hnothing [.cancel] ?_ ?_ rfl
      · rw [turn, gather?_cancel, if_pos rfl, hg]
        rfl
      · rw [turn, cancel, hg]
    | onComplete id' label =>
      obtain rfl := beq_iff_eq.1 ht
      obtain ⟨gathers, notices, hframe⟩ := m.onGather_frame id' (·.onComplete label)
      refine hnothing [.onComplete label] ?_ ?_ rfl
      · exact (takes_onGather hg (.onComplete label)).gather
      · rw [turn, hframe]
    | pass _ | operate _ _ | setLinks _ _ | setMembers _ _ | openStream _ _ _
    | readStream _ | dropStream _ | addSweeper _ _ | finishSweepers _ => cases ht

/-- What a run offers a gather is written down in it: by induction on the turns. -/
theorem exists_offered_run (hm : m.Sound) (hid : id < m.nextId) (hg : m.gather? id = some g)
    (turns : List Turn) : ∃ steps l, Offered id l m (m.run turns) g steps := by
  induction turns generalizing m g with
  | nil => exact ⟨[], [], hg, (List.append_nil _).symm, rfl⟩
  | cons t turns ih =>
    obtain ⟨steps, l, hfirst⟩ := exists_offered_turn hm hid hg t
    obtain ⟨steps', l', hrest⟩ := ih (hm.turn t) (lt_nextId_turn hm hid t) hfirst.gather
    refine ⟨steps ++ steps', l ++ l', ?_, ?_, ?_⟩
    · rw [Gather.takeAll_append]
      exact hrest.gather
    · rw [← List.append_assoc, ← hfirst.answersTo]
      exact hrest.answersTo
    · rw [List.filterMap_append, List.map_append, hfirst.offers, hrest.offers]

/-! ## Two results -/

/-- How a result is had in a mesh, and what becomes of the mesh meanwhile. -/
inductive Obtains (id : Nat) (m : Mesh) : Gathered → Mesh → Prop where
  | look {g : Gather} (hg : m.gather? id = some g) : Obtains id m g.snapshot m
  | wait (limit : Option Nat) {r : Gathered} (hr : (m.wait id limit).2 = .ok r) :
      Obtains id m r (m.wait id limit).1

/-- Whoever obtains a result has let some timers fire, and sees what the gather has come to then. -/
theorem Obtains.exists_run {r : Gathered} (h : Obtains id m r s) (hm : m.Sound) (hid : id < m.nextId)
    (hg : m.gather? id = some g) :
    ∃ ticks g', s = m.run ticks ∧ s.gather? id = some g' ∧ g'.Shows r := by
  cases h with
  | look hg' => exact ⟨[], _, rfl, hg', .inl rfl⟩
  | wait limit hr =>
    obtain ⟨ticks, -, heq⟩ := exists_ticks_wait hm id limit
    obtain ⟨steps, hgather, -, -⟩ := exists_steps_run hm hid hg ticks
    rw [heq] at hr ⊢
    refine ⟨ticks, g.takeAll steps, rfl, hgather, .inr (.inr ?_)⟩
    rw [← outcome_of_gather? hgather]
    exact hr

/-- What a gather is offered in between is enough for a later result. -/
theorem Offered.grown {steps : List Gather.Step} {r r' : Gathered} (h : Offered id l m m' g steps)
    (hr : g.Shows r) (hr' : (g.takeAll steps).Shows r') : Gathered.Grown l r r' := by
  obtain ⟨hresponded, hfailures, hpending, hvalue⟩ := g.grown_takeAll steps hr hr'
  refine ⟨hresponded, hfailures, hpending, fun hfit => hvalue fun hkind => ?_⟩
  -- the gather accepts some of what it is offered
  have haccepted : ((g.acceptedAll steps).map (·.2)).Sublist l :=
    h.offers ▸ (g.acceptedAll_sublist steps).map _
  have hle := (haccepted.map Tally.size).sum_le_sum fun _ _ => Nat.zero_le _
  exact Nat.lt_of_le_of_lt (Nat.add_le_add_left hle _) (hfit hkind)

/-- Of two results of a gather that are obtained one after the other the later one has grown. -/
theorem grown_obtained {r r' : Gathered} {s' : Mesh} (hm : m.Sound) (hid : id < m.nextId)
    (hg : m.gather? id = some g) (hr : Obtains id m r s) (between : List Turn)
    (hr' : Obtains id (s.run between) r' s') :
    Gathered.Grown ((s'.answersTo id).drop (s.answersTo id).length) r r' := by
  obtain ⟨ticks, g₁, rfl, hg₁, hshows⟩ := hr.exists_run hm hid hg
  have hm₁ : (m.run ticks).Sound := hm.run ticks
  have hid₁ := lt_nextId_run hm hid ticks
  obtain ⟨steps, -, hgather, -⟩ := exists_offered_run hm₁ hid₁ hg₁ between
  obtain ⟨ticks', g₂, rfl, hg₂, hshows'⟩ :=
    hr'.exists_run (hm₁.run between) (lt_nextId_run hm₁ hid₁ between) hgather
  obtain ⟨steps, l, hoffered⟩ := exists_offered_run hm₁ hid₁ hg₁ (between ++ ticks')
  have hrun : ((m.run ticks).run between).run ticks' = (m.run ticks).run (between ++ ticks') :=
    List.foldl_append.symm
  rw [hrun] at hg₂ ⊢
  obtain rfl : g₂ = g₁.takeAll steps := Option.some.inj (hg₂.symm.trans hoffered.gather)
  rw [hoffered.answersTo, List.drop_left]
  exact hoffered.grown hshows hshows'

/-- **Later results have everything that earlier ones have.** Let a gather take any steps, or let a host of
a mesh with any past dispatch any inquiry, and then let anything happen: of two results that are seen one
after the other, the later one has grown by answers that came in between. In the mesh these are among those
that were written down, and it does not matter whether one looks at the gather or waits for it. -/
theorem grown_later :
    (∀ (g : Gather) (steps : List Gather.Step) (r r' : Gathered), g.Shows r →
      (g.takeAll steps).Shows r' → Gathered.Grown ((g.acceptedAll steps).map (·.2)) r r') ∧
    ∀ (m : Mesh) (node : String) (h : Host) (inquiry : Inquiry) (before between : List Turn)
      (r r' : Gathered) (s s' : Mesh), m.Reached → m.host? node = some h →
      let id := (m.dispatch h inquiry).2
      Obtains id (m.run (.dispatch node inquiry :: before)) r s → Obtains id (s.run between) r' s' →
      Gathered.Grown ((s'.answersTo id).drop (s.answersTo id).length) r r' := by
  refine ⟨fun g steps r r' => g.grown_takeAll steps, ?_⟩
  intro m node h inquiry before between r r' s s' hm hh id hr hr'
  have hm : m.Sound := hm.sound
  have hnode : h.self.id = node := by simpa using List.find?_some hh
  have hdispatch : m.turn (.dispatch node inquiry) = (m.dispatch h inquiry).1 := turn_dispatch hh inquiry
  obtain ⟨g, hg, hid, -⟩ := opened_dispatch hm (hnode ▸ hh) inquiry
  have hs : (m.dispatch h inquiry).1.Sound := hdispatch ▸ hm.turn _
  obtain ⟨steps, hgather, -, -⟩ := exists_steps_run hs hid hg before
  have hrun : m.run (.dispatch node inquiry :: before) = (m.dispatch h inquiry).1.run before :=
    congrArg (·.run before) hdispatch
  rw [hrun] at hr
  exact grown_obtained (hs.run before) (lt_nextId_run hs hid before) hgather hr between hr'

/-- Two nodes report the same connection in different ways, the second one a while after the first. -/
def straggling : Mesh :=
  let d : Descriptor := { (default : Descriptor) with id := 7, nodeId := "b", delivered := 1 }
  let early : Link := ⟨0, .answers (.connections [d]), false⟩
  let late : Link := ⟨5, .answers (.connections [{ d with delivered := 2 }]), false⟩
  let links := ((∅ : Table String (List Link)).insert "b" [early]).insert "c" [late]
  create [.standard "a" "host:1" [.peer "b" "host:2", .peer "c" "host:3"]] links

/-- A wait that ends between the two reports, and one that ends after them. -/
theorem grown_later_straggling :
    let a := Host.standard "a" "host:1" [.peer "b" "host:2", .peer "c" "host:3"]
    let id := (straggling.dispatch a .queryAll).2
    let m := straggling.run [.dispatch "a" .queryAll, .onComplete id "told"]
    let g := Gather.start "a" (.count 1) ["b", "c"] true
    let steps : List Gather.Step := [.complete "c" (.count 2), .complete "d" (.count 3)]
    straggling.Reached ∧ straggling.host? "a" = some a ∧
      (∃ r r' s s', Obtains id m r s ∧ r.pending = ["c"] ∧
        Obtains id (s.run [.setMembers "a" []]) r' s' ∧ r'.pending = [] ∧
        Gathered.Grown ((s'.answersTo id).drop (s.answersTo id).length) r r') ∧
      Gathered.Grown ((g.acceptedAll steps).map (·.2)) g.snapshot (g.takeAll steps).snapshot := by
  intro a id m g steps
  have hm : straggling.Reached := by
    refine .create (by decide) (fun k hk => ⟨.standard, 0, [], ?_⟩) _
    obtain rfl := List.mem_singleton.1 hk
    rfl
  have hh : straggling.host? "a" = some a := rfl
  let s := (m.wait id (some 3)).1.run [.setMembers "a" []]
  -- the second peer answers after three milliseconds, the third one later
  have hbefore : (m.wait id (some 3)).2.map (·.pending) = .ok ["c"] := by decide +kernel
  have hafter : (s.wait id none).2.map (·.pending) = .ok [] := by decide +kernel
  have hresult : ∀ {o : Outcome} {pending : List String}, o.map (·.pending) = .ok pending →
      ∃ r, o = .ok r ∧ r.pending = pending := by
    intro o pending h
    cases o with
    | error _ => cases h
    | ok r => exact ⟨r, rfl, Except.ok.inj h⟩
  obtain ⟨r, hr, hpending⟩ := hresult hbefore
  obtain ⟨r', hr', hpending'⟩ := hresult hafter
  have hfirst : Obtains id m r (m.wait id (some 3)).1 := .wait (some 3) hr
  have hsecond : Obtains id s r' (s.wait id none).1 := .wait none hr'
  refine ⟨hm, hh, ⟨r, r', _, _, hfirst, hpending, hsecond, hpending', ?_⟩, ?_⟩
  · exact grown_later.2 straggling "a" a .queryAll [.onComplete id "told"] [.setMembers "a" []] r r' _ _
      hm hh hfirst hsecond
  · exact grown_later.1 g steps _ _ (.inl rfl) (.inl rfl)

end Mesh

end PushMesh
