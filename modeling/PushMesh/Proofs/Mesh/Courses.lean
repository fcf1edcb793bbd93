import PushMesh.Proofs.Mesh.Books
import PushMesh.Proofs.Mesh.Steps

/-!
# The course of each call

As long as a call of a dispatch is under way something is due for it, its callee is awaited and nothing has been
counted for it. At its end its last reply goes into the gather and is counted, both at once, and nothing is due
any more. `Course` says where a call is, and `Charted` that each call of a dispatch is in one of these two
places. A timer that goes off keeps the chart (`Charted.fire`), and so does every turn but a cancellation.
-/

namespace PushMesh

namespace Mesh

/-- Where a call is, by its page and by what was counted for it. -/
inductive Course (g : Gather) (answers : List (String × Tally)) (c : PeerCall) (p : Page)
    (booked : List Booking) : Prop where
  | underWay {event : Event} (hout : c.callee.id ∈ g.outstanding) (hdue : p.due = [event])
      (hcall : event.call? = some c) (hbooked : booked = [])
  /-- Its last reply was taken and counted. -/
  | ended {last : Reply} (hout : c.callee.id ∉ g.outstanding) (hdue : p.due = [])
      (hlast : p.results.getLast? = some last) (htaken : (c.verdict last).Taken answers g)
      (hbooked : booked = [⟨c.gather, c.callee.id, (c.verdict last).outcome⟩])

/-- Each call of a dispatch is somewhere on its course, and nothing else was counted for the dispatch. -/
structure Charted (x : Setup) (g : Gather) (answers : List (String × Tally)) (booked : List Booking)
    (m : Mesh) : Prop extends Kept x g answers m where
  course : ∀ c ∈ x.calls, Course g answers c (m.page x.id c.callee.id)
    (booked.filter (·.peer == c.callee.id))
  callees : ∀ b ∈ booked, ∃ c ∈ x.calls, c.callee.id = b.peer

/-- The chart while one call is taken up: nothing is due for it, and nothing was counted. -/
structure TakenUp (x : Setup) (g : Gather) (answers : List (String × Tally)) (booked : List Booking)
    (c : PeerCall) (m : Mesh) : Prop extends Kept x g answers m where
  mem : c ∈ x.calls
  out : c.callee.id ∈ g.outstanding
  due : (m.page x.id c.callee.id).due = []
  unbooked : booked.filter (·.peer == c.callee.id) = []
  course : ∀ d ∈ x.others c, Course g answers d (m.page x.id d.callee.id)
    (booked.filter (·.peer == d.callee.id))
  callees : ∀ b ∈ booked, ∃ c ∈ x.calls, c.callee.id = b.peer

variable {x : Setup} {g g' : Gather} {answers answers' : List (String × Tally)}
  {booked : List Booking} {c : PeerCall} {p : Page} {m m' : Mesh}

/-- A call stays on its course as others are taken in. -/
theorem Course.mono (h : Course g answers c p booked)
    (hout : c.callee.id ∈ g'.outstanding ↔ c.callee.id ∈ g.outstanding) (hanswers : answers ⊆ answers')
    (hfailures : g.failures ⊆ g'.failures) : Course g' answers' c p booked := by
  cases h with
  | underWay hmem hdue hcall hbooked => exact .underWay (hout.2 hmem) hdue hcall hbooked
  | ended hmem hdue hlast htaken hbooked =>
    exact .ended (fun h => hmem (hout.1 h)) hdue hlast (htaken.mono hanswers hfailures) hbooked

/-! ## What is counted -/

/-- Where no outcome is counted, there is none since. -/
theorem outcomesSince_of_calls {before after : Metrics} (h : after.calls = before.calls) :
    outcomesSince before after = [] := by
  simp [outcomesSince, h]

/-- Where one outcome is counted, it is the one since. -/
theorem outcomesSince_recordCall {before after : Metrics} {o : CallOutcome}
    (h : after.calls = (before.recordCall o).calls) : outcomesSince before after = [o] := by
  have hdiff : ∀ p, after.calls p - before.calls p = if p = o then 1 else 0 := by
    intro p
    rw [h, Metrics.recordCall]
    dsimp only
    split <;> omega
  simp only [outcomesSince, hdiff]
  cases o <;> rfl

/-- What is counted for one call is told apart from what is counted for the others. -/
theorem filter_bookings {peer : String} (booked : List Booking) (id : Nat) (node : String)
    (outcomes : List CallOutcome) :
    (booked ++ outcomes.map (Booking.mk id node ·)).filter (·.peer == peer) =
      booked.filter (·.peer == peer) ++
        if node = peer then outcomes.map (Booking.mk id node ·) else [] := by
  rw [List.filter_append]
  congr 1
  split
  · next hsame =>
    refine List.filter_eq_self.2 fun b hb => ?_
    obtain ⟨o, -, rfl⟩ := List.mem_map.1 hb
    exact beq_iff_eq.2 hsame
  · next hne =>
    refine List.filter_eq_nil_iff.2 fun b hb hpeer => hne ?_
    obtain ⟨o, -, rfl⟩ := List.mem_map.1 hb
    exact beq_iff_eq.1 hpeer

/-! ## A timer that goes off -/

/-- The result of an attempt that was noted last is the last one on the page. -/
theorem getLast?_results {r : Reply} (h : m.journal.getLast? = some (.ended c r)) :
    (m.page c.gather c.callee.id).results.getLast? = some r := by
  obtain ⟨past, hpast⟩ := List.getLast?_eq_some_iff.1 h
  have hfor : CallEvent.isFor c.gather (.ended c r) = true := beq_self_eq_true c.gather
  have hresult : CallEvent.result? c.callee.id (.ended c r) = some r :=
    if_pos (beq_self_eq_true c.callee.id)
  rw [page, hpast, List.filter_append, List.filter_cons_of_pos hfor, List.filter_nil,
    List.filterMap_append, List.filterMap_cons, hresult]
  exact List.getLast?_concat

/-- A timer that goes off takes up its call. -/
theorem Charted.takeUp (h : Charted x g answers booked m) (hx : x.Valid) (hm : m.Sound) {t : Timer}
    (ht : t ∈ m.timers) (hcall : t.event.call? = some c) (hid : c.gather = x.id) :
    TakenUp x g answers booked c (m.popped t) := by
  have hc := h.timers t ht c hcall hid
  cases h.course c hc with
  | ended _ hdue _ _ _ =>
    -- a call that is over has no timer
    exact absurd hdue (hid ▸ due_ne_nil ht hcall)
  | underWay hout hdue _ hbooked =>
    obtain ⟨-, hpopped, hothers⟩ := page_popped hx hm ht hcall hc hdue
    refine ⟨h.toKept.popped t, hc, hout, ?_, hbooked, fun d hd => ?_, h.callees⟩
    · rw [hpopped, if_pos rfl]
    · rw [hothers d hd]
      exact h.course d (Setup.mem_others.1 hd).1

/-- What is only noted of the call that is taken up leaves it so. -/
theorem TakenUp.calm (h : TakenUp x g answers booked c m) (hx : x.Valid) (hcalm : Calm c m m') :
    TakenUp x g answers booked c m' := by
  obtain ⟨events, hjournal, hevents⟩ := hcalm.noted
  have hnoted : Noted c events m m' := ⟨hcalm.timers, hcalm.gathers, hjournal, hevents⟩
  refine ⟨hnoted.kept h.mem h.toKept, h.mem, h.out, ?_, h.unbooked, fun d hd => ?_, h.callees⟩
  · rw [hnoted.page hx h.mem, if_pos rfl]
    exact h.due
  · rw [hnoted.page_others hx h.mem hd]
    exact h.course d hd

/-- A call that is put down somewhere on its course leaves the others where they are. -/
theorem TakenUp.putDown (h : TakenUp x g answers booked c m) (hx : x.Valid)
    (hkept : Kept x g' answers' m') (outcomes : List CallOutcome)
    (hpages : ∀ d ∈ x.others c, m'.page x.id d.callee.id = m.page x.id d.callee.id)
    (hout : ∀ d ∈ x.others c, d.callee.id ∈ g'.outstanding ↔ d.callee.id ∈ g.outstanding)
    (hanswers : answers ⊆ answers') (hfailures : g.failures ⊆ g'.failures)
    (hcourse : Course g' answers' c (m'.page x.id c.callee.id)
      (outcomes.map (⟨c.gather, c.callee.id, ·⟩))) :
    Charted x g' answers' (booked ++ outcomes.map (⟨c.gather, c.callee.id, ·⟩)) m' := by
  refine ⟨hkept, fun d hd => ?_, fun b hb => ?_⟩
  · rw [filter_bookings]
    rcases hx.eq_or_mem_others h.mem hd with rfl | hd
    · rwa [if_pos rfl, h.unbooked]
    · rw [if_neg (Setup.mem_others.1 hd).2.symm, List.append_nil, hpages d hd]
      exact (h.course d hd).mono (hout d hd) hanswers hfailures
  · rcases List.mem_append.1 hb with hold | hnew
    · exact h.callees b hold
    · obtain ⟨o, -, rfl⟩ := List.mem_map.1 hnew
      exact ⟨c, h.mem, rfl⟩

/-- The call goes on, and nothing is counted. -/
theorem TakenUp.schedule (h : TakenUp x g answers booked c m) (hx : x.Valid) {next : Event}
    (hnext : next.call? = some c) (wait : Nat) : Charted x g answers booked (m.schedule wait next) := by
  have hdue : (m.schedule wait next).page x.id c.callee.id =
      { m.page x.id c.callee.id with due := [next] } := by
    rw [page_schedule m wait hnext (hx.gather c h.mem), if_pos rfl, h.due]
    rfl
  have hput := h.putDown hx (h.toKept.schedule h.mem hnext wait) []
    (fun d hd => page_schedule_others m hx h.mem hnext wait hd) (fun _ _ => Iff.rfl)
    (List.Subset.refl _) (List.Subset.refl _) (.underWay h.out (by rw [hdue]) hnext rfl)
  rwa [List.map_nil, List.append_nil] at hput

/-- The call ends as its last attempt did: its verdict is taken and counted. -/
theorem TakenUp.conclude (h : TakenUp x g answers booked c m) (hx : x.Valid) {r : Reply}
    (hlast : m.journal.getLast? = some (.ended c r)) :
    ∃ g' answers', Charted x g' answers'
      (booked ++ [(c.verdict r).outcome].map (⟨c.gather, c.callee.id, ·⟩)) (m.conclude c r) := by
  have hid := hx.gather c h.mem
  obtain ⟨haccounts, hphase, hout, hfailures⟩ :=
    h.accounts.verdict (v := c.verdict r) (h.toKept.awaits h.out)
  have htaken : (c.verdict r).Taken (answers ++ (c.verdict r).answer?.toList)
      (g.take (c.verdict r).step).1 := by
    refine ⟨fun a ha => List.mem_append_right _ (Option.mem_toList.2 ha), fun f hf => ?_⟩
    rw [hfailures]
    exact List.mem_append_right _ (Option.mem_toList.2 hf)
  have hpage := m.page_settle (·.recordCall (c.verdict r).outcome) c.gather
    (·.take (c.verdict r).step) x.id
  rw [conclude_eq]
  refine ⟨_, _, h.putDown hx (h.toKept.settle hid _ haccounts hphase) [(c.verdict r).outcome]
    (fun d _ => hpage _) (fun d hd => ?_) (List.subset_append_left ..)
    (hfailures ▸ List.subset_append_left ..) (.ended ?_ (by rw [hpage, h.due]) ?_ htaken rfl)⟩
  · rw [hout, Ascending.mem_erase]
    exact and_iff_left (Setup.mem_others.1 hd).2
  · rw [hout]
    exact fun hmem => (Ascending.mem_erase.1 hmem).2 rfl
  · rw [hpage, ← hid]
    exact getLast?_results hlast

/-- The end of a call counts the outcome of its verdict. -/
theorem metrics_conclude (m : Mesh) (c : PeerCall) (r : Reply) :
    (m.conclude c r).metrics = m.metrics.recordCall (c.verdict r).outcome := by
  obtain ⟨gathers, notices, heq⟩ :=
    (m.record (·.recordCall (c.verdict r).outcome)).onGather_frame c.gather
      (·.take (c.verdict r).step)
  rw [conclude_eq, heq]
  rfl

/-- **A timer keeps the chart**: its call ends and is counted, or it goes on and nothing is counted. -/
theorem Charted.fire (h : Charted x g answers booked m) (hx : x.Valid) (hm : m.Sound) {t : Timer}
    (ht : t ∈ m.timers) (hcall : t.event.call? = some c) (hid : c.gather = x.id) :
    ∃ g' answers', Charted x g' answers' (booked ++
      (outcomesSince m.metrics (m.fire t).metrics).map (⟨c.gather, c.callee.id, ·⟩)) (m.fire t) := by
  have htaken := h.takeUp hx hm ht hcall hid
  have hfollows := (m.popped t).follows_perform hcall
  rw [← fire_eq] at hfollows
  generalize m.fire t = m' at hfollows ⊢
  cases hfollows with
  | @ends s hcalm r hlast =>
    have hcounted : outcomesSince m.metrics (s.conclude c r).metrics = [(c.verdict r).outcome] := by
      refine outcomesSince_recordCall ?_
      rw [metrics_conclude, Metrics.recordCall, Metrics.recordCall, hcalm.calls]
      rfl
    rw [hcounted]
    exact (htaken.calm hx hcalm).conclude hx hlast
  | @waits s hcalm wait next hnext _ _ =>
    have hcounted : outcomesSince m.metrics (s.schedule wait next).metrics = [] :=
      outcomesSince_of_calls hcalm.calls
    rw [hcounted, List.map_nil, List.append_nil]
    exact ⟨g, answers, (htaken.calm hx hcalm).schedule hx hnext wait⟩

/-! ## Every turn -/

/-- What leaves a gather alone, with its calls, keeps the chart. -/
theorem Charted.undisturbed (h : Charted x g answers booked m) (hu : Undisturbed x.id m m') :
    ∃ g', Charted x g' answers booked m' := by
  obtain ⟨g', hsame, -, hkept⟩ := h.toKept.undisturbed hu
  refine ⟨g', hkept, fun c hc => ?_, h.callees⟩
  rw [page_congr hu.timers hu.journal]
  exact (h.course c hc).mono (by rw [hsame.outstanding]) (List.Subset.refl _)
    (hsame.failures ▸ List.Subset.refl _)

/-- A cancellation that comes too late does nothing. -/
theorem undisturbed_cancel {id : Nat} (hg : m.gather? id = some g) (hdone : g.isDone = true) :
    Undisturbed id m (m.cancel id).1 := by
  have hcancel : g.cancel = (g, false, []) := by
    unfold Gather.cancel
    split
    · next hrun => exact absurd hrun (Gather.isDone_iff.1 hdone)
    · rfl
  refine ⟨?_, ?_, fun g' hg' => ⟨g, ?_, ?_⟩⟩
  · have htimers : (m.cancel id).1.timers = m.timers := by
      rw [Mesh.cancel, hg]
      dsimp only
      rw [hcancel]
      exact List.filter_eq_self.2 fun t _ => by cases Timer.task? t <;> rfl
    rw [htimers]
  · rw [Mesh.cancel, hg]
  · rw [gather?_cancel, if_pos rfl, hg, Option.map_some, hcancel]
  · rw [← Option.some.inj (hg.symm.trans hg')]
    exact ⟨.refl g, rfl⟩

/-- A turn that is not about a gather counts nothing for it. -/
theorem filter_bookings_of_not_touches {id : Nat} {t : Turn} (ht : ¬m.touches t id) :
    (m.bookings t).filter (·.gather == id) = [] := by
  cases t with
  | fire order =>
    dsimp only [bookings, touches] at ht ⊢
    cases htimer : m.timer? order with
    | none => rfl
    | some t =>
      rw [htimer, Option.any_some] at ht
      dsimp only [Option.elim_some]
      cases hcall : t.event.call? with
      | none => rfl
      | some c =>
        refine List.filter_eq_nil_iff.2 fun b hb hid => ht ?_
        obtain ⟨o, -, rfl⟩ := List.mem_map.1 hb
        exact Timer.isFor_iff.2 ⟨c, hcall, beq_iff_eq.1 hid⟩
  | _ => rfl

/-- What a timer of a gather counts is counted for it. -/
theorem filter_bookings_fire {order : Nat} {t : Timer} (ht : m.timer? order = some t)
    (hcall : t.event.call? = some c) :
    (m.bookings (.fire order)).filter (·.gather == c.gather) =
      (outcomesSince m.metrics (m.fire t).metrics).map (⟨c.gather, c.callee.id, ·⟩) := by
  rw [bookings, ht, Option.elim_some, hcall, Option.elim_some]
  refine List.filter_eq_self.2 fun b hb => ?_
  obtain ⟨o, -, rfl⟩ := List.mem_map.1 hb
  exact beq_self_eq_true c.gather

/-- A turn keeps the chart, unless it cancels the gather. -/
theorem Charted.turn (h : Charted x g answers booked m) (hx : x.Valid) (hm : m.Sound)
    (hid : x.id < m.nextId) (t : Turn) :
    (∃ g' answers', Charted x g' answers' (booked ++ (m.bookings t).filter (·.gather == x.id))
      (m.turn t)) ∨ ∃ g', (m.turn t).gather? x.id = some g' ∧ g'.phase = .cancelled := by
  by_cases ht : m.touches t x.id
  · cases t with
    | dispatch node inquiry =>
      exact absurd hid (by rw [show x.id = m.nextId from ht]; exact Nat.lt_irrefl _)
    | fire order =>
      obtain ⟨t, htimer, hfor⟩ := (Option.any_eq_true ..).1 ht
      obtain ⟨c, hcall, hgather⟩ := Timer.isFor_iff.1 hfor
      have hturn : m.turn (.fire order) = m.fire t := by rw [Mesh.turn, htimer]; rfl
      have hbookings := filter_bookings_fire htimer hcall
      rw [hgather] at hbookings
      rw [hturn, hbookings, ← hgather]
      exact .inl (h.fire hx hm (timer?_mem htimer) hcall hgather)
    | cancel id =>
      obtain rfl : x.id = id := ht
      cases hdone : g.isDone with
      | true =>
        obtain ⟨g', hcharted⟩ := h.undisturbed (undisturbed_cancel h.gather hdone)
        exact .inl ⟨g', answers, by rwa [← List.append_nil booked] at hcharted⟩
      | false =>
        have hrun : g.phase = .running := by
          by_contra hne
          rw [Gather.isDone_iff.2 hne] at hdone
          cases hdone
        refine .inr ⟨g.cancel.1, ?_, by rw [Gather.phase_cancel, if_pos hrun]⟩
        rw [Mesh.turn, gather?_cancel, if_pos rfl, h.gather]
        rfl
    | pass _ | onComplete _ _ | operate _ _ | setLinks _ _ | setMembers _ _ | openStream _ _ _
    | readStream _ | dropStream _ | addSweeper _ _ | finishSweepers _ => exact ht.elim
  · obtain ⟨g', hcharted⟩ := h.undisturbed (undisturbed_turn hm hid ht)
    rw [filter_bookings_of_not_touches ht, List.append_nil]
    exact .inl ⟨g', answers, hcharted⟩

/-- So does a run: by induction on its turns. -/
theorem Charted.run (h : Charted x g answers booked m) (hx : x.Valid) (hm : m.Sound)
    (hid : x.id < m.nextId) (turns : List Turn) :
    (∃ g' answers', Charted x g' answers'
      (booked ++ (bookingsIn m turns).filter (·.gather == x.id)) (m.run turns)) ∨
      ∃ g', (m.run turns).gather? x.id = some g' ∧ g'.phase = .cancelled := by
  induction turns generalizing m g answers booked with
  | nil => exact .inl ⟨g, answers, by rwa [bookingsIn, List.filter_nil, List.append_nil]⟩
  | cons t turns ih =>
    have hm' := hm.turn t
    have hid' := lt_nextId_turn hm hid t
    rw [bookingsIn, List.filter_append, ← List.append_assoc]
    rcases h.turn hx hm hid t with ⟨g₁, answers₁, hcharted⟩ | ⟨g₁, hg₁, hcancelled⟩
    · exact ih hcharted hm' hid'
    · -- a gather that is cancelled stays so
      have hdone : g₁.isDone = true := Gather.isDone_iff.2 (by rw [hcancelled]; exact nofun)
      exact .inr ⟨g₁, gather?_run_of_isDone hm' hid' hg₁ hdone turns, hcancelled⟩

/-! ## The dispatch itself -/

/-- After the dispatch every call is under way. -/
theorem charted_dispatch {h : Host} {inquiry : Inquiry} {own : Tally} (hm : m.Sound)
    (hh : m.hosts.find? (·.self.id == h.self.id) = some h) {r : Registry}
    (hlocal : inquiry.runLocally h.registry = .ok (r, own)) :
    ∃ g, Charted (m.setupOf h inquiry own) g [] [] (m.dispatch h inquiry).1 := by
  obtain ⟨g, hkept, -, -, hout⟩ := kept_dispatch hm hh hlocal
  refine ⟨g, hkept, fun c hc => ?_, nofun⟩
  have hpage := page_dispatch_of_mem hm hh hlocal hc
  exact .underWay (hout c hc) (congrArg Page.due hpage) rfl rfl

/-- After a dispatch and any turns each call is on its course, unless the dispatch was cancelled. -/
theorem charted_run {node : String} {h : Host} {inquiry : Inquiry} {own : Tally} (hm : m.Sound)
    (hh : m.host? node = some h) {r : Registry} (hlocal : inquiry.runLocally h.registry = .ok (r, own))
    (after : List Turn) :
    (∃ g answers, Charted (m.setupOf h inquiry own) g answers
      ((bookingsIn (m.turn (.dispatch node inquiry)) after).filter (·.gather == m.nextId))
      (m.run (.dispatch node inquiry :: after))) ∨
      ∃ g, (m.run (.dispatch node inquiry :: after)).gather? m.nextId = some g ∧
        g.phase = .cancelled := by
  have hs := hm.turn (.dispatch node inquiry)
  obtain ⟨g, hcharted⟩ := charted_dispatch hm (find?_of_host? hh) hlocal
  have hlt := m.nextId_lt_dispatch h inquiry
  rw [← turn_dispatch hh inquiry] at hcharted hlt
  exact hcharted.run (m.valid_setupOf h inquiry own) hs hlt after

end Mesh

end PushMesh
