import PushMesh.Proofs.Api.Request
import PushMesh.Proofs.Mesh.Deadline

/-!
# The default wait outlasts the peers

A node gives each call a time and perhaps a second attempt, and where a request says nothing else it
waits for longer than both attempts can take. So whatever the links do, and whatever else goes on in
the mesh, every peer has answered or failed by the end of the wait (`completed_run`): nobody is reported
as pending, and the wait is not what a request fails for (`outlasts`).
-/

namespace PushMesh

open Http (Answer Form Request)

/-- What a result tells that has heard of every peer. -/
structure Gathered.Hears (g : Gathered) (peers : List Node) : Prop where
  pending : g.pending = []
  /-- Each peer has answered, beside the node itself, or its call failed. -/
  peers : ∀ p ∈ peers, p.id ∈ g.responded.tail ∨ p.id ∈ g.failures.map (·.nodeId)

namespace Gather

/-- A complete gather has heard of every peer, and that is its outcome. -/
theorem Accounts.hears {g : Gather} {node : String} {own : Tally} {peers : List Node}
    {answers : List (String × Tally)}
    (h : g.Accounts node own (Ascending.ofList (peers.map (·.id))) answers)
    (hdone : g.phase = .completed) : g.expired = .ok g.snapshot ∧ g.snapshot.Hears peers := by
  have hempty : g.outstanding.toList = [] :=
    List.eq_nil_iff_forall_not_mem.2 (Ascending.isEmpty_iff.1 (h.completed_iff.1 hdone))
  refine ⟨?_, hempty, fun p hp => ?_⟩
  · rw [expired, outcome?, hdone]
  · by_contra hnot
    obtain ⟨hanswered, hfailed⟩ := not_or.1 hnot
    have hout := h.mem_outstanding_iff.2 ⟨List.mem_map.2 ⟨p, hp, rfl⟩, hanswered, hfailed⟩
    rw [hempty] at hout
    cases hout

end Gather

namespace Mesh

variable {m : Mesh} {node : String} {h : Host} {inquiry : Inquiry} {r : Registry} {own : Tally}

/-! ## The time that a dispatch takes -/

/-- A dispatch leaves each of its calls the time for all attempts. -/
theorem endsBy_dispatch (hm : m.Sound) (hh : m.host? node = some h)
    (hlocal : inquiry.runLocally h.registry = .ok (r, own)) :
    EndsBy m.nextId
      (m.now + (if h.config.retryOnTimeout then 2 else 1) * h.config.requestTimeout)
      (m.dispatch h inquiry).1 := by
  obtain ⟨metrics, gathers, heq⟩ := dispatch_frame hm.hosts (find?_of_host? hh) hlocal
  have hnow := m.now_dispatch h inquiry
  have htimers : (m.dispatch h inquiry).1.timers =
      m.timers ++ callTimers m.now m.nextOrder (m.callsOf h inquiry) := by rw [heq]
  constructor
  · intro t ht hfor
    -- a timer for the new gather is one of those that the dispatch sets
    have hown : t ∈ callTimers m.now m.nextOrder (m.callsOf h inquiry) := by
      rw [← timers_dispatch hm h inquiry, ← htimers]
      exact List.mem_filter.2 ⟨ht, hfor⟩
    -- it is due now, with all its attempts ahead
    obtain ⟨hdue, c, hc, hevent⟩ := of_mem_callTimers hown
    obtain ⟨task, hcall⟩ := eq_callTo_of_mem hc
    rw [hnow, Timer.latest, hdue, hevent, hcall]
    exact ⟨Nat.le_refl _, Nat.le_refl _⟩
  · obtain ⟨g, hg, -, -, hout, -, -⟩ := gather_dispatch (m := m) hlocal
    refine ⟨g, hg, fun _ n hn => ?_⟩
    rw [hout, Ascending.mem_ofList, ← m.callee_id_callsOf h inquiry] at hn
    -- a peer that is outstanding is called, and the call has its timer
    obtain ⟨c, hc, rfl⟩ := List.mem_map.1 hn
    obtain ⟨task, hcall⟩ := eq_callTo_of_mem hc
    have hset : Event.call c ∈
        (callTimers m.now m.nextOrder (m.callsOf h inquiry)).map (·.event) := by
      rw [event_callTimers]
      exact List.mem_map.2 ⟨c, hc, rfl⟩
    obtain ⟨t, ht, hevent⟩ := List.mem_map.1 hset
    have htimer : t.event.call? = some c := by rw [hevent]; rfl
    refine ⟨t, ?_, Timer.isFor_iff.2 ⟨c, htimer, by rw [hcall]; rfl⟩, ?_⟩
    · rw [htimers]
      exact List.mem_append_right _ ht
    · rw [Timer.isTo, htimer, Option.any_some]
      exact beq_self_eq_true _

/-- **Every peer has answered or failed** in a run on time after a dispatch that nobody cancels, once
the gather is over or the default wait is. -/
theorem completed_run (hm : m.Sound) (hh : m.host? node = some h)
    (hlocal : inquiry.runLocally h.registry = .ok (r, own)) {turns : List Turn}
    (hontime : (m.dispatch h inquiry).1.OnTimeAll turns) (hturns : .cancel m.nextId ∉ turns)
    (hend : ((m.dispatch h inquiry).1.run turns).isDone m.nextId = true ∨
      m.now + h.config.waitBudget ≤ ((m.dispatch h inquiry).1.run turns).now) :
    ∃ g, ((m.dispatch h inquiry).1.run turns).gather? m.nextId = some g ∧ g.isDone = true ∧
      g.expired = .ok g.snapshot ∧ g.snapshot.Hears h.peers := by
  have hs : (m.dispatch h inquiry).1.Sound := turn_dispatch hh inquiry ▸ hm.turn _
  have hid := m.nextId_lt_dispatch h inquiry
  obtain ⟨g, hg, haccounts, -, -, -, hphase⟩ := gather_dispatch (m := m) hlocal
  obtain ⟨steps, hgather, -, -⟩ := exists_steps_run hs hid hg turns
  have hnever := phase_run_ne_cancelled hs hid hg hphase hturns hgather
  have hafter := haccounts.takeAll steps
  -- it is not running and was not cancelled, so it is completed
  have hcompleted : (g.takeAll steps).phase = .completed := by
    rcases hafter.phase with hdone | hrun | hcancelled
    · exact hdone
    · rcases hend with hdone | hlate
      · rw [isDone, hgather, Option.all_some, Gather.isDone, hrun] at hdone
        cases hdone
      · -- all attempts are over by now
        have hends := (endsBy_dispatch hm hh hlocal).run hs hid hontime
        have hlimit : m.now + (if h.config.retryOnTimeout then 2 else 1) * h.config.requestTimeout <
            ((m.dispatch h inquiry).1.run turns).now := by
          rw [DispatchConfig.waitBudget, Nat.mul_comm] at hlate
          omega
        rw [hafter.completed_iff, Ascending.isEmpty_iff]
        exact fun n => hends.not_running hlimit hgather hrun
    · exact absurd hcancelled hnever
  obtain ⟨hexpired, hhears⟩ := hafter.hears hcompleted
  exact ⟨_, hgather, by rw [Gather.isDone, hcompleted]; rfl, hexpired, hhears⟩

/-- One who waits for as long as a node does by default hears of every peer. -/
theorem hears_wait (hm : m.Reached) (hh : m.host? node = some h)
    (hlocal : inquiry.runLocally h.registry = .ok (r, own)) :
    ∃ g : Gathered, ((m.dispatch h inquiry).1.wait (m.dispatch h inquiry).2
      (some h.config.waitBudget)).2 = .ok g ∧ g.Hears h.peers := by
  have hsound := hm.sound
  have hs : (m.dispatch h inquiry).1.Sound := turn_dispatch hh inquiry ▸ hsound.turn _
  have hpaced : (m.dispatch h inquiry).1.Paced := hm.paced.dispatch h inquiry
  have hnow := m.now_dispatch h inquiry
  have hbudget : (m.dispatch h inquiry).1.now < m.now + h.config.waitBudget := by
    rw [hnow, DispatchConfig.waitBudget]
    omega
  obtain ⟨ticks, rest, hticks, hontime, hwait, hend⟩ :=
    sees_waitFor hs hpaced (·.isDone m.nextId) hbudget
  have hnever : .cancel m.nextId ∉ ticks := fun hmem => Bool.false_ne_true (hticks _ hmem)
  obtain ⟨g, hgather, hdone, hexpired, hhears⟩ :=
    completed_run hsound hh hlocal hontime hnever hend
  refine ⟨g.snapshot, ?_, hhears⟩
  have hid := lt_nextId_run hs (m.nextId_lt_dispatch h inquiry) ticks
  have hstays := gather?_run_of_isDone (hs.run ticks) hid hgather hdone rest
  rw [snd_dispatch hlocal, wait, Option.map_some, hnow, hwait, outcome, hstays]
  exact hexpired

/-! ## Requests -/

/-- The answer to a request that asks the cluster, without a peer that is pending. -/
inductive Answered (h : Host) (inquiry : Inquiry) (view : Gathered → Json) (a : Answer) : Prop where
  /-- The node itself refuses the inquiry, and no peer is called. -/
  | refused {e : Refusal} (he : inquiry.runLocally h.registry = .error e)
      (ha : a = (Problem.ofRefusal e).answer false)
  | heard {g : Gathered} (hg : g.Hears h.peers) (ha : a = .json 200 (view g))

/-- A request without a timeout waits until it is answered. -/
theorem answered_inquire (hm : m.Reached) (hh : m.host? node = some h) (inquiry : Inquiry)
    (view : Gathered → Json) : Answered h inquiry view (m.inquire h inquiry none view).2 := by
  cases hlocal : inquiry.runLocally h.registry with
  | error e => exact .refused hlocal (inquire_of_refused hlocal none view)
  | ok result =>
    obtain ⟨g, hwait, hhears⟩ := hears_wait hm hh hlocal
    refine .heard hhears ?_
    unfold inquire
    dsimp only [Option.map_none, Option.getD_none]
    rw [hwait]

/-- A request that is answered has not run into a timeout. -/
theorem Answered.status_ne {view : Gathered → Json} {a : Answer} (ha : Answered h inquiry view a) :
    a.status ≠ 504 := by
  cases ha with
  | refused _ ha =>
    rw [ha]
    exact show 400 ≠ 504 by decide
  | heard _ ha =>
    rw [ha]
    exact show 200 ≠ 504 by decide

/-- What asks the cluster nothing does not time out. -/
theorem status_act_ne (m : Mesh) (h : Host) (now : Instant) {action : Action}
    (hasks : ∀ inquiry view t, ¬action.Asks inquiry view t) : (m.act h now action).2.status ≠ 504 := by
  cases action with
  | health | stats | nodes | metrics | serve _ => exact show 200 ≠ 504 by decide
  | openStream owner =>
    rw [act]
    split
    · exact show 200 ≠ 504 by decide
    · exact show 503 ≠ 504 by decide
  | inquire inquiry timeout => exact absurd (.inquire inquiry timeout) (hasks _ _ _)
  | online userId timeout => exact absurd (.online userId timeout) (hasks _ _ _)

/-- A request that does not say how long to wait is answered without a peer that is pending. -/
theorem answered_of_asks (hm : m.Reached) (hh : m.host? node = some h) (now : Instant)
    {request : Request} (habsent : (Form.ofQuery request.query).value? "timeout_ms" = none)
    {action : Action} (hr : Action.ofRequest h request = .ok action) {view : Gathered → Json}
    {t : Option UInt64} (hasks : action.Asks inquiry view t) :
    Answered h inquiry view (m.fullAnswer h now request) := by
  have ht := (Action.reads_ofRequest h request).timeout action hr inquiry view t hasks
  obtain rfl := Action.timeout_of_absent habsent ht
  rw [fullAnswer_of_asks hr hasks]
  exact answered_inquire hm hh inquiry view

/-- A request without a timeout does not run into one. -/
theorem status_fullAnswer_ne (hm : m.Reached) (hh : m.host? node = some h) (now : Instant)
    {request : Request} (habsent : (Form.ofQuery request.query).value? "timeout_ms" = none) :
    (m.fullAnswer h now request).status ≠ 504 := by
  cases hr : Action.ofRequest h request with
  | error a =>
    have hstatus := (Action.reads_ofRequest h request).blames a hr
    rw [fullAnswer, hr]
    dsimp only
    omega
  | ok action =>
    by_cases hasks : ∃ inquiry view t, action.Asks inquiry view t
    · obtain ⟨inquiry, view, t, hasks⟩ := hasks
      exact (answered_of_asks hm hh now habsent hr hasks).status_ne
    · rw [fullAnswer, hr]
      exact m.status_act_ne h now fun inquiry view t hask => hasks ⟨inquiry, view, t, hask⟩

/-- **The default wait outlasts the peers.** In a mesh with any past and any links, let a host with any
settings dispatch an inquiry that its own registry accepts, and let anything happen on time but a
cancellation of it: once the default wait is over, its outcome is a result in which nobody is pending
and every peer has answered or failed. So a request that does not say how long to wait never fails
because the wait was over, and where it asks the cluster it is answered with such a result, unless the
node itself refuses it. -/
theorem outlasts (hm : m.Reached) (hh : m.host? node = some h) :
    (∀ (inquiry : Inquiry) (r : Registry) (own : Tally) (turns : List Turn),
      inquiry.runLocally h.registry = .ok (r, own) → (m.dispatch h inquiry).1.OnTimeAll turns →
      .cancel (m.dispatch h inquiry).2 ∉ turns →
      m.now + h.config.waitBudget ≤ ((m.dispatch h inquiry).1.run turns).now →
      ∃ g : Gathered, ((m.dispatch h inquiry).1.run turns).outcome (m.dispatch h inquiry).2 = .ok g ∧
        g.Hears h.peers) ∧
    ∀ (now : Instant) (request : Request),
      (Form.ofQuery request.query).value? "timeout_ms" = none →
      (m.respond h now request).2.status ≠ 504 ∧
      ∀ (action : Action) (inquiry : Inquiry) (view : Gathered → Json) (t : Option UInt64),
        Action.ofRequest h request = .ok action → action.Asks inquiry view t →
        ∃ a, Answered h inquiry view a ∧
          (m.respond h now request).2 = (if request.method = "HEAD" then a.headOnly else a).shared := by
  constructor
  · intro inquiry r own turns hlocal hontime hturns hlate
    rw [snd_dispatch hlocal] at hturns ⊢
    obtain ⟨g, hgather, -, hexpired, hhears⟩ :=
      completed_run hm.sound hh hlocal hontime hturns (.inr hlate)
    refine ⟨g.snapshot, ?_, hhears⟩
    rw [outcome, hgather]
    exact hexpired
  · intro now request habsent
    constructor
    · rw [status_respond]
      exact status_fullAnswer_ne hm hh now habsent
    · intro action inquiry view t hr hasks
      exact ⟨_, answered_of_asks hm hh now habsent hr hasks, m.respond_eq h now request⟩

/-- A node that calls twice, one peer that never answers in time and one that is not there. -/
theorem outlasts_slow :
    let a : Host := { Host.standard "a" "host:1" [.peer "b" "host:2", .peer "c" "host:3"] with
      config := ⟨100, true, false⟩ }
    let m := (create [a, .standard "b" "host:2" []]
      ((∅ : Table String (List Link)).insert "b" [⟨300, .runs, false⟩])).run [.addSweeper "a" 1]
    let request : Request := ⟨"GET", "/api/v1/connections/count", "", [], ""⟩
    let turns : List Turn :=
      [.fire 0, .fire 1, .fire 2, .pass 100, .fire 4, .pass 100, .fire 5, .pass 500]
    m.Reached ∧ m.host? "a" = some a ∧ (m.dispatch a .count).1.OnTimeAll turns ∧
      (∃ g : Gathered, ((m.dispatch a .count).1.run turns).outcome (m.dispatch a .count).2 = .ok g ∧
        g.Hears a.peers) ∧
      (m.respond a default request).2.status ≠ 504 ∧
      ∃ answer, Answered a .count Gathered.toJson answer ∧
        (m.respond a default request).2 = answer.shared := by
  intro a m request turns
  have hm : m.Reached := by
    refine Reached.run (.create (by decide) (fun h hh => ⟨.standard, 0, [], ?_⟩) _) _
    simp only [List.mem_cons, List.not_mem_nil, or_false] at hh
    rcases hh with rfl | rfl <;> rfl
  have hh : m.host? "a" = some a := rfl
  have hontime : (m.dispatch a .count).1.OnTimeAll turns := by decide
  have hlocal : Inquiry.count.runLocally a.registry = .ok (a.registry, .count 0) := rfl
  have hroute : Route.ofPath? "/api/v1/connections/count" = some .connectionCount := by decide
  -- no timeout is asked for in the query
  have hasked : Action.ofRequest a request = .ok (.inquire .count none) := by
    rw [Action.ofRequest, hroute]
    rfl
  obtain ⟨hrun, hrequests⟩ := outlasts hm hh
  obtain ⟨hstatus, hanswer⟩ := hrequests default request rfl
  refine ⟨hm, hh, hontime, ?_, hstatus, hanswer _ .count Gathered.toJson none hasked (.inquire _ _)⟩
  exact hrun .count a.registry (.count 0) turns hlocal hontime (by simp [turns]) (by decide)

end Mesh

end PushMesh
