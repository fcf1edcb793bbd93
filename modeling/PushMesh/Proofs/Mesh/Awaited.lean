import PushMesh.Proofs.Mesh.Merged
import PushMesh.Proofs.Mesh.Timers
import PushMesh.Proofs.Mesh.Waiting
import PushMesh.Proofs.Registry.Refusal

/-!
# What one who waits for a healthy mesh gets

Where nothing is under way, a dispatch sets the only timers there are, and each of them sets none but
for the same call (`mem_timers_fire`). So one who waits lets just these go off, one after the other, and
as there are at most two for each call the wait is long enough to see the end (`Healthy.runUntil`).
What it brings is the merged answer of all nodes (`merged_wait`), and so it is known who is online
(`isOnline_iff`).
-/

namespace PushMesh.Mesh

variable {x : Setup} {hosts : List Host} {g : Gather} {answers : List (String × Tally)}
  {ran : String → Bool} {left : Nat} {m : Mesh} {h : Host} {inquiry : Inquiry} {own : Tally}

/-! ## The timers of one gather -/

/-- Whether all timers of a mesh are those of one gather. -/
def OnlyFor (id : Nat) (m : Mesh) : Prop :=
  ∀ t ∈ m.timers, Timer.isFor id t = true

/-- Where all timers are those of one gather, they stay so when one goes off. -/
theorem OnlyFor.fire {id : Nat} (h : OnlyFor id m) {t : Timer} (ht : t ∈ m.timers) :
    OnlyFor id (m.fire t) := by
  obtain ⟨c, hcall, hid⟩ := Timer.isFor_iff.1 (h t ht)
  intro u hu
  rcases mem_timers_fire hcall hu with hold | hnew
  · exact h u hold
  · exact Timer.isFor_iff.2 ⟨c, hnew, hid⟩

/-- In a healthy dispatch that is done no timer is left. -/
theorem Healthy.timers_eq_nil (h : Healthy x hosts g answers ran left m) (honly : OnlyFor x.id m)
    (hdone : g.isDone = true) : m.timers = [] := by
  refine List.eq_nil_iff_forall_not_mem.2 fun t ht => ?_
  obtain ⟨c, hcall, hid⟩ := Timer.isFor_iff.1 (honly t ht)
  -- a timer would belong to a call whose callee is still awaited
  have hnobody := (h.toKept.completed hdone).2
  have hplace := h.place c (h.timers t ht c hcall hid)
  have hdue := due_ne_nil ht hcall
  rw [hid] at hdue
  generalize (m.page x.id c.callee.id).due = due at hplace hdue
  cases hplace with
  | queued hout _ | trying hout _ _ => exact hnobody _ hout
  | settled _ _ => exact hdue rfl

/-! ## The wait -/

/-- A healthy dispatch is over after as many timers as there are steps left: by induction on the
timers that may go off. -/
theorem Healthy.runUntil (hx : x.Sane hosts) (hm : m.Sound) (honly : OnlyFor x.id m)
    (h : Healthy x hosts g answers ran left m) {fuel : Nat} (hfuel : left ≤ fuel) :
    ∃ g' answers' ran' left',
      Healthy x hosts g' answers' ran' left' (Mesh.runUntil (·.isDone x.id) none fuel m) ∧
        g'.isDone = true := by
  induction fuel generalizing m g answers ran left with
  | zero =>
    refine ⟨g, answers, ran, left, h, ?_⟩
    cases hdone : g.isDone with
    | true => rfl
    | false =>
      -- a timer that is left would use up a step
      obtain ⟨t, ht, hown⟩ := h.exists_timer hx hdone
      obtain ⟨-, -, -, left', -, hless⟩ := h.fire hx hm ht hown
      omega
  | succ fuel ih =>
    unfold Mesh.runUntil
    rw [h.isDone_eq]
    cases hdone : g.isDone with
    | true =>
      have hnone : m.nextTimer? = none := by
        rw [nextTimer?, h.timers_eq_nil honly hdone]
        rfl
      refine ⟨g, answers, ran, left, ?_, hdone⟩
      rw [if_pos rfl, drain, hnone]
      exact h
    | false =>
      obtain ⟨t, ht, -⟩ := h.exists_timer hx hdone
      cases hnext : m.nextTimer? with
      | none => exact absurd hnext (nextTimer?_ne_none ht)
      | some t =>
        have ht := nextTimer?_mem hnext
        obtain ⟨g₁, answers₁, ran₁, left₁, hhealthy, hless⟩ := h.fire hx hm ht (honly t ht)
        have hs := hm.ticks (ticks_fire hm ht)
        exact ih hs (honly.fire ht) hhealthy (by omega)

/-- The timers of a dispatch where nothing is under way. -/
theorem onlyFor_dispatch (hm : m.Sound) (hh : m.hosts.find? (·.self.id == h.self.id) = some h)
    {r : Registry} (hlocal : inquiry.runLocally h.registry = .ok (r, own)) (hquiet : m.timers = []) :
    OnlyFor m.nextId (m.dispatch h inquiry).1 ∧
      (m.dispatch h inquiry).1.timers.length = h.peers.length := by
  obtain ⟨metrics, gathers, heq⟩ := dispatch_frame hm.hosts hh hlocal
  have htimers : (m.dispatch h inquiry).1.timers =
      callTimers m.now m.nextOrder (m.callsOf h inquiry) := by
    rw [heq]
    show m.timers ++ _ = _
    rw [hquiet, List.nil_append]
  constructor
  · intro t ht
    have hown := timers_dispatch hm h inquiry
    rw [hquiet, List.nil_append] at hown
    rw [htimers, ← hown] at ht
    exact (List.mem_filter.1 ht).2
  · have hevents := congrArg List.length (event_callTimers m.now m.nextOrder (m.callsOf h inquiry))
    rw [List.length_map, List.length_map] at hevents
    rw [htimers, hevents, ← m.callee_callsOf h inquiry, List.length_map]

/-- **One who waits for a healthy mesh gets the merged answer.** Where nothing is under way, a wait
without a limit for a dispatch as in `merged_run` is long enough. -/
theorem merged_wait (hm : m.Reached) (hquiet : m.timers = [])
    (hgrown : ∀ k ∈ m.hosts, k.registry.Grown k.self.id)
    (hapart : m.hosts.Pairwise fun h k => ∀ id ∈ h.registry.registered, id ∉ k.registry.registered)
    (hendpoints : (m.hosts.map (·.self.endpointKey)).Nodup) {node : String}
    (hh : m.host? node = some h) (hknows : h.KnowsAll m.hosts)
    (hlinks : ∀ p ∈ h.peers, ∀ l ∈ linksTo m.links p.id, l.Prompt h.config.requestTimeout)
    {r : Registry} (hlocal : inquiry.runLocally h.registry = .ok (r, own)) :
    let (start, id) := m.dispatch h inquiry
    ∃ result, (start.wait id none).2 = .ok result ∧ Merged m.hosts h inquiry result := by
  show ∃ result, ((m.dispatch h inquiry).1.wait (m.dispatch h inquiry).2 none).2 = .ok result ∧ _
  have hsound : m.Sound := hm.sound
  have hmem : h ∈ m.hosts := host?_mem hh
  have hnode : h.registry.nodeId = h.self.id := (hgrown h hmem).nodeId_eq
  have hfind : m.hosts.find? (·.self.id == h.self.id) = some h := find?_of_mem hsound.hosts hmem
  have hpeers := hknows.perm_peers hmem hsound.hosts hendpoints
  have hsane := sane_setupOf hsound hlocal hnode hpeers
  obtain ⟨g₀, ran₀, hhealthy₀⟩ := healthy_dispatch hsound hfind hlocal hnode hlinks
  obtain ⟨honly, hlength⟩ := onlyFor_dispatch hsound hfind hlocal hquiet
  have hs : (m.dispatch h inquiry).1.Sound := turn_dispatch hh inquiry ▸ hsound.turn _
  obtain ⟨g, answers, ran, left, hhealthy, hdone⟩ : ∃ g answers ran left,
      Healthy (m.setupOf h inquiry own) m.hosts g answers ran left
        ((m.dispatch h inquiry).1.waitFor (·.isDone m.nextId) none) ∧ g.isDone = true := by
    unfold waitFor
    split
    · next hdone => exact ⟨g₀, [], ran₀, _, hhealthy₀, hhealthy₀.isDone_eq ▸ hdone⟩
    · refine hhealthy₀.runUntil hsane hs honly ?_
      rw [steps, hlength]
      -- a call has two timers, and a wait allows for more
      have hfour := Nat.mul_le_mul_left (h.peers.length + 1)
        (Nat.le_add_left 4 ((none.getD (m.dispatch h inquiry).1.horizon) -
          (m.dispatch h inquiry).1.now))
      omega
  rw [snd_dispatch hlocal]
  exact ⟨g.snapshot, hhealthy.outcome_eq hdone,
    hhealthy.merged hsane hmem hgrown hapart hlocal hpeers hdone⟩

/-- **A user is online if and only if a node has a connection of the user.** Asked in a healthy mesh where
nothing is under way, a node does not fail to answer, if the user is not blank. -/
theorem isOnline_iff (hm : m.Reached) (hquiet : m.timers = [])
    (hgrown : ∀ k ∈ m.hosts, k.registry.Grown k.self.id)
    (hapart : m.hosts.Pairwise fun h k => ∀ id ∈ h.registry.registered, id ∉ k.registry.registered)
    (hendpoints : (m.hosts.map (·.self.endpointKey)).Nodup) {node : String}
    (hh : m.host? node = some h) (hknows : h.KnowsAll m.hosts)
    (hlinks : ∀ p ∈ h.peers, ∀ l ∈ linksTo m.links p.id, l.Prompt h.config.requestTimeout)
    {userId : String} (huser : Text.isBlankText userId = false) :
    ∃ online, (m.isOnline h userId).2 = .ok online ∧
      (online = true ↔ ∃ k ∈ m.hosts, ∃ c ∈ k.registry.roster, c.userId = some userId) := by
  have hcheck : KeyKind.user.check userId = .ok () := KeyKind.check_eq_ok_iff.2 huser
  have hlocal : (Inquiry.queryByUserId userId).runLocally h.registry =
      .ok (h.registry, .connections (ConnectionSet.ofList
        (h.registry.describe ((h.registry.index .user).ids userId)))) := by
    rw [Inquiry.queryByUserId, Inquiry.runLocally, Registry.query, hcheck]
    rfl
  obtain ⟨result, hwait, hmerged⟩ :=
    merged_wait hm hquiet hgrown hapart hendpoints hh hknows hlinks hlocal
  exact ⟨result.foundAny, congrArg (Except.map Gathered.foundAny) hwait, hmerged.value.foundAny_iff⟩

example : ((pair.host? "a").map fun a => (pair.isOnline a "u").2.toOption) = some (some true) ∧
    ((pair.host? "a").map fun a => (pair.isOnline a "v").2.toOption) = some (some false) := by
  decide

end PushMesh.Mesh
