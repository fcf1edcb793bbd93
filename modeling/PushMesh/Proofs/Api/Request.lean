import PushMesh.Api.Serve
import PushMesh.Proofs.Mesh.Work

/-!
# What becomes of a request

A request is read into an action, or refused with an answer that blames the client. Whatever route it
takes, a request that asks the cluster says in the same field of its query how long it wants to wait
(`Action.reads_ofRequest`). It is answered with what the wait brings, and as a bad request where the
node itself refuses the inquiry (`Mesh.inquire_of_refused`).
-/

namespace PushMesh

open Http (Answer Form Rejection Request)

namespace Action

variable {h : Host} {r : Request} {action : Action}

/-! ## Actions -/

/-- Two computations in turn succeed iff each of them does. -/
theorem bind_eq_ok_iff {ε α β : Type} {x : Except ε α} {f : α → Except ε β} {b : β} :
    (x >>= f) = .ok b ↔ ∃ a, x = .ok a ∧ f a = .ok b := by
  cases x <;> simp [bind, Except.bind]

/-- Turning a rejection into an answer does not change what is accepted. -/
theorem refusing_eq_ok_iff {α : Type} {e : Except Rejection α} {a : α} :
    refusing e = .ok a ↔ e = .ok a := by
  cases e <;> simp [refusing, Except.mapError]

/-- A route is chosen for a request that asks for something. -/
theorem exists_route_of_ofRequest (hr : ofRequest h r = .ok action) :
    ∃ route, ofRoute h r route = .ok action := by
  rw [ofRequest] at hr
  split at hr
  · cases hr
  · split at hr
    · cases hr
    · split at hr
      · obtain ⟨_, -, hroute⟩ := bind_eq_ok_iff.1 hr
        exact ⟨_, hroute⟩
      · cases hr

/-- What an action asks the cluster, how the result is shown, and how long it wants to wait. -/
inductive Asks : Action → Inquiry → (Gathered → Json) → Option UInt64 → Prop where
  | inquire (inquiry : Inquiry) (timeout : Option UInt64) :
      Asks (.inquire inquiry timeout) inquiry Gathered.toJson timeout
  | online (userId : String) (timeout : Option UInt64) :
      Asks (.online userId timeout) (.queryByUserId userId) (Gathered.online userId) timeout

/-- A request whose query does not say how long to wait does not want to wait for any time. -/
theorem timeout_of_absent (habsent : (Form.ofQuery r.query).value? "timeout_ms" = none)
    {t : Option UInt64} (ht : timeout r = .ok t) : t = none := by
  obtain ⟨form, hform, ht⟩ := bind_eq_ok_iff.1 ht
  rw [Request.form] at hform
  split at hform
  · obtain rfl := Except.ok.inj hform
    rw [habsent] at ht
    exact (Except.ok.inj ht).symm
  · cases hform

/-! ## Refusals -/

/-- Whether every answer that refuses a request leaves the service out of the blame. -/
def Blames {α : Type} (e : Except Answer α) : Prop :=
  ∀ a, e = .error a → a.status < 500

/-- What is accepted blames nobody. -/
theorem blames_ok {α : Type} (a : α) : Blames (.ok a) := nofun

/-- An answer below 500 blames the request. -/
theorem blames_error {α : Type} {a : Answer} (ha : a.status < 500) :
    Blames (.error a : Except Answer α) := by
  intro a' ha'
  rwa [← Except.error.inj ha']

/-- A rejected request is answered below 500. -/
theorem status_rejected_lt (e : Rejection) : (Answer.rejected e).status < 500 := by
  cases e <;> decide

/-- What refuses a request blames it. -/
theorem blames_refusing {α : Type} (e : Except Rejection α) : Blames (refusing e) := by
  cases e with
  | error e => exact blames_error (status_rejected_lt e)
  | ok a => exact blames_ok a

/-- A selection that cannot be read blames the request. -/
theorem blames_selection (form : Form) : Blames (selection form) := by
  unfold selection
  split
  · exact blames_ok _
  · exact blames_ok _
  · exact blames_error (by decide)

/-- An empty list of ids or keys blames the request. -/
theorem blames_nonEmpty {α : Type} (name : String) (l : List α) : Blames (nonEmpty name l) := by
  unfold nonEmpty
  split
  · exact blames_error (show 400 < 500 by decide)
  · exact blames_ok _

/-- Whoever is turned away at the gate declared too long a body, or does not present the secret. -/
theorem peerGate_eq_error {a : Answer} (ha : peerGate h r = .error a) :
    a = .rejected .bodyLength ∨ ∃ message, a = (Problem.authentication message).answer false := by
  unfold peerGate at ha
  split at ha
  · exact .inl (Except.error.inj ha).symm
  · split at ha
    · cases ha
    · split at ha
      · split at ha
        · cases ha
        · exact .inr ⟨_, (Except.error.inj ha).symm⟩
      · exact .inr ⟨_, (Except.error.inj ha).symm⟩

/-- The gate blames the request. -/
theorem blames_gate (h : Host) (route : Route) (r : Request) : Blames (gate h route r) := by
  cases route with
  | rpc =>
    intro a ha
    rcases peerGate_eq_error ha with rfl | ⟨message, rfl⟩
    · decide
    · show 401 < 500
      decide
  | _ => exact blames_ok _

/-! ## Reading -/

/-- What a request is read into: an answer that blames the client, or an action that waits for the
cluster as long as the request wants. -/
structure Reads (r : Request) (e : Except Answer Action) : Prop where
  blames : Blames e
  timeout : ∀ action, e = .ok action → ∀ inquiry view t, action.Asks inquiry view t →
    timeout r = .ok t

/-- A request is read in steps, each of which blames it where it fails. -/
theorem Blames.reads {α : Type} {e : Except Answer α} {f : α → Except Answer Action} (h : Blames e)
    (hf : ∀ a, e = .ok a → Reads r (f a)) : Reads r (e >>= f) := by
  cases e with
  | error a => exact ⟨blames_error (h a rfl), nofun⟩
  | ok a => exact hf a rfl

/-- A request that is blamed is read. -/
theorem reads_error {a : Answer} (ha : a.status < 500) : Reads r (.error a) :=
  ⟨blames_error ha, nofun⟩

/-- An action that asks the cluster nothing does not wait. -/
theorem reads_ok (hasks : ∀ inquiry view t, ¬action.Asks inquiry view t) : Reads r (.ok action) := by
  refine ⟨blames_ok action, fun action' h inquiry view t hasks' => ?_⟩
  rw [← Except.ok.inj h] at hasks'
  exact absurd hasks' (hasks inquiry view t)

/-- A request that asks within its own timeout is read. -/
theorem reads_asks {inquiry : Inquiry} {view : Gathered → Json} {t : Option UInt64}
    (hasks : action.Asks inquiry view t) (ht : refusing (timeout r) = .ok t) :
    Reads r (.ok action) := by
  refine ⟨blames_ok action, fun action' h inquiry' view' t' hasks' => ?_⟩
  have hsame : t' = t := by
    rw [← Except.ok.inj h] at hasks'
    cases hasks <;> cases hasks' <;> rfl
  rw [hsame]
  exact refusing_eq_ok_iff.1 ht

/-- Whatever the route, a request is read as its own. -/
theorem reads_ofRoute (h : Host) (r : Request) (route : Route) : Reads r (ofRoute h r route) := by
  -- each part of a request is read or refused before the next one is looked at
  have hrefusing : ∀ {α : Type} {e : Except Rejection α} {f : α → Except Answer Action},
      (∀ a, refusing e = .ok a → Reads r (f a)) → Reads r (refusing e >>= f) :=
    (blames_refusing _).reads
  cases route with
  | health | stats | metrics | nodes => exact reads_ok nofun
  | events => exact hrefusing fun _ _ => reads_ok nofun
  | rpc => exact hrefusing fun _ _ => reads_ok nofun
  | connectionCount | keys _ | keyCount _ =>
    exact hrefusing fun _ ht => reads_asks (.inquire _ _) ht
  | connections =>
    exact hrefusing fun _ _ => hrefusing fun _ ht =>
      (blames_selection _).reads fun _ _ => reads_asks (.inquire _ _) ht
  | online _ =>
    exact hrefusing fun _ _ => hrefusing fun _ ht => reads_asks (.online _ _) ht
  | disconnectUser _ | disconnectToken _ | disconnectConnection _ =>
    exact hrefusing fun _ _ => hrefusing fun _ ht => reads_asks (.inquire _ _) ht
  | sendAll =>
    exact hrefusing fun _ ht => hrefusing fun _ _ => reads_asks (.inquire _ _) ht
  | disconnectConnections | sendKeys _ =>
    exact hrefusing fun _ ht => hrefusing fun _ _ =>
      (blames_nonEmpty _ _).reads fun _ _ => reads_asks (.inquire _ _) ht
  | sendKey _ _ | sendConnection _ =>
    exact hrefusing fun _ _ => hrefusing fun _ ht => hrefusing fun _ _ =>
      reads_asks (.inquire _ _) ht

/-- **A request that is refused** before anything is done for it is blamed on the client, and one that
asks the cluster waits as long as its query says, whatever route it takes. -/
theorem reads_ofRequest (h : Host) (r : Request) : Reads r (ofRequest h r) := by
  unfold ofRequest
  split
  · refine reads_error ?_
    dsimp only [Answer.bare]
    split <;> decide
  · next route _ =>
    split
    · exact reads_error (show 200 < 500 by decide)
    · split
      · exact (blames_gate h route r).reads fun _ _ => reads_ofRoute h r route
      · refine reads_error ?_
        show (wrongMethod h route r).status < 500
        unfold wrongMethod
        cases hgate : gate h route r with
        | ok _ => exact show 405 < 500 by decide
        | error a => exact blames_gate h route r a hgate

end Action

namespace Mesh

variable {m : Mesh} {h : Host} {now : Instant} {r : Request}

/-! ## Answers -/

/-- The answer to a request, before its payload is left out for the method HEAD. -/
def fullAnswer (m : Mesh) (h : Host) (now : Instant) (r : Request) : Answer :=
  match Action.ofRequest h r with
  | .ok action => (m.act h now action).2
  | .error a => a

/-- A response is the full answer, without its body where only the head is asked for. -/
theorem respond_eq (m : Mesh) (h : Host) (now : Instant) (r : Request) :
    (m.respond h now r).2 =
      (if r.method = "HEAD" then (m.fullAnswer h now r).headOnly
        else m.fullAnswer h now r).shared := by
  unfold respond fullAnswer
  cases Action.ofRequest h r with
  | ok action =>
    dsimp only
    split <;> rfl
  | error a =>
    dsimp only
    split <;> rfl

/-- A response has the status of the full answer. -/
theorem status_respond (m : Mesh) (h : Host) (now : Instant) (r : Request) :
    (m.respond h now r).2.status = (m.fullAnswer h now r).status := by
  rw [respond_eq]
  split <;> rfl

/-- A request that asks the cluster is answered with what the wait brings. -/
theorem fullAnswer_of_asks {action : Action} (hr : Action.ofRequest h r = .ok action)
    {inquiry : Inquiry} {view : Gathered → Json} {t : Option UInt64}
    (hasks : action.Asks inquiry view t) :
    m.fullAnswer h now r = (m.inquire h inquiry t view).2 := by
  rw [fullAnswer, hr]
  cases hasks <;> rfl

/-- One who waits for a dispatch that was refused is told so at once. -/
theorem wait_of_refused {inquiry : Inquiry} {e : Refusal}
    (he : inquiry.runLocally h.registry = .error e) (limit : Option Nat) :
    ((m.dispatch h inquiry).1.wait (m.dispatch h inquiry).2 limit).2 = .error (.refused e) := by
  have hgather : (m.dispatch h inquiry).1.gather? (m.dispatch h inquiry).2 =
      some (.failed inquiry.kind (.refused e)) := by
    rw [m.dispatch_error h he]
    exact (Mesh.gather?_addGather ..).trans (if_pos rfl)
  have hdone : (m.dispatch h inquiry).1.isDone (m.dispatch h inquiry).2 = true := by
    rw [Mesh.isDone, hgather]
    rfl
  rw [Mesh.wait, Mesh.waitFor, if_pos hdone, Mesh.outcome, hgather]
  rfl

/-- An inquiry that the node itself refuses is answered as a bad request. -/
theorem inquire_of_refused {inquiry : Inquiry} {e : Refusal}
    (he : inquiry.runLocally h.registry = .error e) (t : Option UInt64) (view : Gathered → Json) :
    (m.inquire h inquiry t view).2 = (Problem.ofRefusal e).answer false := by
  unfold Mesh.inquire
  dsimp only
  rw [wait_of_refused he]
  rfl

end Mesh

end PushMesh
