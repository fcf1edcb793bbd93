import PushMesh.Proofs.Gather.Accounts

/-!
# What becomes of callbacks

A gather that runs keeps its callbacks. Once it is over each of them has run, with the outcome, and
one that comes later runs at once; but where it was cancelled none has. `Owed` says so, every step
keeps it (`Owed.take`), and so does every run (`Owed.takeAll`).
-/

namespace PushMesh.Gather

/-- The callback that a step registers. -/
def Step.label? : Step → Option String
  | onComplete label => some label
  | _ => none

/-- What has become of the callbacks that were registered under `labels`, where `notices` have run. -/
structure Owed (labels : List String) (notices : List Notice) (g : Gather) : Prop where
  running : g.phase = .running → g.callbacks = labels ∧ notices = []
  cancelled : g.outcome? = some (.error .cancelled) → notices = []
  done : ∀ o, g.outcome? = some o → o ≠ .error .cancelled → notices = labels.map (·, o)

variable {labels : List String} {notices : List Notice} {g : Gather}

/-- A gather comes to nothing as long as it runs. -/
theorem outcome?_eq_none_iff : g.outcome? = none ↔ g.phase = .running := by
  unfold outcome?
  split <;> simp_all

/-- What leaves a gather running, with its callbacks, owes them still. -/
theorem owed_of_running (hrun : g.phase = .running) (hcallbacks : g.callbacks = labels) :
    Owed labels [] g := by
  have hnone := outcome?_eq_none_iff.2 hrun
  exact ⟨fun _ => ⟨hcallbacks, rfl⟩, fun _ => rfl, fun o ho => by rw [hnone] at ho; cases ho⟩

/-- Where no callback has been registered, none is owed. -/
theorem owed_of_callbacks (h : g.callbacks = []) : Owed [] [] g :=
  ⟨fun _ => ⟨h, rfl⟩, fun _ => rfl, fun _ _ _ => rfl⟩

/-- Settling runs the callbacks if it ends the gather, and keeps them otherwise. -/
theorem owed_settle (hrun : g.phase = .running) (hcallbacks : g.callbacks = labels) :
    Owed labels g.settle.2 g.settle.1 := by
  unfold settle
  split
  · refine ⟨nofun, nofun, fun o ho _ => ?_⟩
    obtain rfl := Option.some.inj ho
    rw [← hcallbacks]
  · exact owed_of_running hrun hcallbacks

/-- A step of a running gather that ends it has its callbacks run, or drops them. -/
theorem owed_take_of_running (hrun : g.phase = .running) (s : Step) :
    Owed (g.callbacks ++ s.label?.toList) (g.take s).2 (g.take s).1 := by
  have hkeep : Owed (g.callbacks ++ []) [] g :=
    owed_of_running hrun (List.append_nil _).symm
  cases s with
  | complete nodeId value =>
    rw [take, complete]
    split
    · exact owed_settle hrun (List.append_nil _).symm
    · exact hkeep
  | fail failure =>
    rw [take, fail]
    split
    · exact owed_settle hrun (List.append_nil _).symm
    · exact hkeep
  | cancel =>
    -- a cancellation drops the callbacks, and leaves an outcome that nobody is told
    have hcancelled : g.cancel.1.outcome? = some (.error .cancelled) := by
      simp [cancel, hrun, outcome?]
    refine ⟨fun h => ?_, fun _ => rfl, fun o ho hne => ?_⟩
    · rw [take, ← outcome?_eq_none_iff, hcancelled] at h
      cases h
    · rw [take, hcancelled] at ho
      exact absurd (Option.some.inj ho).symm hne
  | track task =>
    have htrack : g.track task = ({ g with tasks := g.tasks ++ [task] }, false) := by
      rw [track, hrun]
    rw [take, htrack]
    exact owed_of_running hrun (List.append_nil _).symm
  | onComplete label =>
    rw [take, onComplete, outcome?_eq_none_iff.2 hrun]
    exact owed_of_running hrun rfl
  | snapshot => exact hkeep

/-- A step of a gather that is over runs the callback that it registers, unless it was cancelled. -/
theorem notices_take_of_outcome? {o : Outcome} (ho : g.outcome? = some o) (s : Step) :
    (g.take s).2 = if o = .error .cancelled then [] else s.label?.toList.map (·, o) := by
  have hdone : g.phase ≠ .running := by
    rw [Ne, ← outcome?_eq_none_iff, ho]
    exact nofun
  cases s with
  | complete nodeId value =>
    rw [take, complete, if_neg fun h => hdone (awaits_iff.1 h).1]
    exact (ite_self _).symm
  | fail failure =>
    rw [take, fail, if_neg fun h => hdone (awaits_iff.1 h).1]
    exact (ite_self _).symm
  | cancel | track _ | snapshot => exact (ite_self _).symm
  | onComplete label =>
    rw [take, onComplete, ho]
    split
    · next heq => cases heq
    · next heq => rw [if_pos (Option.some.inj heq)]
    · next o' hne heq =>
      obtain rfl := Option.some.inj heq
      rw [if_neg hne]
      rfl

/-- What one step keeps. -/
theorem Owed.take (h : Owed labels notices g) (s : Step) :
    Owed (labels ++ s.label?.toList) (notices ++ (g.take s).2) (g.take s).1 := by
  cases ho : g.outcome? with
  | none =>
    have hrun := outcome?_eq_none_iff.1 ho
    obtain ⟨rfl, rfl⟩ := h.running hrun
    exact owed_take_of_running hrun s
  | some o =>
    have hover : g.isDone = true := by
      rw [isDone_iff, Ne, ← outcome?_eq_none_iff, ho]
      exact nofun
    rw [take_of_isDone hover, notices_take_of_outcome? ho]
    refine ⟨fun hrun => absurd hrun (isDone_iff.1 hover), fun hcancelled => ?_, fun o' ho' hne => ?_⟩
    · rw [h.cancelled hcancelled, if_pos (Option.some.inj (ho.symm.trans hcancelled))]
      rfl
    · obtain rfl := Option.some.inj (ho.symm.trans ho')
      rw [h.done o ho hne, if_neg hne, List.map_append]

/-- What a run keeps: by induction on the steps. -/
theorem Owed.takeAll (h : Owed labels notices g) (steps : List Step) :
    Owed (labels ++ steps.filterMap Step.label?) (notices ++ g.noticesAll steps)
      (g.takeAll steps) := by
  induction steps generalizing labels notices g with
  | nil =>
    rw [List.filterMap_nil, noticesAll, List.append_nil, List.append_nil]
    exact h
  | cons s steps ih =>
    have hstep := ih (h.take s)
    have hlabels : (s :: steps).filterMap Step.label? =
        s.label?.toList ++ steps.filterMap Step.label? := by
      rw [List.filterMap_cons]
      cases s.label? <;> rfl
    rw [hlabels, noticesAll, ← List.append_assoc, ← List.append_assoc]
    exact hstep

/-- Tracking calls runs no callbacks and registers none. -/
theorem Owed.tracks (h : Owed labels notices g) (tasks : List Nat) :
    Owed labels notices (g.takeAll (tasks.map .track)) := by
  induction tasks generalizing g with
  | nil => exact h
  | cons task tasks ih =>
    have hstep : Owed (labels ++ []) (notices ++ []) (g.track task).1 := h.take (.track task)
    rw [List.append_nil, List.append_nil] at hstep
    exact ih hstep

end PushMesh.Gather
