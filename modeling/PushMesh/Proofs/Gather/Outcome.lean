import PushMesh.Proofs.Gather.Accounts

/-!
# What is told about a gather

One who stops waiting for a gather is told its outcome, or what there is so far. Where a dispatch has
opened it (`Opened`), peers are told to be pending only while it runs, and then just those that have
neither answered nor failed (`Opened.reports`).
-/

namespace PushMesh.Gather

variable {node : String} {own : Tally} {peers : List String} {answers : List (String × Tally)}
  {g : Gather} {e : Refusal}

/-! ## What is reported -/

/-- What one who stops waiting for a gather with these peers is told. -/
structure Reports (peers : List String) (g : Gather) (o : Outcome) : Prop where
  final : ∀ o', g.outcome? = some o' → o = o'
  /-- Peers are reported as pending only while the gather runs, and then it is just those that have
  neither answered nor failed. -/
  pending : ∀ l, o = .error (.timeout l) ∨ l ≠ [] ∧ (∃ r, o = .ok r ∧ r.pending = l) →
    g.phase = .running ∧ l.Nodup ∧
      ∀ n, n ∈ l ↔ n ∈ peers ∧ n ∉ g.responded.tail ∧ n ∉ g.failures.map (·.nodeId)

/-- The peers that are awaited are those that have neither answered nor failed. -/
theorem Accounts.mem_outstanding_iff (h : Accounts node own (Ascending.ofList peers) answers g)
    {n : String} : n ∈ g.outstanding.toList ↔
      n ∈ peers ∧ n ∉ g.responded.tail ∧ n ∉ g.failures.map (·.nodeId) := by
  have hplaces := h.places
  rw [h.responded, List.cons_append, List.cons_append, List.perm_cons] at hplaces
  have hmem := hplaces.mem_iff (a := n)
  have hnodup := List.nodup_append.1 (hplaces.nodup_iff.2 (Ascending.nodup _))
  rw [← Ascending.mem_def, Ascending.mem_ofList, List.mem_append, List.mem_append] at hmem
  rw [h.responded, List.tail_cons, ← hmem]
  constructor
  · intro hout
    refine ⟨.inr hout, fun hanswered => ?_, fun hfailed => ?_⟩
    · exact hnodup.2.2 n (List.mem_append_left _ hanswered) n hout rfl
    · exact hnodup.2.2 n (List.mem_append_right _ hfailed) n hout rfl
  · rintro ⟨(hanswered | hfailed) | hout, hnot, hnot'⟩
    · exact absurd hanswered hnot
    · exact absurd hfailed hnot'
    · exact hout

/-- A gather that has come to something comes to that when its time is up. -/
theorem expired_of_outcome? {o : Outcome} (h : g.outcome? = some o) : g.expired = o := by
  rw [expired, h]

/-- What is reported of a gather whose accounts are in order. -/
theorem Accounts.reports (h : Accounts node own (Ascending.ofList peers) answers g) :
    Reports peers g g.expired := by
  refine ⟨fun o ho => expired_of_outcome? ho, fun l hl => ?_⟩
  rcases h.phase with hphase | hphase | hphase
  · -- a gather that is complete awaits nobody
    have hexpired : g.expired = .ok g.snapshot := by simp [expired, outcome?, hphase]
    have hnone : g.snapshot.pending = [] := List.eq_nil_iff_forall_not_mem.2
      (Ascending.isEmpty_iff.1 (h.completed_iff.1 hphase))
    rw [hexpired] at hl
    rcases hl with hl | ⟨hne, r, hr, hl⟩
    · cases hl
    · obtain rfl := Except.ok.inj hr
      exact absurd (hl.symm.trans hnone) hne
  · have hexpired : g.expired = if g.partialOnTimeout then .ok g.snapshot
        else .error (.timeout g.outstanding.toList) := by simp [expired, outcome?, hphase]
    have hout : l = g.outstanding.toList := by
      rw [hexpired] at hl
      rcases hl with hl | ⟨-, r, hr, rfl⟩
      · split at hl
        · cases hl
        · cases hl
          rfl
      · split at hr
        · cases hr
          rfl
        · cases hr
    rw [hout]
    exact ⟨hphase, Ascending.nodup _, fun n => h.mem_outstanding_iff⟩
  · have hexpired : g.expired = .error .cancelled := by simp [expired, outcome?, hphase]
    rw [hexpired] at hl
    rcases hl with hl | ⟨-, r, hr, -⟩
    · cases hl
    · cases hr

/-- What is reported of a gather that never started. -/
theorem reports_of_refused (h : g.phase = .failed (.refused e)) : Reports peers g g.expired := by
  have hexpired : g.expired = .error (.refused e) := by simp [expired, outcome?, h]
  refine ⟨fun o ho => expired_of_outcome? ho, fun l hl => ?_⟩
  rw [hexpired] at hl
  rcases hl with hl | ⟨-, r, hr, -⟩
  · cases hl
  · cases hr

/-! ## The start -/

/-- What a dispatch opens: a gather with its accounts in order, or one that never starts. -/
def Opened (peers : List String) (g : Gather) : Prop :=
  (∃ node own answers, Accounts node own (Ascending.ofList peers) answers g) ∨
    ∃ e, g.phase = .failed (.refused e)

/-- A gather that was opened keeps its accounts in order, or never starts, whatever it is told. -/
theorem Opened.takeAll (h : Opened peers g) (steps : List Step) : Opened peers (g.takeAll steps) := by
  rcases h with ⟨node, own, answers, haccounts⟩ | ⟨e, hphase⟩
  · exact .inl ⟨node, own, _, haccounts.takeAll steps⟩
  · have hdone : g.isDone = true := by
      rw [isDone, hphase]
      rfl
    rw [takeAll_of_isDone hdone]
    exact .inr ⟨e, hphase⟩

/-- A gather that asked its peers reports on each of them. -/
theorem Opened.reports (h : Opened peers g) : Reports peers g g.expired := by
  rcases h with ⟨node, own, answers, haccounts⟩ | ⟨e, hphase⟩
  · exact haccounts.reports
  · exact reports_of_refused hphase

/-- A gather that was opened runs, or it ended in one of three ways. -/
theorem Opened.phase (h : Opened peers g) : g.phase = .running ∨ g.phase = .completed ∨
    g.phase = .cancelled ∨ ∃ e, g.phase = .failed (.refused e) := by
  rcases h with ⟨node, own, answers, haccounts⟩ | hrefused
  · rcases haccounts.phase with hphase | hphase | hphase
    · exact .inr (.inl hphase)
    · exact .inl hphase
    · exact .inr (.inr (.inl hphase))
  · exact .inr (.inr (.inr hrefused))

end PushMesh.Gather
