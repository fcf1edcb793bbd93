import PushMesh.Proofs.Mesh.Ledger

/-!
# The attempts of a dispatch

A timer of a dispatch goes off: the first attempt is made, or an attempt ends, and then comes a
second attempt or the result. Each of these keeps the ledger open (`Open.begin`, `Open.arrive`), and
it is closed again by the timer for the end of an attempt (`Open.schedule`) or by the result
(`Open.conclude`). Put together, a timer that goes off keeps the ledger (`Ledger.fire`).
-/

namespace PushMesh.Mesh

variable {x : Setup} {g : Gather} {answers : List (String × Tally)} {total carried : Nat}
  {lost : Bool} {c : PeerCall} {p : Page} {m : Mesh}

/-- Running the operation of the call in hand moves what the reply carries. -/
theorem Open.moves (hx : x.Effective) (hm : m.Sound) (h : Open x g answers total c p carried lost m) :
    ∃ n, c.operation.MovesAll m.hosts (serveAt c.callee.id c.operation m.hosts) n ∧
      Counts (replyOf m.hosts c) ∧ carry (some (replyOf m.hosts c)) ≤ n ∧
        UInt64.ofNat (carry (some (replyOf m.hosts c))) = UInt64.ofNat n := by
  have heffect : c.operation.isEffect = true := by
    rw [hx.operation c h.mem]
    exact hx.effect
  obtain ⟨n, hmoves, hreply⟩ := serveAt_moves hm.hosts hm.stored heffect
  exact ⟨n, hmoves, carry_replyOf hreply⟩

/-! ## Making an attempt -/

/-- An attempt is made, and what it brings early is carried. -/
theorem Open.begin (hx : x.Effective) (hm : m.Sound) (h : Open x g answers total c p 0 lost m)
    (hlost : lost = true → x.retries = true) :
    ∃ m' link early n ran, m.begin c = (m', link, early) ∧ Pays x n m m' ∧
      Open x g answers (total + n) c ⟨[], p.began + 1, p.ran + ran, p.results⟩ (carry early) false
        m' ∧
      link.Unscripted ∧ (∀ r, early = some r → Counts r) ∧
      ran ≤ if early.isSome then 1 else 0 := by
  obtain ⟨m', hcases, hrest⟩ := begin_cases hm.hosts c
  have hlinks : m'.LinksAll Link.Unscripted := by
    intro node l hl
    rw [hrest] at hl
    exact h.links node l (linksTo_restLinks m.links c.callee.id node hl)
  have hlink : (nextLink m.links c.callee.id).Unscripted :=
    h.links c.callee.id _ (nextLink_mem m.links c.callee.id)
  -- where nothing is repeated nothing was lost so far
  have hkeep : x.retries = false → lost = false := by
    intro hretries
    cases lost with
    | false => rfl
    | true => rw [hlost rfl] at hretries; cases hretries
  have hdue := h.due_eq
  rcases hcases with ⟨hbegin, hhosts, hnoted⟩ | ⟨hbegin, hhosts, hnoted⟩
  · -- the operation is run at once, and its reply is on its way
    obtain ⟨n, hmoves, hcounts, hle, heq⟩ := h.moves hx hm
    have hran : (ranBy m.hosts c).length =
        ([CallEvent.began c] ++ ranBy m.hosts c).countP (CallEvent.isRan c.callee.id) := by
      rw [List.countP_append, countP_isRan_ranBy]
      simp [CallEvent.isRan]
    have hopen := h.advance hx hnoted hlinks (n := n) (k := carry (some (replyOf m.hosts c)))
      (b := false) (by rwa [Nat.zero_add])
      (fun hretries _ => ⟨hkeep hretries, by rwa [Nat.zero_add]⟩)
    rw [add_append, add_began, add_ranBy, hdue] at hopen
    refine ⟨m', _, some (replyOf m.hosts c), n, (ranBy m.hosts c).length, hbegin,
      hnoted.pays_serve hx hm h.mem hhosts hran hmoves, hopen, hlink, ?_,
      length_ranBy_le m.hosts c⟩
    intro r hr
    rw [← Option.some.inj hr]
    exact hcounts
  · have hopen := h.advance hx hnoted hlinks (n := 0) (k := 0) (b := false)
      (Nat.le_refl _) (fun hretries _ => ⟨hkeep hretries, rfl⟩)
    rw [add_began, hdue] at hopen
    refine ⟨m', _, none, 0, 0, hbegin, hnoted.pays hx h.mem hhosts rfl, hopen, hlink, ?_,
      Nat.le_refl _⟩
    intro r hr
    cases hr

/-! ## Ending an attempt -/

/-- The verdict on an attempt that ends without its operation being run: what was there early, or a
failure. -/
theorem verdict_cases {link : Link} (hlink : link.Unscripted) {timeout : Nat} {early : Option Reply}
    {r : Reply} (h : link.verdict timeout early = some r) :
    early = some r ∨ ∃ e, r = .error e := by
  unfold Link.verdict at h
  split at h
  · exact .inr ⟨_, (Option.some.inj h).symm⟩
  · cases early with
    | some r' => exact .inl h
    | none =>
      cases hfate : link.fate with
      | runs => simp [hfate] at h
      | fails e | timesOut =>
        rw [hfate] at h
        exact .inr ⟨_, (Option.some.inj h).symm⟩
      | answers output => exact absurd hfate (hlink output)

/-- Where the operation is run at the end of an attempt, nothing was there early. -/
theorem verdict_eq_none {link : Link} {timeout : Nat} {early : Option Reply}
    (h : link.verdict timeout early = none) : early = none := by
  unfold Link.verdict at h
  split at h
  · cases h
  · cases early with
    | none => rfl
    | some r => cases h

/-- An attempt ends, and its result carries what it brought, unless that is lost. -/
theorem Open.arrive (hx : x.Effective) (hm : m.Sound) {early : Option Reply}
    (h : Open x g answers total c p (carry early) false m) {link : Link} (hlink : link.Unscripted)
    (hearly : ∀ r, early = some r → Counts r) :
    ∃ m' r n ran, m.arrive c link early = (m', r) ∧ Pays x n m m' ∧
      Open x g answers (total + n) c ⟨[], p.began, p.ran + ran, p.results ++ [r]⟩
        (carry (some r)) (!r.isOk) m' ∧
      Counts r ∧ ran ≤ if early.isSome then 0 else 1 := by
  obtain ⟨m', hcases, hrest⟩ := arrive_cases hm.hosts c link early
  have hlinks : m'.LinksAll Link.Unscripted := by
    rw [LinksAll, hrest]
    exact h.links
  have hdue := h.due_eq
  rcases hcases with ⟨r, hverdict, harrive, hhosts, hnoted⟩ | ⟨hverdict, harrive, hhosts, hnoted⟩
  · -- what was on its way arrives or is lost, and nothing is run
    obtain ⟨hcounts, hle, heq⟩ : Counts r ∧ carry (some r) ≤ carry early ∧
        ((!r.isOk) = false → carry (some r) = carry early) := by
      rcases verdict_cases hlink hverdict with rfl | ⟨e, rfl⟩
      · exact ⟨hearly r rfl, Nat.le_refl _, fun _ => rfl⟩
      · exact ⟨by rintro output ⟨⟩, Nat.zero_le _, by rintro ⟨⟩⟩
    have hopen := h.advance hx hnoted hlinks (n := 0) (k := carry (some r)) (b := !r.isOk) hle
      (fun _ hok => ⟨rfl, by rw [heq hok, Nat.add_zero]⟩)
    rw [add_ended, hdue] at hopen
    exact ⟨m', r, 0, 0, harrive, hnoted.pays hx h.mem hhosts rfl, hopen, hcounts, Nat.zero_le _⟩
  · obtain rfl := verdict_eq_none hverdict
    -- the operation is run now, and nothing was on its way
    obtain ⟨n, hmoves, hcounts, hle, heq⟩ := h.moves hx hm
    have hran : (ranBy m.hosts c).length =
        (ranBy m.hosts c ++ [CallEvent.ended c (replyOf m.hosts c)]).countP
          (CallEvent.isRan c.callee.id) := by
      rw [List.countP_append, countP_isRan_ranBy]
      simp [CallEvent.isRan]
    have hnothing : carry none + n = n := Nat.zero_add n
    have hopen := h.advance hx hnoted hlinks (n := n) (k := carry (some (replyOf m.hosts c)))
      (b := !(replyOf m.hosts c).isOk) (by rwa [hnothing])
      (fun _ _ => ⟨rfl, by rwa [hnothing]⟩)
    rw [add_append, add_ranBy, add_ended, hdue] at hopen
    exact ⟨m', _, n, (ranBy m.hosts c).length, harrive,
      hnoted.pays_serve hx hm h.mem hhosts hran hmoves, hopen, hcounts, length_ranBy_le m.hosts c⟩

/-! ## Putting the call down -/

/-- The ledger is closed with the timer for the end of the attempt. -/
theorem Open.schedule (hx : x.Effective) {isSecond : Bool} {past : List Reply} {link : Link}
    {early : Option Reply} {ran : Nat}
    (h : Open x g answers total c ⟨[], past.length + 1, ran, past⟩ (carry early) false m)
    (hpast : Past c isSecond past) (hlink : link.Unscripted)
    (hearly : ∀ r, early = some r → Counts r)
    (hran : ran ≤ past.length + if early.isSome then 1 else 0) (wait : Nat) :
    Ledger x g answers total (m.schedule wait (.arrival c isSecond link early)) := by
  have hevent : (Event.arrival c isSecond link early).call? = some c := rfl
  have hown : (m.schedule wait (.arrival c isSecond link early)).page x.id c.callee.id =
      ⟨[.arrival c isSecond link early], past.length + 1, ran, past⟩ := by
    rw [page_schedule m wait hevent (hx.gather c h.mem), if_pos rfl, h.page_eq]
    rfl
  have hothers := fun d hd => m.page_schedule_others hx.toValid h.mem hevent wait (d := d) hd
  refine ⟨h.toKept.schedule h.mem hevent wait, h.links, ?_, ?_⟩
  · intro d hd
    rcases hx.eq_or_mem_others h.mem hd with rfl | hd
    · rw [hown]
      exact .trying h.out hpast hlink hearly hran
    · rw [hothers d hd]
      exact h.standing d hd
  · obtain ⟨v, hv, hcovered⟩ := h.value
    refine ⟨v, hv, ?_⟩
    rw [hx.sum_calls h.mem, hown,
      List.map_congr_left fun d hd => congrArg Page.carried (hothers d hd), ← Nat.add_assoc]
    exact hcovered

/-- The ledger is closed with the last result, once that has gone into the gather. -/
theorem Open.settle (hx : x.Effective) {isSecond : Bool} {past : List Reply} {last : Reply}
    {ran : Nat}
    (h : Open x g answers total c ⟨[], past.length + 1, ran, past ++ [last]⟩ carried lost m)
    (hpast : Past c isSecond past) (hlast : isSecond = true ∨ wantsRetry c last = false)
    (hran : ran ≤ past.length + 1) (r : Metrics → Metrics)
    {f : Gather → Gather × List Gather.Notice} {answers' : List (String × Tally)}
    (haccounts : (f g).1.Accounts x.node x.own x.peers answers')
    (hphase : (f g).1.phase ≠ .cancelled)
    (hout : (f g).1.outstanding = g.outstanding.erase c.callee.id)
    (hanswers : answers ⊆ answers') (hfailures : g.failures ⊆ (f g).1.failures)
    (hdecided : Decided (f g).1 answers' c.callee last)
    (hvalue : ∃ v, (f g).1.value = .count v ∧ Covered x (f g).1 false
      (v.toNat + ((x.others c).map fun d => (m.page x.id d.callee.id).carried).sum) total) :
    Ledger x (f g).1 answers' total ((m.record r).onGather c.gather f) := by
  have hpage := m.page_settle r c.gather f x.id
  have hlinks : ((m.record r).onGather c.gather f).LinksAll Link.Unscripted := by
    obtain ⟨gathers, notices, heq⟩ := (m.record r).onGather_frame c.gather f
    rw [heq]
    exact h.links
  refine ⟨h.toKept.settle (hx.gather c h.mem) r haccounts hphase, hlinks, ?_, ?_⟩
  · intro d hd
    rw [hpage]
    rcases hx.eq_or_mem_others h.mem hd with rfl | hd
    · rw [h.page_eq]
      exact .settled hpast hlast hdecided hran
    · -- the other calls stand where they stood, as only this callee is awaited no more
      refine (h.standing d hd).mono (fun hmem => ?_) hanswers hfailures
      rw [hout]
      exact Ascending.mem_erase.2 ⟨hmem, (Setup.mem_others.1 hd).2⟩
  · obtain ⟨v, hv, hcovered⟩ := hvalue
    refine ⟨v, hv, ?_⟩
    simp only [hpage]
    rw [hx.sum_calls h.mem, h.page_eq]
    exact hcovered

/-- A last result that is a count goes into the gather as an answer. -/
theorem Open.answered (hx : x.Effective) {isSecond : Bool} {past : List Reply} {n : UInt64}
    {ran : Nat}
    (h : Open x g answers total c ⟨[], past.length + 1, ran, past ++ [.ok (.count n)]⟩ n.toNat
      false m)
    (hpast : Past c isSecond past) (hran : ran ≤ past.length + 1) :
    ∃ g' answers', Ledger x g' answers' total (m.conclude c (.ok (.count n))) := by
  have hconclude : m.conclude c (.ok (.count n)) =
      (m.record (·.recordCall .ok)).onGather c.gather (·.complete c.callee.id (.count n)) := by
    simp only [Mesh.conclude, hx.kind c h.mem, hx.kind_eq]
    rfl
  have hawaits := h.toKept.awaits h.out
  have haccounts := h.accounts.complete hawaits (.count n)
  have hbooks := Gather.sameBooks_complete hawaits (.count n)
  obtain ⟨v, hv, hle, heq⟩ := h.value
  rw [hconclude]
  refine ⟨_, _, h.settle hx hpast (.inr rfl) hran _ haccounts (Gather.phase_complete_ne h.phase _ _)
    hbooks.outstanding (List.subset_append_left ..) (hbooks.failures ▸ List.Subset.refl _)
    ⟨n, rfl, by simp⟩ ⟨v + n, ?_, ?_, ?_⟩⟩
  · rw [hbooks.value]
    show g.value.merge (.count n) = _
    rw [hv]
    rfl
  · -- the sum of two words may wrap, so it is bounded here and equal only as a word
    have hsum : (v + n).toNat ≤ v.toNat + n.toNat := by
      rw [UInt64.toNat_add]
      exact Nat.mod_le _ _
    omega
  · intro hretries hfailures _
    have hbefore := heq hretries (hbooks.failures.symm.trans hfailures) rfl
    rw [← hbefore]
    simp only [UInt64.ofNat_add, UInt64.ofNat_toNat]
    rw [UInt64.add_assoc, UInt64.add_assoc, UInt64.add_comm n]

/-- A last result that is an error goes into the gather as a failure. -/
theorem Open.failed (hx : x.Effective) {isSecond : Bool} {past : List Reply} {e : PeerError}
    {ran : Nat}
    (h : Open x g answers total c ⟨[], past.length + 1, ran, past ++ [.error e]⟩ 0 true m)
    (hpast : Past c isSecond past) (hlast : isSecond = true ∨ wantsRetry c (.error e) = false)
    (hran : ran ≤ past.length + 1) :
    ∃ g' answers', Ledger x g' answers' total (m.conclude c (.error e)) := by
  let failure : NodeFailure := ⟨c.callee.id, c.callee.address, e⟩
  have hconclude : m.conclude c (.error e) =
      (m.record (·.recordCall (.ofError e))).onGather c.gather (·.fail failure) := rfl
  have hwait : g.awaits failure.nodeId = true := h.toKept.awaits h.out
  have haccounts := h.accounts.fail hwait
  have hbooks := Gather.sameBooks_fail failure hwait
  obtain ⟨v, hv, hle, heq⟩ := h.value
  rw [hconclude]
  refine ⟨_, _, h.settle hx hpast hlast hran _ haccounts (Gather.phase_fail_ne h.phase _)
    hbooks.outstanding (List.Subset.refl _) ?_ ?_ ⟨v, hbooks.value.trans hv, hle, ?_⟩⟩
  · rw [hbooks.failures]
    exact List.subset_append_left ..
  · show failure ∈ (g.fail failure).1.failures
    rw [hbooks.failures]
    exact List.mem_append_right _ (List.mem_singleton_self failure)
  · -- with a failure nothing is said about equality
    intro _ hfailures
    rw [hbooks.failures] at hfailures
    simp at hfailures

/-- The last result of a call goes into the gather, as an answer or as a failure. -/
theorem Open.conclude (hx : x.Effective) {isSecond : Bool} {past : List Reply} {last : Reply}
    {ran : Nat}
    (h : Open x g answers total c ⟨[], past.length + 1, ran, past ++ [last]⟩ (carry (some last))
      (!last.isOk) m)
    (hpast : Past c isSecond past) (hlast : isSecond = true ∨ wantsRetry c last = false)
    (hran : ran ≤ past.length + 1) (hcounts : Counts last) :
    ∃ g' answers', Ledger x g' answers' total (m.conclude c last) := by
  cases last with
  | ok output =>
    obtain ⟨n, rfl⟩ := hcounts output rfl
    exact Open.answered hx h hpast hran
  | error e => exact Open.failed hx h hpast hlast hran

/-! ## A timer that goes off -/

/-- A whole attempt: it ends at once, or a timer is set for its end. -/
theorem Open.attempt (hx : x.Effective) (hm : m.Sound) (hc : m.Knows c) (past : List Reply)
    {isSecond : Bool} {ran : Nat}
    (h : Open x g answers total c ⟨[], past.length, ran, past⟩ 0 lost m)
    (hpast : Past c isSecond past) (hran : ran ≤ past.length)
    (hlost : lost = true → x.retries = true) :
    ∃ m' n, Pays x n m m' ∧
      ((m.attempt c isSecond = (m', none) ∧ Ledger x g answers (total + n) m') ∨
        ∃ r ran', m.attempt c isSecond = (m', some r) ∧ Counts r ∧ ran' ≤ past.length + 1 ∧
          Open x g answers (total + n) c ⟨[], past.length + 1, ran', past ++ [r]⟩ (carry (some r))
            (!r.isOk) m') := by
  obtain ⟨m₁, link, early, n, k, hbegin, hpays, hopen, hlink, hearly, hk⟩ := h.begin hx hm hlost
  have hm₁ : m₁.Sound := by
    have hevolved : Evolved (fun _ => True) (fun _ => True) m (m.begin c).1 :=
      evolved_begin hc trivial
    rw [hbegin] at hevolved
    exact hevolved.sound hm
  unfold Mesh.attempt
  rw [hbegin]
  dsimp only
  -- an attempt that takes no time ends at once, any other waits for a timer
  split
  · obtain ⟨m₂, r, n', k', harrive, hpays', hopen', hcounts, hk'⟩ := hopen.arrive hx hm₁ hlink hearly
    rw [harrive]
    refine ⟨m₂, n + n', hpays.trans hpays', .inr ⟨r, ran + k + k', rfl, hcounts, ?_, ?_⟩⟩
    · cases early <;> simp at hk hk' <;> omega
    · rw [← Nat.add_assoc]
      exact hopen'
  · refine ⟨_, n, ?_, .inl ⟨rfl, hopen.schedule hx hpast hlink hearly ?_ _⟩⟩
    · refine hpays.trans (n := 0) (pays_of_hosts rfl fun node => ?_)
      rw [page_schedule m₁ _ (show (Event.arrival c isSecond link early).call? = some c from rfl)
        (hx.gather c h.mem)]
      split <;> rfl
    · show ran + k ≤ _
      omega

/-- After an attempt comes a second one or the end of the call. -/
theorem Open.afterAttempt (hx : x.Effective) (hm : m.Sound) (hc : m.Knows c) {isSecond : Bool}
    {past : List Reply} {r : Reply} {ran : Nat}
    (h : Open x g answers total c ⟨[], past.length + 1, ran, past ++ [r]⟩ (carry (some r))
      (!r.isOk) m)
    (hpast : Past c isSecond past) (hcounts : Counts r) (hran : ran ≤ past.length + 1) :
    ∃ n g' answers', Pays x n m (m.afterAttempt c isSecond r) ∧
      Ledger x g' answers' (total + n) (m.afterAttempt c isSecond r) := by
  -- the end of a call runs nothing
  have hconclude : ∀ {s : Mesh} {last : Reply}, Pays x 0 s (s.conclude c last) := by
    intro s last
    unfold Mesh.conclude
    split
    all_goals
      obtain ⟨gathers, notices, heq⟩ := onGather_frame _ c.gather _
      exact pays_of_hosts (by rw [heq]; rfl) fun node => congrArg Page.ran (page_settle ..)
  unfold Mesh.afterAttempt
  cases hretry : !isSecond && wantsRetry c r with
  | false =>
    have hlast : isSecond = true ∨ wantsRetry c r = false := by
      cases isSecond with
      | false => exact .inr hretry
      | true => exact .inl rfl
    obtain ⟨g', answers', hledger⟩ := h.conclude hx hpast hlast hran hcounts
    exact ⟨0, g', answers', hconclude, hledger⟩
  | true =>
    obtain ⟨rfl, hwants⟩ : isSecond = false ∧ wantsRetry c r = true := by simpa using hretry
    -- the first attempt was given up, and what it moved is lost to the count
    cases hpast with
    | first =>
      cases r with
      | ok output => cases hwants
      | error e =>
        have hretries : x.retries = true := by
          rw [← hx.retries c h.mem]
          exact (Bool.and_eq_true_iff.1 hwants).1
        obtain ⟨m₁, n, hpays, hopen⟩ := Open.attempt hx hm hc [.error e] h
          (.second hwants) hran fun _ => hretries
        rcases hopen with ⟨hattempt, hledger⟩ | ⟨last, k, hattempt, hlast, hk, hopen⟩
        · rw [if_pos rfl, hattempt]
          exact ⟨n, g, answers, hpays, hledger⟩
        · rw [if_pos rfl, hattempt]
          obtain ⟨g', answers', hledger⟩ := hopen.conclude hx (.second hwants) (.inl rfl) hk hlast
          exact ⟨n, g', answers', hpays.trans hconclude, hledger⟩

/-- A timer that goes off takes its call in hand. -/
theorem Ledger.open (h : Ledger x g answers total m) (hx : x.Effective) (hm : m.Sound) {t : Timer}
    (ht : t ∈ m.timers) (hcall : t.event.call? = some c) (hc : c ∈ x.calls)
    (hpage : m.page x.id c.callee.id = p) (hout : c.callee.id ∈ g.outstanding) {event : Event}
    (hdue : p.due = [event]) :
    t.event = event ∧ Pays x 0 m (m.popped t) ∧
      Open x g answers total c ⟨[], p.began, p.ran, p.results⟩ p.carried false (m.popped t) := by
  subst hpage
  obtain ⟨hevent, hpopped, hothers⟩ := page_popped hx.toValid hm ht hcall hc hdue
  refine ⟨hevent, pays_of_hosts rfl fun node => ?_,
    h.toKept.popped t, h.links, hc, hout, ?_, rfl, ?_, ?_⟩
  · rw [hpopped]
    split <;> rfl
  · rw [hpopped, if_pos rfl]
  · intro d hd
    rw [hothers d hd]
    exact h.standing d (Setup.mem_others.1 hd).1
  · obtain ⟨v, hv, hcovered⟩ := h.value
    refine ⟨v, hv, ?_⟩
    rw [List.map_congr_left fun d hd => congrArg Page.carried (hothers d hd), Nat.add_assoc,
      ← hx.sum_calls hc]
    exact hcovered

/-- A timer of a dispatch that goes off keeps its ledger. -/
theorem Ledger.fire (h : Ledger x g answers total m) (hx : x.Effective) (hm : m.Sound) {t : Timer}
    (ht : t ∈ m.timers) (hown : Timer.isFor x.id t = true) :
    ∃ n g' answers', Pays x n m (m.fire t) ∧ Ledger x g' answers' (total + n) (m.fire t) := by
  obtain ⟨c, hcall, hid⟩ := Timer.isFor_iff.1 hown
  have hc := h.timers t ht c hcall hid
  have hgone := m.evolved_popped t
  have hs : (m.popped t).Sound := hgone.sound hm
  have hknows : (m.popped t).Knows c := hgone.knows (hm.known t ht c hcall)
  have hstanding := h.standing c hc
  rw [fire_eq]
  -- the cases are the places that the call of the timer can stand in
  generalize hpage : m.page x.id c.callee.id = page at hstanding
  cases hstanding with
  | queued hout =>
    obtain ⟨hevent, hpays, hopen⟩ := h.open hx hm ht hcall hc hpage hout rfl
    obtain ⟨m', n, hpays', hattempt⟩ := Open.attempt hx hs hknows [] hopen .first
      (Nat.le_refl _) (fun hlost => by cases hlost)
    rw [hevent, perform]
    rcases hattempt with ⟨hattempt, hledger⟩ | ⟨r, k, hattempt, hcounts, hk, hopen⟩
    · rw [hattempt]
      exact ⟨0 + n, g, answers, hpays.trans hpays', by rwa [Nat.zero_add]⟩
    · have hevolved : Evolved (fun _ => True) (fun _ => True) (m.popped t)
          ((m.popped t).attempt c false).1 := evolved_attempt hknows trivial false
      rw [hattempt] at hevolved ⊢
      obtain ⟨n', g', answers', hpays'', hledger⟩ := hopen.afterAttempt hx (hevolved.sound hs)
        (hevolved.knows hknows) .first hcounts hk
      refine ⟨0 + n + n', g', answers', (hpays.trans hpays').trans hpays'', ?_⟩
      rwa [Nat.zero_add, ← Nat.add_assoc]
  | @trying isSecond past link early ran hout hpast hlink hearly hran =>
    obtain ⟨hevent, hpays, hopen⟩ := h.open hx hm ht hcall hc hpage hout rfl
    obtain ⟨m', r, n, k, harrive, hpays', hopen, hcounts, hk⟩ := hopen.arrive hx hs hlink hearly
    have hevolved : Evolved (fun _ => True) (fun _ => True) (m.popped t)
        ((m.popped t).arrive c link early).1 := evolved_arrive hknows trivial link early
    rw [hevent, perform]
    rw [harrive] at hevolved ⊢
    have hran' : ran + k ≤ past.length + 1 := by
      cases early <;> simp at hran hk <;> omega
    obtain ⟨n', g', answers', hpays'', hledger⟩ := hopen.afterAttempt hx (hevolved.sound hs)
      (hevolved.knows hknows) hpast hcounts hran'
    refine ⟨0 + n + n', g', answers', (hpays.trans hpays').trans hpays'', ?_⟩
    rwa [Nat.zero_add, ← Nat.add_assoc]
  | settled hpast hlast hdecided hran =>
    -- a call that is settled has no timer
    have hdue := due_ne_nil ht hcall
    rw [hid, hpage] at hdue
    exact absurd rfl hdue

end PushMesh.Mesh
