import PushMesh.Proofs.Discovery.Refresh

/-!
# The window in which a heartbeat counts

A heartbeat counts while it is no older than the lifetime, which is scaled to milliseconds in words of 64 bits.
As long as the milliseconds fit a signed word, the window is what it is meant to be (`Window`): it is at least
a second, no shorter for more seconds, and closes in the past, so no node finds itself gone. These are the only
seconds for which the scaling is exact (`window_iff`). Beyond them the lifetime can be negative, and a node with
the greatest one removes itself in its own heartbeat (`not_window_forever`).
-/

namespace PushMesh.Discovery

variable {seconds shorter : UInt64} {now : Int64}

/-! ## Seconds that fit -/

/-- A lifetime that fits is at least a second. -/
theorem le_toInt_lifetime (h : seconds.toNat ≤ (2 ^ 63 - 1) / 1000) :
    1000 ≤ (lifetime seconds).toInt := by
  rw [toInt_lifetime h]
  omega

/-- A lifetime that fits is no shorter than one of fewer seconds. -/
theorem toInt_lifetime_le (h : seconds.toNat ≤ (2 ^ 63 - 1) / 1000) (hle : shorter ≤ seconds) :
    (lifetime shorter).toInt ≤ (lifetime seconds).toInt := by
  have hseconds : shorter.toNat ≤ seconds.toNat := UInt64.le_iff_toNat_le.1 hle
  rw [toInt_lifetime h, toInt_lifetime (hseconds.trans h)]
  omega

/-- The seconds whose lifetime is exact are those that fit. -/
theorem toInt_lifetime_iff : (lifetime seconds).toInt = max seconds.toNat 1 * 1000 ↔
    seconds.toNat ≤ (2 ^ 63 - 1) / 1000 := by
  refine ⟨fun hexact => ?_, toInt_lifetime⟩
  have hsigned := Int64.toInt_lt (lifetime seconds)
  omega

/-- The ids with a heartbeat before a time are among those with one before a later time. -/
theorem Store.idsWhere_subset (s : Store) {earlier later : Int} (h : earlier ≤ later) :
    s.idsWhere (· < earlier) ⊆ s.idsWhere (· < later) := by
  intro id hid
  obtain ⟨time, hbeat, hlt⟩ := Store.mem_idsWhere.1 hid
  refine Store.mem_idsWhere.2 ⟨time, hbeat, ?_⟩
  rw [decide_eq_true_eq] at hlt ⊢
  exact Int.lt_of_lt_of_le hlt h

/-! ## The window -/

/-- What the lifetime of a node is meant to be at a time. -/
structure Window (seconds : UInt64) (now : Int64) : Prop where
  /-- The milliseconds are those of the seconds, of which there is at least one. -/
  exact : (lifetime seconds).toInt = max seconds.toNat 1 * 1000
  positive : 1000 ≤ (lifetime seconds).toInt
  /-- The window closes a lifetime ago. -/
  closes : (cutoff now seconds).toInt = now.toInt - (lifetime seconds).toInt
  past : cutoff now seconds < now
  /-- A node whose heartbeat is of now is not found to be gone, whatever else the store holds. -/
  unlisted : ∀ (s : Store) (id : String), s.beats.get? id = some now.toInt →
    id ∉ s.idsWhere (· < (cutoff now seconds).toInt)
  /-- The own entry is there after a heartbeat with no other commands in between. -/
  own : ∀ (self : Node) (s : Store),
    ((heartbeat self seconds now).run s).1.beats.get? self.id = some now.toInt ∧
      ((heartbeat self seconds now).run s).1.descriptors.get? self.id = some (descriptorText self)
  /-- More seconds do not make for a shorter lifetime. -/
  longer : ∀ shorter ≤ seconds, (lifetime shorter).toInt ≤ (lifetime seconds).toInt
  /-- With fewer seconds no node is kept that is gone with more. -/
  kept : ∀ shorter ≤ seconds, ∀ s : Store,
    s.idsWhere (· < (cutoff now seconds).toInt) ⊆ s.idsWhere (· < (cutoff now shorter).toInt)

/-- Where the seconds fit into milliseconds, the window is what the seconds say. -/
theorem window_of_le (hnow : 0 ≤ now.toInt) (h : seconds.toNat ≤ (2 ^ 63 - 1) / 1000) :
    Window seconds now := by
  have hpositive := le_toInt_lifetime h
  -- nothing wraps, so the words are what their numbers say
  have hcloses : (cutoff now seconds).toInt = now.toInt - (lifetime seconds).toInt := by
    rw [toInt_cutoff hnow h, toInt_lifetime h]
  have hpast : (cutoff now seconds).toInt < now.toInt := by omega
  exact {
    exact := toInt_lifetime h
    positive := hpositive
    closes := hcloses
    past := Int64.lt_iff_toInt_lt.2 hpast
    unlisted := fun s id hbeat => not_mem_expired hbeat hnow (by omega)
    own := fun self s => by
      rw [run_heartbeat]
      exact get?_beaten_self hpast.le
    longer := fun shorter hle => toInt_lifetime_le h hle
    kept := fun shorter hle s => by
      have hshorter : shorter.toNat ≤ (2 ^ 63 - 1) / 1000 :=
        (UInt64.le_iff_toNat_le.1 hle).trans h
      have hlifetime := toInt_lifetime_le h hle
      refine s.idsWhere_subset ?_
      rw [hcloses, toInt_cutoff hnow hshorter, ← toInt_lifetime hshorter]
      omega }

/-- **The liveness window.** For any number of seconds the lifetime is their milliseconds as a signed word of
64 bits, where no seconds count as one. The window is what it is meant to be at every time just for those
seconds whose milliseconds fit such a word. -/
theorem window_iff (seconds : UInt64) (now : Int64) (hnow : 0 ≤ now.toInt) :
    (lifetime seconds).toInt = Int.bmod (max seconds.toNat 1 * 1000) (2 ^ 64) ∧
      (Window seconds now ↔ seconds.toNat ≤ (2 ^ 63 - 1) / 1000) :=
  ⟨toInt_lifetime_eq_bmod seconds,
    fun hwindow => toInt_lifetime_iff.1 hwindow.exact, window_of_le hnow⟩

/-- The longest lifetime that fits has its window, and the next one has not. -/
theorem window_iff_longest :
    0 ≤ (50000 : Int64).toInt ∧ (9223372036854775 : UInt64).toNat = (2 ^ 63 - 1) / 1000 ∧
      Window 9223372036854775 50000 ∧ ¬Window 9223372036854776 50000 := by
  have hnow : 0 ≤ (50000 : Int64).toInt := by decide
  refine ⟨hnow, by decide, ?_, ?_⟩
  · exact (window_iff 9223372036854775 50000 hnow).2.2 (by decide)
  · exact fun hwindow => absurd ((window_iff 9223372036854776 50000 hnow).2.1 hwindow) (by decide)

/-- A node that is never to be gone: its lifetime is negative and shorter than that of no seconds at all. In
its first heartbeat, alone on a store that holds nothing, it removes itself, and it would stay with the usual
fifteen seconds. -/
theorem not_window_forever :
    let forever : UInt64 := 18446744073709551615
    let self := Node.peer "a" "a:1"
    forever.toNat = 2 ^ 64 - 1 ∧
      (lifetime forever).toInt = -1000 ∧ (lifetime 0).toInt = 1000 ∧
      ¬cutoff 50000 forever < 50000 ∧
      (heartbeat self forever 50000).run .empty = (.empty, some []) ∧
      ((heartbeat self 15 50000).run .empty).1.beats.get? "a" = some 50000 := by
  decide +kernel

end PushMesh.Discovery
