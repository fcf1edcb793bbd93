import PushMesh.Text.Blank
import Mathlib.Data.List.DropRight

/-!
# Laws of texts

What trimming, prefixes and lower case do to a text that is put together from parts.
-/

namespace PushMesh.Text

variable {p : Char → Bool} {cs before after tail : List Char} {c : Char}

/-! ## Prefixes -/

/-- What comes after a prefix is what was put behind it. -/
theorem afterPrefix?_eq_some_iff {p cs rest : List Char} :
    afterPrefix? p cs = some rest ↔ cs = p ++ rest := by
  induction p generalizing cs with
  | nil => exact Option.some_inj
  | cons c p ih =>
    cases cs with
    | nil => simp [afterPrefix?]
    | cons d cs =>
      rw [afterPrefix?, List.cons_append, List.cons.injEq]
      split
      · next heq => rw [ih, eq_comm (a := d), and_iff_right heq]
      · next hne => exact ⟨nofun, fun h => absurd h.1.symm hne⟩

/-- A prefix that was put in front is found. -/
theorem afterPrefix?_append (p cs : List Char) : afterPrefix? p (p ++ cs) = some cs :=
  afterPrefix?_eq_some_iff.2 rfl

/-- A prefix is found iff the text starts with it. -/
theorem isSome_afterPrefix?_iff {p cs : List Char} : (afterPrefix? p cs).isSome = true ↔ p <+: cs := by
  simp only [Option.isSome_iff_exists, afterPrefix?_eq_some_iff]
  exact exists_congr fun rest => eq_comm

/-- A prefix is not found iff the text does not start with it. -/
theorem afterPrefix?_eq_none_iff {p cs : List Char} : afterPrefix? p cs = none ↔ ¬p <+: cs := by
  rw [← isSome_afterPrefix?_iff, Bool.not_eq_true, Option.isSome_eq_false_iff, Option.isNone_iff_eq_none]

/-! ## Trimming -/

/-- What is dropped from the end may as well be missing. -/
theorem dropEndWhile_append (htail : ∀ c ∈ tail, p c = true) :
    dropEndWhile p (cs ++ tail) = dropEndWhile p cs := by
  rw [dropEndWhile, List.reverse_append, List.dropWhile_append_of_pos]
  · rfl
  · exact fun c hc => htail c (List.mem_reverse.1 hc)

/-- Nothing is dropped where the last character stays. -/
theorem dropEndWhile_eq_self_iff :
    dropEndWhile p cs = cs ↔ ∀ h : cs ≠ [], ¬p (cs.getLast h) = true :=
  List.rdropWhile_eq_self_iff

/-- Behind what stays nothing is dropped but from what follows. -/
theorem dropEndWhile_append_of_exists (htail : ∃ c ∈ tail, p c = false) :
    dropEndWhile p (cs ++ tail) = cs ++ dropEndWhile p tail := by
  have hkept : (tail.reverse.dropWhile p).isEmpty = false := by
    obtain ⟨c, hc, hp⟩ := htail
    rw [← Bool.not_eq_true, List.isEmpty_iff, List.dropWhile_eq_nil_iff]
    intro hall
    rw [hall c (List.mem_reverse.2 hc)] at hp
    cases hp
  rw [dropEndWhile, List.reverse_append, List.dropWhile_append, hkept, if_neg Bool.false_ne_true,
    List.reverse_append, List.reverse_reverse]
  rfl

/-- A text that ends with a character that stays keeps all of itself, whatever follows. -/
theorem dropEndWhile_append_of_eq_self (hcs : dropEndWhile p cs = cs) (tail : List Char) :
    dropEndWhile p (cs ++ tail) = cs ++ dropEndWhile p tail := by
  by_cases htail : ∃ c ∈ tail, p c = false
  · exact dropEndWhile_append_of_exists htail
  · have hall : ∀ c ∈ tail, p c = true := by simpa using htail
    have hnone : dropEndWhile p tail = [] := List.rdropWhile_eq_nil_iff.2 hall
    rw [dropEndWhile_append hall, hcs, hnone, List.append_nil]

/-- Dropping characters at the end adds none. -/
theorem dropEndWhile_sublist (p : Char → Bool) (cs : List Char) : (dropEndWhile p cs).Sublist cs :=
  (List.rdropWhile_prefix p cs).sublist

/-- Trimming adds no character. -/
theorem trim_sublist (cs : List Char) : (trim cs).Sublist cs :=
  (dropEndWhile_sublist isBlank _).trans (List.dropWhile_sublist isBlank)

/-- Nothing but what passes the test is dropped. -/
theorem all_dropWhile (p : Char → Bool) (cs : List Char) : (cs.dropWhile p).all p = cs.all p := by
  conv_rhs => rw [← cs.takeWhile_append_dropWhile (p := p), List.all_append, List.all_takeWhile,
    Bool.true_and]

/-- Dropping characters at the end that pass a test does not change whether all of them pass. -/
theorem all_dropEndWhile (p : Char → Bool) (cs : List Char) :
    (dropEndWhile p cs).all p = cs.all p := by
  rw [dropEndWhile, List.all_reverse, all_dropWhile, List.all_reverse]

/-- What is left of a text that is not blank is not blank. -/
theorem isBlankText_trimmed (s : String) : isBlankText (trimmed s) = isBlankText s := by
  rw [isBlankText, trimmed, String.toList_ofList, trim, all_dropEndWhile, trimStart, all_dropWhile,
    isBlankText]

/-- Of a blank text nothing is left. -/
theorem trimmed_eq_empty_iff {s : String} : trimmed s = "" ↔ isBlankText s = true := by
  constructor
  · intro hempty
    rw [← isBlankText_trimmed, hempty]
    rfl
  · intro hblank
    have hdropped : s.toList.dropWhile isBlank = [] :=
      List.dropWhile_eq_nil_iff.2 (List.all_eq_true.1 hblank)
    rw [trimmed, trim, trimStart, hdropped]
    rfl

/-- A character of one kind at the end keeps those of the other kind before it from being dropped. So if no
fewer are dropped without the first kind, there is none of it at the end. -/
theorem dropEndWhile_eq_self_of_length_eq {q : Char → Bool} (hapart : ∀ c, q c = true → p c = false)
    (hlength : (dropEndWhile p cs).length = (dropEndWhile p (dropEndWhile q cs)).length) :
    dropEndWhile q cs = cs := by
  by_contra hdropped
  obtain ⟨hne, hlast⟩ : ∃ hne : cs ≠ [], q (cs.getLast hne) = true := by
    simpa [dropEndWhile_eq_self_iff] using hdropped
  have hkept : dropEndWhile p cs = cs := by
    refine dropEndWhile_eq_self_iff.2 fun _ => ?_
    rw [hapart _ hlast]
    exact Bool.false_ne_true
  have hshort := dropEndWhile_sublist q cs
  have hle := (dropEndWhile_sublist p (dropEndWhile q cs)).length_le
  rw [← hlength, hkept] at hle
  exact hdropped (hshort.eq_of_length (Nat.le_antisymm hshort.length_le hle))

/-- A text between blanks is trimmed to itself, if there are none in it. -/
theorem trim_append (hbefore : before.all isBlank = true) (hafter : after.all isBlank = true)
    (hcs : cs.any isBlank = false) : trim (before ++ cs ++ after) = cs := by
  have hbefore := List.all_eq_true.1 hbefore
  have hafter := List.all_eq_true.1 hafter
  have hcs := List.any_eq_false.1 hcs
  cases cs with
  | nil =>
    have hall : ∀ c ∈ before ++ after, isBlank c = true :=
      fun c hc => (List.mem_append.1 hc).elim (hbefore c) (hafter c)
    rw [List.append_nil, trim, trimStart, List.dropWhile_eq_nil_iff.2 hall]
    rfl
  | cons c cs =>
    have hstart : trimStart (before ++ (c :: cs) ++ after) = (c :: cs) ++ after := by
      rw [trimStart, List.append_assoc, List.dropWhile_append_of_pos hbefore, List.cons_append,
        List.dropWhile_cons_of_neg (hcs c List.mem_cons_self)]
    have hend : dropEndWhile isBlank (c :: cs) = c :: cs :=
      dropEndWhile_eq_self_iff.2 fun h => hcs _ (List.getLast_mem h)
    rw [trim, hstart, dropEndWhile_append hafter, hend]

/-! ## Lower case -/

/-- An upper-case letter is moved by 32, any other character stays. -/
theorem toNat_lowerAscii (c : Char) :
    (lowerAscii c).toNat = if 65 ≤ c.toNat ∧ c.toNat ≤ 90 then c.toNat + 32 else c.toNat := by
  have hupper : ('A' ≤ c ∧ c ≤ 'Z') ↔ (65 ≤ c.toNat ∧ c.toNat ≤ 90) := Iff.rfl
  rw [lowerAscii]
  split
  · next h =>
    have hbounds := hupper.1 h
    have hvalid : (c.toNat + 32).isValidChar := .inl (by omega)
    rw [if_pos hbounds, Char.ofNat, dif_pos hvalid]
    rfl
  · next h => rw [if_neg (mt hupper.2 h)]

/-- Lower-casing does not make a character blank, nor a blank one visible. -/
theorem isBlank_lowerAscii (c : Char) : isBlank (lowerAscii c) = isBlank c := by
  rw [isBlank, isBlank, toNat_lowerAscii]
  split
  · next h =>
    -- neither a letter in upper case nor its counterpart is blank
    rw [Bool.eq_iff_iff]
    simp
    omega
  · rfl

/-- Lower-casing keeps whether a text has a blank in it. -/
theorem any_isBlank_map_lowerAscii (cs : List Char) :
    (cs.map lowerAscii).any isBlank = cs.any isBlank := by
  rw [List.any_map]
  exact congrArg cs.any (funext isBlank_lowerAscii)

theorem lowered_append (s t : String) : lowered (s ++ t) = lowered s ++ lowered t := by
  rw [lowered, String.toList_append, List.map_append, String.ofList_append]
  rfl

/-- Only a slash is lower-cased to a slash. -/
theorem lowerAscii_eq_slash_iff : lowerAscii c = '/' ↔ c = '/' := by
  have hslash : '/'.toNat = 47 := rfl
  rw [← Char.toNat_inj, ← Char.toNat_inj, toNat_lowerAscii, hslash]
  split <;> omega

end PushMesh.Text
