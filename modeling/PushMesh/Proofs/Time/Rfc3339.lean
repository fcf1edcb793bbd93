import PushMesh.Time.Rfc3339
import PushMesh.Proofs.Number.Digits
import Mathlib.Data.List.TakeDrop
import Mathlib.Tactic.SplitIfs

/-!
# A written instant is read back

The text of an instant of the years 0 to 9999 is read as that instant (`parse?_text`). Every number in
it has a fixed width and is followed by a mark that is no digit, so each step of the scanner takes
exactly what the writer put there.
-/

namespace PushMesh.Instant

/-! ## Padded numbers -/

/-- A number that fits its width is padded to that width. -/
theorem length_padded {width n : Nat} (hwidth : 0 < width) (h : n < 10 ^ width) :
    (padded width n).length = width := by
  have hle : (Decimal.digitText n).length ≤ width :=
    (Nat.length_toDigits_le_iff (by decide) hwidth).2 h
  rw [padded, List.length_append, List.length_replicate, Nat.sub_add_cancel hle]

/-- A padded number has digits only. -/
theorem isDigit_of_mem_padded {width n : Nat} {c : Char} (h : c ∈ padded width n) :
    c.isDigit = true := by
  rcases List.mem_append.1 h with h | h
  · rw [List.eq_of_mem_replicate h]
    rfl
  · exact Decimal.isDigit_of_mem_digitText h

theorem padded_ne_nil (width n : Nat) : padded width n ≠ [] :=
  List.append_ne_nil_of_right_ne_nil _ (Decimal.digitText_ne_nil n)

/-- A padded number is read back. -/
theorem decimal?_padded (width n : Nat) : Text.decimal? (padded width n) = some n := by
  rw [Text.decimal?_eq_some (padded_ne_nil width n) fun _ hc => isDigit_of_mem_padded hc, padded,
    Nat.ofDigitChars_append, Nat.ofDigitChars_replicate_zero, Nat.mul_zero,
    Decimal.ofDigitChars_digitText]

/-! ## Single steps -/

/-- A scanner goes on where the one before it stopped. -/
theorem bind_run {α β : Type} {x : Scanner α} (f : α → Scanner β) {cs cs' : List Char} {a : α}
    (h : x cs = some (a, cs')) : (x >>= f) cs = f a cs' := by
  change (x cs >>= fun q => f q.1 q.2) = _
  rw [h]
  rfl

/-- A digit is no blank. -/
theorem isBlank_of_isDigit {c : Char} (h : c.isDigit = true) : Text.isBlank c = false := by
  have hrange : 48 ≤ c.toNat ∧ c.toNat ≤ 57 := Char.isDigit_iff_toNat.1 h
  simp only [Text.isBlank, Bool.or_eq_false_iff, Bool.and_eq_false_iff, decide_eq_false_iff_not]
  omega

/-- Nothing is passed over in front of what is no blank. -/
theorem blanks_run {c : Char} (h : Text.isBlank c = false) (cs : List Char) :
    blanks (c :: cs) = some ((), c :: cs) := by
  have htrim : Text.trimStart (c :: cs) = c :: cs := List.dropWhile_cons_of_neg (by simp [h])
  change some ((), Text.trimStart (c :: cs)) = _
  rw [htrim]

/-- Digits are taken up to a character that is none, if they are not too many. -/
theorem digitsUpTo_run {width : Nat} {ds : List Char} (hds : ∀ c ∈ ds, c.isDigit = true)
    (hlength : ds.length ≤ width) {c : Char} (hc : c.isDigit = false) (cs : List Char) :
    digitsUpTo width (ds ++ c :: cs) = some (ds, c :: cs) := by
  have htake : ((ds ++ c :: cs).take width).takeWhile Char.isDigit = ds := by
    rw [List.take_append, List.take_of_length_le hlength, List.takeWhile_append_of_pos hds]
    cases width - ds.length with
    | zero => rw [List.take_zero, List.takeWhile_nil, List.append_nil]
    | succ k => rw [List.take_succ_cons, List.takeWhile_cons_of_neg (by simp [hc]), List.append_nil]
  change some (((ds ++ c :: cs).take width).takeWhile Char.isDigit,
    (ds ++ c :: cs).drop (((ds ++ c :: cs).take width).takeWhile Char.isDigit).length) = _
  rw [htake, List.drop_left]

/-- A padded number is scanned up to the next character that is no digit. -/
theorem number_run {width n : Nat} (hwidth : 0 < width) (h : n < 10 ^ width) {c : Char}
    (hc : c.isDigit = false) (cs : List Char) :
    number width (padded width n ++ c :: cs) = some (n, c :: cs) := by
  have hdigits : digitsUpTo width (padded width n ++ c :: cs) = some (padded width n, c :: cs) :=
    digitsUpTo_run (fun _ hc => isDigit_of_mem_padded hc) (length_padded hwidth h).le hc cs
  rw [number, bind_run _ hdigits, decimal?_padded]
  rfl

/-- A padded field is scanned up to the next character that is no digit. -/
theorem field_run {width n : Nat} (hwidth : 0 < width) (h : n < 10 ^ width) {c : Char}
    (hc : c.isDigit = false) (cs : List Char) :
    field width (padded width n ++ c :: cs) = some (n, c :: cs) := by
  obtain ⟨d, ds, hds⟩ := List.exists_cons_of_ne_nil (padded_ne_nil width n)
  have hd : d.isDigit = true := isDigit_of_mem_padded (hds ▸ List.mem_cons_self)
  have hnumber := number_run hwidth h hc cs
  rw [hds, List.cons_append] at hnumber ⊢
  rw [field, bind_run _ (blanks_run (isBlank_of_isDigit hd) _)]
  exact hnumber

/-- The year of four digits has no sign. -/
theorem yearField_run {n : Nat} (h : n < 10 ^ 4) {c : Char} (hc : c.isDigit = false) (cs : List Char) :
    yearField (padded 4 n ++ c :: cs) = some ((n : Int), c :: cs) := by
  obtain ⟨d, ds, hds⟩ := List.exists_cons_of_ne_nil (padded_ne_nil 4 n)
  have hd : d.isDigit = true := isDigit_of_mem_padded (hds ▸ List.mem_cons_self)
  have hnumber := number_run (by decide) h hc cs
  rw [hds, List.cons_append] at hnumber ⊢
  have hget : (get : Scanner (List Char)) (d :: (ds ++ c :: cs)) =
    some (d :: (ds ++ c :: cs), d :: (ds ++ c :: cs)) := rfl
  rw [yearField, bind_run _ (blanks_run (isBlank_of_isDigit hd) _), bind_run _ hget]
  generalize hl : d :: (ds ++ c :: cs) = l at hnumber ⊢
  split
  · obtain ⟨rfl, -⟩ := List.cons.inj hl
    exact absurd hd (by decide)
  · obtain ⟨rfl, -⟩ := List.cons.inj hl
    exact absurd hd (by decide)
  · rw [bind_run _ hnumber]
    rfl

/-- A mark is scanned. -/
theorem mark_run {c : Char} (h : Text.isBlank c = false) (cs : List Char) :
    mark c (c :: cs) = some ((), cs) := by
  have hget : (get : Scanner (List Char)) (c :: cs) = some (c :: cs, c :: cs) := rfl
  rw [mark, bind_run _ (blanks_run h cs), bind_run _ hget]
  dsimp only
  rw [if_pos rfl]
  rfl

/-- The digits of a fraction are taken for nanoseconds. -/
theorem fraction_padded {width n : Nat} (hwidth : 0 < width) (hle : width ≤ 9) (h : n < 10 ^ width)
    {c : Char} (hc : c.isDigit = false) (cs : List Char) :
    fraction ('.' :: (padded width n ++ c :: cs)) = some (n * 10 ^ (9 - width), c :: cs) := by
  have hlength := length_padded hwidth h
  have hdigits : digitsUpTo 9 (padded width n ++ c :: cs) = some (padded width n, c :: cs) :=
    digitsUpTo_run (fun _ hc => isDigit_of_mem_padded hc) (hlength.trans_le hle) hc cs
  have hget : (get : Scanner (List Char)) ('.' :: (padded width n ++ c :: cs)) =
    some ('.' :: (padded width n ++ c :: cs), '.' :: (padded width n ++ c :: cs)) := rfl
  have hset : (set (padded width n ++ c :: cs) : Scanner PUnit)
      ('.' :: (padded width n ++ c :: cs)) = some (⟨⟩, padded width n ++ c :: cs) := rfl
  have hlift : (StateT.lift (Text.decimal? (padded width n)) : Scanner Nat) (c :: cs) =
      some (n, c :: cs) := by
    rw [decimal?_padded]
    rfl
  -- no digits are left over to be skipped
  have hrest : (c :: cs).dropWhile Char.isDigit = c :: cs :=
    List.dropWhile_cons_of_neg (by simp [hc])
  have hskip : (modify (·.dropWhile Char.isDigit) : Scanner PUnit) (c :: cs) =
      some (⟨⟩, c :: cs) := by
    change some (_, (c :: cs).dropWhile Char.isDigit) = _
    rw [hrest]
  rw [fraction, bind_run _ hget]
  change (set (padded width n ++ c :: cs) >>= _ : Scanner Nat) _ = _
  rw [bind_run _ hset, bind_run _ hdigits, bind_run _ hlift, bind_run _ hskip, hlength]
  rfl

/-- The written fraction of a second is read back. -/
theorem fraction_run {nanos : Nat} (h : nanos < 1000000000) (cs : List Char) :
    fraction (fractionText nanos ++ 'Z' :: cs) = some (nanos, 'Z' :: cs) := by
  have hz : 'Z'.isDigit = false := by decide
  unfold fractionText
  split_ifs with hzero hmillis hmicros
  · rw [hzero]
    rfl
  · have hread := fraction_padded (by decide) (by decide) (by omega : nanos / 1000000 < 10 ^ 3) hz cs
    have hnanos : nanos / 1000000 * 10 ^ (9 - 3) = nanos := by omega
    rwa [hnanos] at hread
  · have hread := fraction_padded (by decide) (by decide) (by omega : nanos / 1000 < 10 ^ 6) hz cs
    have hnanos : nanos / 1000 * 10 ^ (9 - 6) = nanos := by omega
    rwa [hnanos] at hread
  · have hread := fraction_padded (by decide) (by decide) (by omega : nanos < 10 ^ 9) hz cs
    rwa [Nat.sub_self, Nat.pow_zero, Nat.mul_one] at hread

/-- No digit follows the seconds. -/
theorem exists_fractionText_eq_cons (nanos : Nat) (cs : List Char) :
    ∃ c cs', fractionText nanos ++ 'Z' :: cs = c :: cs' ∧ c.isDigit = false := by
  unfold fractionText
  split_ifs
  · exact ⟨'Z', cs, rfl, by decide⟩
  all_goals exact ⟨'.', _, rfl, by decide⟩

/-- The seconds are scanned up to their fraction or the zone. -/
theorem second_run {n : Nat} (h : n < 10 ^ 2) (nanos : Nat) (cs : List Char) :
    field 2 (padded 2 n ++ (fractionText nanos ++ 'Z' :: cs)) =
      some (n, fractionText nanos ++ 'Z' :: cs) := by
  obtain ⟨c, cs', hcs, hc⟩ := exists_fractionText_eq_cons nanos cs
  rw [hcs]
  exact field_run (by decide) h hc cs'

/-! ## Instants -/

/-- No month has more than 31 days. -/
theorem daysIn_le (year : Int) (month : Nat) : Calendar.daysIn year month ≤ 31 := by
  unfold Calendar.daysIn
  split_ifs <;> decide

/-- The fields of an instant fit the widths in which they are written. -/
structure Fits (t : Instant) : Prop where
  month : t.month < 10 ^ 2
  day : t.day < 10 ^ 2
  hour : t.hour < 24
  minute : t.minute < 60
  second : t.second < 10 ^ 2
  nanos : t.nanos < 1000000000

/-- Every field of an instant fits its width. -/
theorem fits (t : Instant) : t.Fits := by
  have hvalid := t.valid
  have hdays := daysIn_le t.year t.month
  simp only [Calendar.isInstant, Bool.and_eq_true, decide_eq_true_eq] at hvalid
  constructor <;> omega

/-- An instant is what its fields say. -/
theorem ofFields?_self (t : Instant) :
    ofFields? t.year t.month t.day t.hour t.minute t.second t.nanos = some t :=
  dif_pos t.valid

/-- A clock without an offset shows the instant itself. -/
theorem ofLocal?_zero (t : Instant) : t.ofLocal? 0 = some t := by
  obtain ⟨-, -, hhour, hminute, -, -⟩ := t.fits
  have hday : ¬((t.hour * 60 + t.minute : Nat) : Int) - 0 < 0 := by omega
  have hday' : ((t.hour * 60 + t.minute : Nat) : Int) - 0 < 1440 := by omega
  have hminutes : (((t.hour * 60 + t.minute : Nat) : Int) - 0).toNat = t.hour * 60 + t.minute := by
    omega
  have hdiv : (t.hour * 60 + t.minute) / 60 = t.hour := by omega
  have hmod : (t.hour * 60 + t.minute) % 60 = t.minute := by omega
  simp only [ofLocal?, if_neg hday, if_pos hday', hminutes, hdiv, hmod]
  exact t.ofFields?_self

/-- A year of four digits is written as such. -/
theorem yearText_of_le {year : Int} (hlow : 0 ≤ year) (hhigh : year ≤ 9999) :
    yearText year = padded 4 year.natAbs :=
  if_pos ⟨hlow, hhigh⟩

/-- The end of a written instant is a clock without an offset. -/
theorem offset_run (cs : List Char) : offset ('Z' :: cs) = some (0, cs) := by
  rw [offset, bind_run _ (blanks_run (by decide : Text.isBlank 'Z' = false) cs)]
  rfl

/-- **The text of an instant is read as that instant**, in the years 0 to 9999. -/
theorem parse?_text {t : Instant} (hlow : 0 ≤ t.year) (hhigh : t.year ≤ 9999) :
    parse? t.text = some t := by
  obtain ⟨hmonth, hday, hhour, hminute, hsecond, hnanos⟩ := t.fits
  have hyear : t.year.natAbs < 10 ^ 4 := by omega
  have hcast : (t.year.natAbs : Int) = t.year := by omega
  have hdash : '-'.isDigit = false := by decide
  have hcolon : ':'.isDigit = false := by decide
  -- the scanner takes the text field by field, and nothing is left over
  have hscan : scan t.text.toList = some (t, []) := by
    rw [text, String.toList_ofList, yearText_of_le hlow hhigh]
    simp only [List.append_assoc, List.cons_append]
    have hblanks : blanks [] = some ((), []) := rfl
    have hget : (get : Scanner (List Char)) [] = some ([], []) := rfl
    have hend : (guard (([] : List Char).isEmpty = true) : Scanner Unit) [] = some ((), []) := rfl
    have hoffset : (guard ((0 : Int).natAbs < 1440) : Scanner Unit) [] = some ((), []) := by
      rw [guard, if_pos (by decide)]
      rfl
    have hlift : (StateT.lift (some t) : Scanner Instant) [] = some (t, []) := rfl
    rw [scan, bind_run _ (yearField_run hyear hdash _), bind_run _ (mark_run (by decide) _),
      bind_run _ (field_run (by decide) hmonth hdash _), bind_run _ (mark_run (by decide) _),
      bind_run _ (field_run (by decide) hday (by decide) _),
      bind_run _ (rfl : separator ('T' :: _) = some ((), _)),
      bind_run _ (field_run (by decide) (by omega) hcolon _), bind_run _ (mark_run (by decide) _),
      bind_run _ (field_run (by decide) (by omega) hcolon _), bind_run _ (mark_run (by decide) _),
      bind_run _ (second_run hsecond t.nanos []), bind_run _ (fraction_run hnanos []),
      bind_run _ (offset_run []), bind_run _ hblanks, bind_run _ hget, bind_run _ hend,
      bind_run _ hoffset, hcast, t.ofFields?_self, bind_run _ hlift, t.ofLocal?_zero]
    rfl
  rw [parse?, StateT.run, hscan]
  rfl

end PushMesh.Instant
