import PushMesh.Number.Shortest
import PushMesh.Number.Word
import Mathlib.Data.Nat.Digits.Defs

/-!
# Decimal digits

The digits that a number is written with are digits, at least one, without a zero in front of others,
and they stand for that number (`ofDigitChars_digitText`). A text of digits is read as the number that
they stand for (`Text.decimal?_eq_some`), and as a word only if the word is that number
(`Number.toNat_of_word?_toString`).
-/

namespace PushMesh

namespace Decimal

/-- A number is written with digits only. -/
theorem isDigit_of_mem_digitText {n : Nat} {c : Char} (h : c ∈ digitText n) : c.isDigit = true :=
  Nat.isDigit_of_mem_toDigits (by decide) (by decide) h

theorem digitText_ne_nil (n : Nat) : digitText n ≠ [] := Nat.toDigits_ne_nil

/-- A number is what its digits say. -/
theorem ofDigitChars_digitText (n : Nat) : Nat.ofDigitChars 10 (digitText n) 0 = n :=
  Nat.ofDigitChars_ten_toDigits

/-- A number of several digits does not start with a zero: by induction on the digits. -/
theorem head?_digitText_ne {n : Nat} (h : n ≠ 0) : (digitText n).head? ≠ some '0' := by
  induction n using Nat.strong_induction_on with
  | h n ih =>
    rw [digitText, Nat.toDigits_eq_if (by decide)]
    split
    · rw [List.head?_cons, Ne, Option.some.injEq, Nat.digitChar_eq_zero]
      exact h
    · have hhead := ih (n / 10) (by omega) (by omega)
      obtain ⟨c, cs, hcs⟩ := List.exists_cons_of_ne_nil (Nat.toDigits_ne_nil (n := n / 10) (b := 10))
      rw [digitText, hcs] at hhead
      rw [hcs]
      exact hhead

/-- Zero is written with one digit. -/
theorem length_digitText_zero : (digitText 0).length = 1 := by
  rw [digitText, Nat.toDigits_zero]
  rfl

end Decimal

namespace Text

/-- Digits write the number that they stand for. -/
theorem decimal?_eq_some {cs : List Char} (hne : cs ≠ []) (hdigits : ∀ c ∈ cs, c.isDigit = true) :
    decimal? cs = some (Nat.ofDigitChars 10 cs 0) := by
  have hfold : ∀ (cs : List Char) (n : Nat), (∀ c ∈ cs, c.isDigit = true) →
      cs.foldl (fun n c => n.bind fun n =>
        if c.isDigit then some (n * 10 + (c.toNat - '0'.toNat)) else none) (some n) =
        some (Nat.ofDigitChars 10 cs n) := by
    intro cs
    induction cs with
    | nil => exact fun n _ => by rw [List.foldl_nil, Nat.ofDigitChars_nil]
    | cons c cs ih =>
      intro n hcs
      obtain ⟨hc, hcs⟩ := List.forall_mem_cons.1 hcs
      rw [List.foldl_cons, Option.bind_some, if_pos hc, ih _ hcs, Nat.ofDigitChars_cons,
        Nat.mul_comm]
  have hempty : cs.isEmpty = false := by
    rw [Bool.eq_false_iff, Ne, List.isEmpty_iff]
    exact hne
  rw [decimal?, hempty, if_neg Bool.false_ne_true, hfold cs 0 hdigits]

end Text

/-- A number that is written out and read as a word is that word. -/
theorem Number.toNat_of_word?_toString {n : Nat} {w : UInt64}
    (h : Number.word? (toString n) = some w) : w.toNat = n := by
  have htext : (toString n).toList = Decimal.digitText n := by
    change (Nat.repr n).toList = _
    rw [Nat.repr, String.toList_ofList, Decimal.digitText]
  have hdigits : ∀ c ∈ Decimal.digitText n, c.isDigit = true :=
    fun c => Decimal.isDigit_of_mem_digitText
  have hplus : Number.withoutPlus (Decimal.digitText n) = Decimal.digitText n := by
    rw [Number.withoutPlus]
    intro cs heq
    exact absurd (hdigits '+' (heq ▸ List.mem_cons_self)) (by decide)
  have hvalue : Text.decimal? (Decimal.digitText n) = some n := by
    rw [Text.decimal?_eq_some (Decimal.digitText_ne_nil n) hdigits, Decimal.ofDigitChars_digitText]
  rw [Number.word?, Number.below?, htext, hplus, hvalue, Option.map_eq_some_iff] at h
  obtain ⟨k, hk, rfl⟩ := h
  obtain ⟨hk, hlt⟩ := Option.filter_eq_some_iff.1 hk
  obtain rfl := Option.some.inj hk
  rw [UInt64.toNat_ofNat', Nat.mod_eq_of_lt]
  simpa using hlt

end PushMesh
