import PushMesh.Proofs.Json.Basic
import PushMesh.Proofs.Number.Digits
import Mathlib.Data.List.Chain
import Mathlib.Data.List.TakeDrop

/-!
# A written text is scanned into its tokens

Every token that a value of 64 bit integers is written with is found again at the start of its text
(`scanOne_text`). A number ends where a character follows that cannot continue it, and as two numbers
never stand side by side in the written form, the whole text comes apart into its tokens
(`scan_text`).
-/

namespace PushMesh.Json

namespace Token

/-! ## Strings -/

/-- Whether a part of a string stands for a character, whatever follows it. -/
def Stands (p : Part) (c : Char) : Prop :=
  ∀ ps, chars? (p :: ps) = (chars? ps).map (c :: ·)

/-- A plain character stands for itself. -/
theorem stands_char (c : Char) : Stands (.char c) c := fun _ => rfl

/-- A code of a control character is no half of a surrogate pair. -/
theorem stands_code {n : Nat} (h : n < 0x20) : Stands (.code n) (Char.ofNat n) := by
  have hhigh : isHighHalf n = false := by simp [isHighHalf]; omega
  have hlow : isLowHalf n = false := by simp [isLowHalf]; omega
  intro ps
  match ps with
  | [] | .char c :: ps | .code m :: ps => simp [chars?, hhigh, hlow]

/-- Two hexadecimal digits write a control character. -/
theorem hexCode?_hexDigit :
    ∀ n < 0x20, hexCode? '0' '0' (hexDigit (n / 16)) (hexDigit n) = some n := by
  decide

/-- A character that needs no escape is read as it is. -/
theorem parts?_cons {c : Char} (hquote : c ≠ '"') (hslash : c ≠ '\\') (hcontrol : 0x20 ≤ c.toNat)
    (rest : List Char) :
    parts? (c :: rest) = (parts? rest).map fun q => (.char c :: q.1, q.2) := by
  rw [parts?]
  · simp only [hcontrol, ne_eq, hslash, not_false_eq_true, and_self, guard_true, Option.pure_def,
      Option.bind_eq_bind, Option.bind_some]
    cases parts? rest <;> rfl
  all_goals simp_all

/-- An escape of one letter is read as the character that the letter stands for. -/
theorem parts?_letter {e c : Char} (he : escaped? e = some c) (hu : e ≠ 'u') (rest : List Char) :
    parts? ('\\' :: e :: rest) = (parts? rest).map fun q => (.char c :: q.1, q.2) := by
  rw [parts?]
  · simp only [he, Option.bind_eq_bind, Option.bind_some]
    cases parts? rest <;> rfl
  all_goals simp_all

/-- A hexadecimal escape is read as its code. -/
theorem parts?_code {a b c d : Char} {n : Nat} (h : hexCode? a b c d = some n) (rest : List Char) :
    parts? ('\\' :: 'u' :: a :: b :: c :: d :: rest) =
      (parts? rest).map fun q => (.code n :: q.1, q.2) := by
  rw [parts?]
  simp only [h, Option.bind_eq_bind, Option.bind_some]
  cases parts? rest <;> rfl

/-- An escaped character is read as one part, which stands for it. -/
theorem exists_parts?_escape (c : Char) :
    ∃ p, Stands p c ∧ ∀ rest, parts? (escape c ++ rest) =
      (parts? rest).map fun q => (p :: q.1, q.2) := by
  by_cases hcode : c.toNat < 0x20 ∧ escape c =
      ['\\', 'u', '0', '0', hexDigit (c.toNat / 16), hexDigit c.toNat]
  · -- a control character without a letter of its own is written by its code
    obtain ⟨hcontrol, hescape⟩ := hcode
    refine ⟨.code c.toNat, ?_, fun rest => ?_⟩
    · have hstands := stands_code hcontrol
      rwa [Char.ofNat_toNat] at hstands
    · rw [hescape]
      exact parts?_code (hexCode?_hexDigit _ hcontrol) rest
  · -- any other one is written with a letter or as it is
    refine ⟨.char c, stands_char c, fun rest => ?_⟩
    unfold escape at hcode ⊢
    split_ifs at hcode ⊢ with hquote hslash hb hf hn hr ht hcontrol
    all_goals try subst c
    · exact parts?_letter rfl (by decide) rest
    · exact parts?_letter rfl (by decide) rest
    · exact parts?_letter rfl (by decide) rest
    · exact parts?_letter rfl (by decide) rest
    · exact parts?_letter rfl (by decide) rest
    · exact parts?_letter rfl (by decide) rest
    · exact parts?_letter rfl (by decide) rest
    · exact absurd ⟨hcontrol, rfl⟩ hcode
    · exact parts?_cons hquote hslash (by omega) rest

/-- The escaped characters of a string are read up to the quote: by induction on them. -/
theorem exists_parts? (cs rest : List Char) :
    ∃ ps, parts? (cs.flatMap escape ++ '"' :: rest) = some (ps, rest) ∧ chars? ps = some cs := by
  induction cs with
  | nil => exact ⟨[], by rw [List.flatMap_nil, List.nil_append, parts?], rfl⟩
  | cons c cs ih =>
    obtain ⟨ps, hps, hcs⟩ := ih
    obtain ⟨p, hp, hparts⟩ := exists_parts?_escape c
    refine ⟨p :: ps, ?_, ?_⟩
    · rw [List.flatMap_cons, List.append_assoc, hparts, hps]
      rfl
    · rw [hp, hcs]
      rfl

/-- An escaped string is scanned up to its closing quote. -/
theorem scanString_escape (s : String) (rest : List Char) :
    scanString (s.toList.flatMap escape ++ '"' :: rest) = (string s, rest) := by
  obtain ⟨ps, hps, hcs⟩ := exists_parts? s.toList rest
  rw [scanString, hps]
  dsimp only
  rw [hcs]
  dsimp only
  rw [String.ofList_toList]

/-! ## Numbers -/

/-- Whether a number ends where this follows: it does not start with what could continue a number. -/
def EndsNumber (rest : List Char) : Prop :=
  ∀ c ∈ rest.head?, c.isDigit = false ∧ c ≠ '.' ∧ c ≠ 'e' ∧ c ≠ 'E'

/-- Digits are taken up to the end of the number. -/
theorem digits_append {ds rest : List Char} (hds : ∀ c ∈ ds, c.isDigit = true)
    (hrest : EndsNumber rest) : digits (ds ++ rest) = (ds, rest) := by
  have htail : rest.takeWhile Char.isDigit = [] ∧ rest.dropWhile Char.isDigit = rest := by
    cases rest with
    | nil => exact ⟨rfl, rfl⟩
    | cons c rest =>
      have hc := (hrest c rfl).1
      exact ⟨List.takeWhile_cons_of_neg (by simp [hc]), List.dropWhile_cons_of_neg (by simp [hc])⟩
  rw [digits, List.span_eq_takeWhile_dropWhile, List.takeWhile_append_of_pos hds,
    List.dropWhile_append_of_pos hds, htail.1, htail.2, List.append_nil]

/-- Where a number ends there is no fraction. -/
theorem fraction?_of_endsNumber {rest : List Char} (h : EndsNumber rest) :
    fraction? rest = some ([], rest) := by
  unfold fraction?
  split
  · exact absurd rfl (h _ rfl).2.1
  · rfl

/-- Where a number ends there is no exponent. -/
theorem exponent?_of_endsNumber {rest : List Char} (h : EndsNumber rest) :
    exponent? rest = some (none, rest) := by
  unfold exponent?
  dsimp only
  split
  · exact absurd rfl (h _ rfl).2.2.1
  · exact absurd rfl (h _ rfl).2.2.2
  · rfl

/-- The spelling of a number that is written in digits. -/
theorem numeral?_digitText (negative : Bool) (n : Nat) {rest : List Char} (hrest : EndsNumber rest) :
    numeral? negative (Decimal.digitText n ++ rest) =
      some (⟨negative, Decimal.digitText n, [], none⟩, rest) := by
  have hdigits := digits_append (fun c hc => Decimal.isDigit_of_mem_digitText (n := n) hc) hrest
  have hlead : ¬(1 < (Decimal.digitText n).length ∧ (Decimal.digitText n).head? = some '0') := by
    rintro ⟨hlength, hhead⟩
    by_cases hn : n = 0
    · rw [hn, Decimal.length_digitText_zero] at hlength
      exact absurd hlength (Nat.lt_irrefl 1)
    · exact Decimal.head?_digitText_ne hn hhead
  unfold numeral?
  rw [hdigits]
  split
  · next heq => exact absurd (congrArg Prod.fst heq) (Decimal.digitText_ne_nil n)
  · next whole rest' heq =>
    obtain ⟨rfl, rfl⟩ := Prod.mk.inj heq
    rw [if_neg hlead, fraction?_of_endsNumber hrest]
    simp only [Option.bind_eq_bind, Option.bind_some, exponent?_of_endsNumber hrest]
    rfl

/-- All digits of a number are kept that is small enough: by induction on them. -/
theorem takeDigits_eq {cs : List Char} {s : Nat} (h : Nat.ofDigitChars 10 cs s ≤ significandLimit) :
    takeDigits s cs = (Nat.ofDigitChars 10 cs s, cs.length) := by
  induction cs generalizing s with
  | nil => rw [takeDigits, Nat.ofDigitChars_nil]; rfl
  | cons c cs ih =>
    have hnext : 10 * s + (c.toNat - '0'.toNat) = s * 10 + digitValue c := by
      rw [Nat.mul_comm]
      rfl
    rw [Nat.ofDigitChars_cons, hnext] at h ⊢
    -- the digits that follow make the number no smaller
    have hle : s * 10 + digitValue c ≤ Nat.ofDigitChars 10 cs (s * 10 + digitValue c) := by
      rw [Nat.ofDigitChars_eq_ofDigitChars_zero]
      have hpos : 1 ≤ 10 ^ cs.length := Nat.one_le_pow _ _ (by decide)
      exact Nat.le_trans (Nat.le_mul_of_pos_left _ hpos) (Nat.le_add_right _ _)
    rw [takeDigits]
    dsimp only
    rw [if_pos (Nat.le_trans hle h), ih h, List.length_cons]

/-- The digits of a word are taken as that word. -/
theorem takeDigits_digitText {n : Nat} (h : n < 2 ^ 64) :
    takeDigits 0 (Decimal.digitText n) = (n, (Decimal.digitText n).length) := by
  have hvalue := Decimal.ofDigitChars_digitText n
  rw [takeDigits_eq, hvalue]
  rw [hvalue]
  exact Nat.le_sub_one_of_lt h

/-- A natural number is found again. -/
theorem scanNumber_nat {n : Nat} (h : n < 2 ^ 64) {rest : List Char} (hrest : EndsNumber rest) :
    scanNumber false (Decimal.digitText n ++ rest) = (number (.int n), rest) := by
  rw [scanNumber, numeral?_digitText false n hrest]
  simp only [Numeral.number?, takeDigits_digitText h, and_self, if_true, Bool.false_eq_true, if_false]

/-- A negative number is found again after its sign. -/
theorem scanNumber_neg {n : Nat} (hpos : n ≠ 0) (h : n ≤ 2 ^ 63) {rest : List Char}
    (hrest : EndsNumber rest) :
    scanNumber true (Decimal.digitText n ++ rest) = (number (.int (-n)), rest) := by
  have hlt : n < 2 ^ 64 := by omega
  have hkept : ¬(n = 0 ∨ UInt64.size / 2 < n) := by
    rw [show UInt64.size / 2 = 2 ^ 63 from rfl]
    omega
  rw [scanNumber, numeral?_digitText true n hrest]
  simp only [Numeral.number?, takeDigits_digitText hlt, and_self, if_true, if_neg hkept]

/-- What starts with a digit is a number. -/
theorem scanOne_of_isDigit {c : Char} (h : c.isDigit = true) (cs : List Char) :
    scanOne (c :: cs) = scanNumber false (c :: cs) := by
  unfold scanOne
  split
  all_goals first
    | rfl
    | (rename_i heq; obtain ⟨rfl, -⟩ := List.cons.inj heq; exact absurd h (by decide))

/-! ## One token -/

/-- Whether a token is found again in its text: its numbers are integers of 64 bits, and it is none of
those that stand for a fault. -/
def Legible : Token → Prop
  | number (.int n) => -2 ^ 63 ≤ n ∧ n < 2 ^ 64
  | number (.float _) => False
  | vastNumber => False
  | brokenString => False
  | malformed => False
  | _ => True

/-- Whether a token is a number. -/
def isNumber : Token → Bool
  | number _ => true
  | _ => false

/-- An integer of 64 bits is scanned as its token. -/
theorem scanOne_integerText {n : Int} (hlow : -2 ^ 63 ≤ n) (hhigh : n < 2 ^ 64) {rest : List Char}
    (hrest : EndsNumber rest) : scanOne (integerText n ++ rest) = (number (.int n), rest) := by
  by_cases hneg : n < 0
  · have hscan := scanNumber_neg (n := n.natAbs) (by omega) (by omega) hrest
    rw [integerText, if_pos hneg]
    refine hscan.trans ?_
    rw [show -(n.natAbs : Int) = n by omega]
  · have hscan := scanNumber_nat (n := n.natAbs) (by omega) hrest
    rw [integerText, if_neg hneg]
    obtain ⟨c, cs, hcs⟩ := List.exists_cons_of_ne_nil (Decimal.digitText_ne_nil n.natAbs)
    have hc : c.isDigit = true := Decimal.isDigit_of_mem_digitText (hcs ▸ List.mem_cons_self)
    rw [hcs] at hscan ⊢
    refine (scanOne_of_isDigit hc (cs ++ rest)).trans (hscan.trans ?_)
    rw [show (n.natAbs : Int) = n by omega]

/-- A token is found again in front of anything that cannot continue it. -/
theorem scanOne_text {t : Token} (ht : t.Legible) {rest : List Char}
    (hrest : t.isNumber = true → EndsNumber rest) : scanOne (t.text ++ rest) = (t, rest) := by
  cases t with
  | number n =>
    cases n with
    | int n => exact scanOne_integerText ht.1 ht.2 (hrest rfl)
    | float x => exact ht.elim
  | string s =>
    have hquote : quote s ++ rest = '"' :: (s.toList.flatMap escape ++ '"' :: rest) := by
      rw [quote, List.cons_append, List.cons_append, List.append_assoc]
      rfl
    rw [text, hquote]
    exact scanString_escape s rest
  | bool b => cases b <;> rfl
  | vastNumber | brokenString | malformed => exact ht.elim
  | leftBrace | rightBrace | leftBracket | rightBracket | comma | colon | null => rfl

/-- The text of a token starts with a character that is no blank, and continues no number unless it is
a number itself. -/
theorem exists_text_eq_cons {t : Token} (ht : t.Legible) :
    ∃ c cs, t.text = c :: cs ∧ isBlank c = false ∧
      (t.isNumber = false → c.isDigit = false ∧ c ≠ '.' ∧ c ≠ 'e' ∧ c ≠ 'E') := by
  cases t with
  | number n =>
    cases n with
    | int n =>
      by_cases hneg : n < 0
      · exact ⟨'-', Decimal.digitText n.natAbs, if_pos hneg, by decide, nofun⟩
      · obtain ⟨c, cs, hcs⟩ := List.exists_cons_of_ne_nil (Decimal.digitText_ne_nil n.natAbs)
        have hc : c.isDigit = true := Decimal.isDigit_of_mem_digitText (hcs ▸ List.mem_cons_self)
        refine ⟨c, cs, (if_neg hneg).trans hcs, ?_, nofun⟩
        refine Bool.eq_false_iff.2 fun hblank => ?_
        simp only [isBlank, Bool.or_eq_true, decide_eq_true_eq] at hblank
        rcases hblank with ((rfl | rfl) | rfl) | rfl <;> exact absurd hc (by decide)
    | float x => exact ht.elim
  | string s => exact ⟨'"', _, rfl, by decide, fun _ => by decide⟩
  | bool b => cases b <;> exact ⟨_, _, rfl, by decide, fun _ => by decide⟩
  | vastNumber | brokenString | malformed => exact ht.elim
  | leftBrace | rightBrace | leftBracket | rightBracket | comma | colon | null =>
    exact ⟨_, _, rfl, by decide, fun _ => by decide⟩

/-! ## All tokens -/

/-- Whether no two numbers stand side by side. -/
def Apart (ts : List Token) : Prop :=
  ts.IsChain fun t u => ¬(t.isNumber = true ∧ u.isNumber = true)

/-- A token that is no number keeps the others apart. -/
theorem apart_cons {t : Token} {ts : List Token} (ht : t.isNumber = false) :
    Apart (t :: ts) ↔ Apart ts := by
  rw [Apart, List.isChain_cons, Apart]
  simp [ht]

/-- Whether tokens are found again in their text. -/
structure Scannable (ts : List Token) : Prop where
  legible : ∀ t ∈ ts, t.Legible
  apart : Apart ts

theorem scannable_nil : Scannable [] := ⟨nofun, .nil⟩

/-- A legible token that is no number may stand in front. -/
theorem Scannable.cons {t : Token} {ts : List Token} (h : Scannable ts) (ht : t.Legible)
    (hnumber : t.isNumber = false) : Scannable (t :: ts) :=
  ⟨List.forall_mem_cons.2 ⟨ht, h.legible⟩, (apart_cons hnumber).2 h.apart⟩

/-- A key and its colon do no harm. -/
theorem Scannable.field {ts : List Token} (h : Scannable ts) (key : String) :
    Scannable (.string key :: .colon :: ts) := by
  have hcolon : Scannable (.colon :: ts) := h.cons trivial rfl
  exact hcolon.cons trivial rfl

/-- Without their first the tokens are still found again. -/
theorem Scannable.tail {t : Token} {ts : List Token} (h : Scannable (t :: ts)) : Scannable ts :=
  ⟨(List.forall_mem_cons.1 h.legible).2, h.apart.tail⟩

/-- A number ends where another token follows. -/
theorem Scannable.endsNumber {t : Token} {ts : List Token} (h : Scannable (t :: ts))
    (ht : t.isNumber = true) : EndsNumber (ts.flatMap text) := by
  cases ts with
  | nil => exact nofun
  | cons u ts =>
    have hu : u.isNumber = false := by
      have hpair := (List.isChain_cons_cons.1 h.apart).1
      simpa [ht] using hpair
    obtain ⟨c, cs, htext, -, hends⟩ :=
      exists_text_eq_cons (h.tail.legible u List.mem_cons_self)
    intro c' hc'
    rw [List.flatMap_cons, htext, List.cons_append, List.head?_cons] at hc'
    obtain rfl := Option.some.inj hc'
    exact hends hu

/-- The text of tokens is scanned into them: by induction on the tokens. -/
theorem Scannable.scanFrom_eq {ts : List Token} (h : Scannable ts) {fuel : Nat}
    (hfuel : (ts.flatMap text).length < fuel) : scanFrom fuel (ts.flatMap text) = ts := by
  induction ts generalizing fuel with
  | nil => cases fuel <;> rfl
  | cons t ts ih =>
    have ht := h.legible t List.mem_cons_self
    obtain ⟨c, cs, htext, hblank, -⟩ := exists_text_eq_cons ht
    -- the first token is scanned in front of the others, as it ends where they start
    have hscan := scanOne_text ht h.endsNumber
    rw [List.flatMap_cons, htext, List.cons_append] at hfuel ⊢
    rw [htext, List.cons_append] at hscan
    cases fuel with
    | zero => exact absurd hfuel (Nat.not_lt_zero _)
    | succ fuel =>
      have hless : (ts.flatMap text).length < fuel := by
        simp only [List.length_cons, List.length_append] at hfuel
        omega
      rw [scanFrom, List.dropWhile_cons_of_neg (by simp [hblank])]
      dsimp only
      rw [hscan]
      split
      · next heq =>
        -- a legible token is not the one for a broken text
        obtain ⟨rfl, -⟩ := Prod.mk.inj heq
        exact ht.elim
      · next t' rest hne heq =>
        obtain ⟨rfl, rfl⟩ := Prod.mk.inj heq
        rw [ih h.tail hless]

/-- Whether the tokens do not start with a number. -/
def NoNumber (ts : List Token) : Prop :=
  ∀ t ∈ ts.head?, t.isNumber = false

end Token

/-! ## Values -/

open Token

/-- What follows an item does not start with a number. -/
theorem noNumber_itemTokens (l : List Json) (rest : List Token) : NoNumber (itemTokens l ++ rest) := by
  intro t ht
  cases l with
  | nil | cons j l =>
    obtain rfl := Option.some.inj ht
    rfl

/-- What follows a member does not start with a number. -/
theorem noNumber_fieldTokens (l : List (String × Json)) (rest : List Token) :
    NoNumber (fieldTokens l ++ rest) := by
  intro t ht
  cases l with
  | nil | cons e l =>
    obtain rfl := Option.some.inj ht
    rfl

/-- Further items are found again if each of them is. -/
theorem scannable_itemTokens {l : List Json} {rest : List Token}
    (hl : ∀ j ∈ l, ∀ {rest}, Scannable rest → NoNumber rest → Scannable (j.tokens ++ rest))
    (hrest : Scannable rest) : Scannable (itemTokens l ++ rest) := by
  induction l with
  | nil => exact hrest.cons trivial rfl
  | cons j l ih =>
    obtain ⟨hj, hl⟩ := List.forall_mem_cons.1 hl
    rw [itemTokens, List.cons_append, List.append_assoc]
    exact (hj (ih hl) (noNumber_itemTokens l rest)).cons trivial rfl

/-- Further fields are found again if the value of each of them is. -/
theorem scannable_fieldTokens {l : List (String × Json)} {rest : List Token}
    (hl : ∀ e ∈ l, ∀ {rest}, Scannable rest → NoNumber rest → Scannable (e.2.tokens ++ rest))
    (hrest : Scannable rest) : Scannable (fieldTokens l ++ rest) := by
  induction l with
  | nil => exact hrest.cons trivial rfl
  | cons e l ih =>
    obtain ⟨he, hl⟩ := List.forall_mem_cons.1 hl
    rw [fieldTokens, List.cons_append, List.cons_append, List.cons_append, List.append_assoc]
    exact ((he (ih hl) (noNumber_fieldTokens l rest)).field e.1).cons trivial rfl

/-- The tokens of a value are found again in front of what does not start with a number. -/
theorem Integral.scannable {j : Json} (hj : j.Integral) {rest : List Token} (hrest : Scannable rest)
    (hnumber : NoNumber rest) : Scannable (j.tokens ++ rest) := by
  induction hj generalizing rest with
  | null | bool b | string s => exact hrest.cons trivial rfl
  | number hlow hhigh =>
    refine ⟨List.forall_mem_cons.2 ⟨⟨hlow, hhigh⟩, hrest.legible⟩, ?_⟩
    -- two numbers would run together, but none follows
    refine List.isChain_cons.2 ⟨fun u hu hboth => ?_, hrest.apart⟩
    rw [hnumber u hu] at hboth
    exact absurd hboth.2 Bool.false_ne_true
  | @array items _ ih =>
    cases items with
    | nil =>
      have hclose : Scannable (.rightBracket :: rest) := hrest.cons trivial rfl
      exact hclose.cons trivial rfl
    | cons j l =>
      obtain ⟨hj, hl⟩ := List.forall_mem_cons.1 ih
      rw [tokens, List.cons_append, List.append_assoc]
      exact (hj (scannable_itemTokens hl hrest) (noNumber_itemTokens l rest)).cons trivial rfl
  | @object fields _ ih =>
    cases fields with
    | nil =>
      have hclose : Scannable (.rightBrace :: rest) := hrest.cons trivial rfl
      exact hclose.cons trivial rfl
    | cons e l =>
      obtain ⟨he, hl⟩ := List.forall_mem_cons.1 ih
      rw [tokens, List.cons_append, List.cons_append, List.cons_append, List.append_assoc]
      have hvalue := he (scannable_fieldTokens hl hrest) (noNumber_fieldTokens l rest)
      exact (hvalue.field e.1).cons trivial rfl

/-- **A written text is scanned into its tokens**, if all its numbers are integers of 64 bits. -/
theorem Integral.scan_text {j : Json} (hj : j.Integral) : Token.scan j.text = j.tokens := by
  have hscannable := hj.scannable scannable_nil nofun
  rw [List.append_nil] at hscannable
  rw [Token.scan, text, String.toList_ofList]
  exact hscannable.scanFrom_eq (Nat.lt_succ_self _)

end PushMesh.Json
