import Mathlib.Tactic.Lemma
import WorkQueue.Text.Numeral

/-!
# Numerals are read back

`IsNumeral digits n` says that some characters are decimal digits that stand for `n`.  The decimal
digits of a number are such, also with zeros in front, and whoever takes the digits off the head of
a text gets their number and what follows them (`takeDigits_append`).  No numeral but that of zero
begins with a zero.  A number is read against a limit from its digits, if it is below the limit
(`readNat_numeral`), and what is read that way is a numeral of the number, with a plus sign in front
or without one (`readNat_ok_iff`).
-/

namespace WorkQueue.Text

variable {c : Char} {digits rest : List Char} {n : Nat}

/-! ## Digits -/

lemma digitValue?_eq (c : Char) :
    digitValue? c = if c.isDigit then some (c.toNat - 48) else none := rfl

lemma digitValue?_of_isDigit (h : c.isDigit = true) : digitValue? c = some (c.toNat - 48) := by
  rw [digitValue?_eq, if_pos h]

lemma isSome_digitValue? (c : Char) : (digitValue? c).isSome = c.isDigit := by
  rw [digitValue?_eq]
  cases c.isDigit <;> rfl

/-- Whether a text does not go on with a digit. -/
def StopsDigits (rest : List Char) : Prop :=
  ∀ c, rest.head? = some c → c.isDigit = false

lemma stopsDigits_cons (hc : c.isDigit = false) (rest : List Char) : StopsDigits (c :: rest) := by
  intro first hfirst
  cases hfirst
  exact hc

/-- Whether some characters are digits that stand for a number. -/
structure IsNumeral (digits : List Char) (n : Nat) : Prop where
  isDigit : ∀ c ∈ digits, c.isDigit = true
  value : Nat.ofDigitChars 10 digits 0 = n

lemma isNumeral_toDigits (n : Nat) : IsNumeral (Nat.toDigits 10 n) n where
  isDigit _ hc := Nat.isDigit_of_mem_toDigits (by decide) (by decide) hc
  value := Nat.ofDigitChars_ten_toDigits

/-- Zeros in front of a numeral change nothing. -/
lemma IsNumeral.padded (h : IsNumeral digits n) (count : Nat) :
    IsNumeral (List.replicate count '0' ++ digits) n where
  isDigit c hc := by
    rcases List.mem_append.mp hc with hzero | hdigit
    · rw [List.eq_of_mem_replicate hzero]
      rfl
    · exact h.isDigit c hdigit
  value := by
    rw [Nat.ofDigitChars_append, Nat.ofDigitChars_replicate_zero, Nat.mul_zero, h.value]

/-- A numeral that begins with a zero is that of zero, or was padded. -/
lemma head?_toDigits (h : (Nat.toDigits 10 n).head? = some '0') : n = 0 := by
  induction n using Nat.strongRecOn with
  | ind n ih =>
    by_cases hsmall : n < 10
    · rw [Nat.toDigits_of_lt_base hsmall] at h
      have hdigit : n.digitChar = '0' := Option.some.inj h
      have hcode := congrArg Char.toNat hdigit
      rw [Nat.toNat_digitChar_of_lt_ten hsmall] at hcode
      have hzero : '0'.toNat = 48 := rfl
      omega
    · have hten : 10 ≤ n := by omega
      rw [Nat.toDigits_of_base_le (by decide) hten, List.head?_append,
        Option.or_of_isSome (by simp [Nat.toDigits_ne_nil])] at h
      have hquotient := ih (n / 10) (by omega) h
      omega

/-! ## Taking digits off a text -/

lemma takeWhile_digits (h : ∀ c ∈ digits, c.isDigit = true) (hrest : StopsDigits rest) :
    (digits ++ rest).takeWhile (fun c => (digitValue? c).isSome) = digits := by
  simp only [isSome_digitValue?]
  rw [List.takeWhile_append_of_pos h]
  cases rest with
  | nil => simp
  | cons c more => rw [List.takeWhile_cons_of_neg (by simp [hrest c rfl]), List.append_nil]

lemma foldl_digitValue? (h : ∀ c ∈ digits, c.isDigit = true) (start : Nat) :
    digits.foldl (fun n c => n * 10 + (digitValue? c).getD 0) start =
      Nat.ofDigitChars 10 digits start := by
  induction digits generalizing start with
  | nil => rfl
  | cons c more ih =>
    obtain ⟨hc, hmore⟩ := List.forall_mem_cons.mp h
    rw [List.foldl_cons, ih hmore, Nat.ofDigitChars_cons, digitValue?_of_isDigit hc,
      Option.getD_some, Nat.mul_comm]
    rfl

/-- Taking the digits off a text gives the number of its numeral and what follows. -/
theorem takeDigits_append (h : IsNumeral digits n) (hrest : StopsDigits rest) :
    takeDigits (digits ++ rest) = (n, digits.length, rest) := by
  unfold takeDigits
  simp only [takeWhile_digits h.isDigit hrest, foldl_digitValue? h.isDigit, h.value,
    List.drop_left]

/-! ## Reading a numeral against a limit -/

lemma readDigits_lt {bound value : Nat} (h : readDigits bound value digits = .ok n)
    (hvalue : value < bound) : n < bound := by
  induction digits generalizing value with
  | nil =>
    cases h
    exact hvalue
  | cons c rest ih =>
    unfold readDigits at h
    split at h
    · cases h
    · split at h
      · next hsmall => exact ih h hsmall
      · cases h

/-- A number that is read is below the limit. -/
lemma readNat_lt {bound : Nat} (hbound : 0 < bound) (h : readNat bound digits = .ok n) :
    n < bound := by
  unfold readNat at h
  split at h
  · cases h
  · cases h
  · cases h
  · exact readDigits_lt h hbound
  · exact readDigits_lt h hbound

lemma le_ofDigitChars (digits : List Char) (start : Nat) :
    start ≤ Nat.ofDigitChars 10 digits start := by
  induction digits generalizing start with
  | nil => exact Nat.le_refl _
  | cons c rest ih =>
    rw [Nat.ofDigitChars_cons]
    exact Nat.le_trans (by omega) (ih _)

lemma readDigits_eq {bound start : Nat} (h : ∀ c ∈ digits, c.isDigit = true)
    (hlt : Nat.ofDigitChars 10 digits start < bound) :
    readDigits bound start digits = .ok (Nat.ofDigitChars 10 digits start) := by
  induction digits generalizing start with
  | nil => rfl
  | cons c rest ih =>
    obtain ⟨hc, hrest⟩ := List.forall_mem_cons.mp h
    rw [Nat.ofDigitChars_cons] at hlt ⊢
    have hvalue : start * 10 + (c.toNat - 48) = 10 * start + (c.toNat - '0'.toNat) := by
      rw [Nat.mul_comm]
      rfl
    have hsmall := Nat.lt_of_le_of_lt (le_ofDigitChars rest _) hlt
    simp only [readDigits, digitValue?_of_isDigit hc, hvalue, if_pos hsmall]
    exact ih hrest hlt

/-- The digits of a number below the limit are read as the number. -/
theorem readNat_numeral {bound : Nat} (h : IsNumeral digits n) (hne : digits ≠ [])
    (hlt : n < bound) : readNat bound digits = .ok n := by
  have hread : readDigits bound 0 digits = .ok n := by
    rw [← h.value] at hlt ⊢
    exact readDigits_eq h.isDigit hlt
  unfold readNat
  split
  · exact absurd rfl hne
  · exact absurd (h.isDigit '+' List.mem_cons_self) (by decide)
  · exact absurd (h.isDigit '-' List.mem_cons_self) (by decide)
  · exact absurd (h.isDigit '+' List.mem_cons_self) (by decide)
  · exact hread

/-- A text that a field takes as a number: decimal digits, at least one of them, that stand for a
number below the limit of the field. -/
inductive FieldNumeral (bound n : Nat) : List Char → Prop
  /-- The digits stand alone. -/
  | plain {numeral : List Char} (hnumeral : IsNumeral numeral n) (hne : numeral ≠ [])
      (hlt : n < bound) : FieldNumeral bound n numeral
  /-- There is a plus sign in front of them. -/
  | signed {numeral : List Char} (hnumeral : IsNumeral numeral n) (hne : numeral ≠ [])
      (hlt : n < bound) : FieldNumeral bound n ('+' :: numeral)

lemma fieldNumeral_toDigits {bound : Nat} (h : n < bound) :
    FieldNumeral bound n (Nat.toDigits 10 n) :=
  .plain (isNumeral_toDigits n) Nat.toDigits_ne_nil h

/-- A numeral for a field is written in digits and a plus sign alone. -/
lemma FieldNumeral.mem {bound : Nat} {text : List Char} (h : FieldNumeral bound n text)
    (hc : c ∈ text) : c.isDigit = true ∨ c = '+' := by
  cases h with
  | plain hnumeral => exact .inl (hnumeral.isDigit c hc)
  | signed hnumeral =>
    rcases List.mem_cons.mp hc with hplus | hdigit
    · exact .inr hplus
    · exact .inl (hnumeral.isDigit c hdigit)

/-- Digits that are read onto a number are digits, and the limit holds at the end. -/
lemma readDigits_ok {bound start : Nat} (h : readDigits bound start digits = .ok n) :
    (∀ c ∈ digits, c.isDigit = true) ∧ Nat.ofDigitChars 10 digits start = n := by
  induction digits generalizing start with
  | nil =>
    cases h
    exact ⟨fun _ hc => absurd hc List.not_mem_nil, rfl⟩
  | cons c rest ih =>
    rw [readDigits, digitValue?_eq] at h
    cases hc : c.isDigit with
    | false =>
      rw [hc] at h
      cases h
    | true =>
      simp only [hc, if_true] at h
      split at h
      · obtain ⟨hrest, hvalue⟩ := ih h
        have hnext : start * 10 + (c.toNat - 48) = 10 * start + (c.toNat - '0'.toNat) := by
          rw [Nat.mul_comm]
          rfl
        rw [hnext] at hvalue
        exact ⟨List.forall_mem_cons.mpr ⟨hc, hrest⟩, by rw [Nat.ofDigitChars_cons, hvalue]⟩
      · cases h

/-- **A text is read as a number below a limit just if it is a numeral of it.** -/
theorem readNat_ok_iff {bound : Nat} (hbound : 0 < bound) {text : List Char} :
    readNat bound text = .ok n ↔ FieldNumeral bound n text := by
  constructor
  · intro h
    have hlt : n < bound := readNat_lt hbound h
    unfold readNat at h
    split at h
    · cases h
    · cases h
    · cases h
    · next hne =>
      obtain ⟨hdigits, hvalue⟩ := readDigits_ok h
      exact .signed ⟨hdigits, hvalue⟩ hne hlt
    · next hne _ _ _ =>
      obtain ⟨hdigits, hvalue⟩ := readDigits_ok h
      exact .plain ⟨hdigits, hvalue⟩ hne hlt
  · intro h
    cases h with
    | plain hnumeral hne hlt => exact readNat_numeral hnumeral hne hlt
    | signed hnumeral hne hlt =>
      obtain ⟨first, more, rfl⟩ := List.exists_cons_of_ne_nil hne
      have hread : readDigits bound 0 (first :: more) = .ok n := by
        rw [← hnumeral.value] at hlt ⊢
        exact readDigits_eq hnumeral.isDigit hlt
      exact hread

end WorkQueue.Text
