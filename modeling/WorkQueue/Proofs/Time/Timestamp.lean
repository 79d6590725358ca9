import WorkQueue.Proofs.Text.Numeral
import WorkQueue.Proofs.Time.Calendar
import WorkQueue.Proofs.Time.Instant
import WorkQueue.Time.Timestamp

/-!
# Timestamps are read back

The timestamp of an instant that does not lie in a leap second is read as this instant
(`read_write`).  Reading is lenient with blanks, short fields and offsets, so that the point is that
it goes on where a part that was written ends: after a fixed number of digits, and where the number
of digits varies, in a year of five digits or more, before a mark.
-/

namespace WorkQueue.Timestamp

open WorkQueue.Text WorkQueue.Calendar

variable {c : Char} {digits rest : List Char} {n width : Nat}

/-! ## Numbers -/

lemma isNumeral_padded (width n : Nat) : IsNumeral (padded width n) n :=
  (isNumeral_toDigits n).padded _

lemma length_padded (hwidth : 0 < width) (h : n < 10 ^ width) :
    (padded width n).length = width := by
  have hlength := (Nat.length_toDigits_le_iff (by decide) hwidth).mpr h
  simp only [padded, List.length_append, List.length_replicate]
  omega

lemma padded_ne_nil (width n : Nat) : padded width n ≠ [] := by
  simp [padded, Nat.toDigits_ne_nil]

lemma not_isBlank_of_isDigit (h : c.isDigit = true) : isBlank c = false := by
  simp only [Char.isDigit, Bool.and_eq_true, decide_eq_true_eq] at h
  have hlow : 48 ≤ c.toNat := h.1
  have hhigh : c.toNat ≤ 57 := h.2
  simp only [isBlank, Bool.or_eq_false_iff, Bool.and_eq_false_iff, decide_eq_false_iff_not,
    beq_eq_false_iff_ne]
  omega

lemma trimStart_cons (h : isBlank c = false) (rest : List Char) :
    trimStart (c :: rest) = c :: rest :=
  List.dropWhile_cons_of_neg (by simp [h])

/-- A numeral begins with a digit, so that there is nothing to trim before it. -/
lemma trimStart_numeral (h : IsNumeral digits n) (hne : digits ≠ []) (rest : List Char) :
    trimStart (digits ++ rest) = digits ++ rest := by
  obtain ⟨c, more, rfl⟩ := List.exists_cons_of_ne_nil hne
  exact trimStart_cons (not_isBlank_of_isDigit (h.isDigit c List.mem_cons_self)) _

/-- A number is read up to the greatest count of its digits. -/
lemma number_of_length (h : IsNumeral digits n) (hne : digits ≠ []) (rest : List Char) :
    number digits.length (digits ++ rest) = some (n, rest) := by
  have hstops : StopsDigits [] := fun c hc => by cases hc
  have htake := takeDigits_append h hstops
  rw [List.append_nil] at htake
  have hcount : digits.length ≠ 0 := fun hzero => hne (List.eq_nil_of_length_eq_zero hzero)
  simp only [number, List.take_left, htake, if_neg hcount, List.drop_left]

/-- Without a greatest count a number is read up to what is no digit. -/
lemma number_of_stops (h : IsNumeral digits n) (hne : digits ≠ []) (hrest : StopsDigits rest) :
    number (digits ++ rest).length (digits ++ rest) = some (n, rest) := by
  have hcount : digits.length ≠ 0 := fun hzero => hne (List.eq_nil_of_length_eq_zero hzero)
  simp only [number, List.take_length, takeDigits_append h hrest, if_neg hcount, List.drop_left]

lemma number_padded (hwidth : 0 < width) (h : n < 10 ^ width) (rest : List Char) :
    number width (padded width n ++ rest) = some (n, rest) := by
  have hnumber := number_of_length (isNumeral_padded width n) (padded_ne_nil width n) rest
  rwa [length_padded hwidth h] at hnumber

/-! ## Parts of a timestamp -/

lemma field_padded {low high : Nat} (hlow : low ≤ n) (hhigh : n ≤ high) (hn : n < 100)
    (rest : List Char) : field low high (padded 2 n ++ rest) = some (n, rest) := by
  have htrim := trimStart_numeral (isNumeral_padded 2 n) (padded_ne_nil 2 n) rest
  have hnumber : number 2 (padded 2 n ++ rest) = some (n, rest) :=
    number_padded (by decide) hn rest
  simp [field, htrim, hnumber, hlow, hhigh]

lemma mark_cons (h : isBlank c = false) (rest : List Char) : mark c (c :: rest) = some rest := by
  simp [mark, trimStart_cons h]

/-- Digits without a sign are a year of four digits. -/
lemma readYear_numeral (h : IsNumeral digits n) (hne : digits ≠ []) (rest : List Char) :
    readYear (digits ++ rest) =
      (number 4 (digits ++ rest)).map fun read => ((read.1 : Int), read.2) := by
  obtain ⟨c, more, rfl⟩ := List.exists_cons_of_ne_nil hne
  have hdigit := h.isDigit c List.mem_cons_self
  unfold readYear
  rw [trimStart_numeral h hne]
  split
  · next hminus =>
    cases hminus
    exact absurd hdigit (by decide)
  · next hplus =>
    cases hplus
    exact absurd hdigit (by decide)
  · rfl

/-- A year is read up to the mark behind it. -/
lemma readYear_write (year : Int) (rest : List Char) :
    readYear (writeYear year ++ '-' :: rest) = some (year, '-' :: rest) := by
  have hstops : StopsDigits ('-' :: rest) := stopsDigits_cons rfl rest
  by_cases hplain : 0 ≤ year ∧ year ≤ 9999
  · have hsmall : year.toNat < 10 ^ 4 := by omega
    have hback : (year.toNat : Int) = year := by omega
    have hnumeral := isNumeral_padded 4 year.toNat
    have hne := padded_ne_nil 4 year.toNat
    have hnumber := number_padded (by decide) hsmall ('-' :: rest)
    rw [writeYear, if_pos hplain, readYear_numeral hnumeral hne, hnumber, Option.map_some, hback]
  · have hnumeral := isNumeral_padded 4 year.natAbs
    have hne := padded_ne_nil 4 year.natAbs
    have hnumber := number_of_stops hnumeral hne hstops
    by_cases hnegative : year < 0
    · have hback : -(year.natAbs : Int) = year := by omega
      have htrim := trimStart_cons (c := '-') rfl (padded 4 year.natAbs ++ '-' :: rest)
      simp only [writeYear, if_neg hplain, if_pos hnegative, List.cons_append, readYear, htrim,
        hnumber, Option.map_some, hback]
    · have hback : (year.natAbs : Int) = year := by omega
      have htrim := trimStart_cons (c := '+') rfl (padded 4 year.natAbs ++ '-' :: rest)
      simp only [writeYear, if_neg hplain, if_neg hnegative, List.cons_append, readYear, htrim,
        hnumber, Option.map_some, hback]

/-- A date that exists is read up to the mark of the time. -/
lemma readDate_write {date : Date} (hyear : -262143 ≤ date.year ∧ date.year ≤ 262142)
    (hmonth : 1 ≤ date.month ∧ date.month ≤ 12)
    (hday : 1 ≤ date.day ∧ date.day ≤ monthLength date.year date.month) (rest : List Char) :
    readDate (writeYear date.year ++
      '-' :: (padded 2 date.month ++ '-' :: (padded 2 date.day ++ rest))) = some (date, rest) := by
  have hlength : monthLength date.year date.month ≤ 31 := by
    unfold monthLength
    split
    · split <;> omega
    · split <;> omega
  have hdash : ∀ rest, mark '-' ('-' :: rest) = some rest := mark_cons rfl
  simp [readDate, readYear_write, hdash, field_padded hmonth.1 hmonth.2 (by omega),
    field_padded hday.1 (hday.2.trans hlength) (by omega), hyear, hday]

/-- Nine digits of a fraction count at most, and fewer of them for more. -/
lemma readFraction_point (h : IsNumeral digits n) (hne : digits ≠ []) (hlength : digits.length ≤ 9)
    (hc : c.isDigit = false) (rest : List Char) :
    readFraction ('.' :: (digits ++ c :: rest)) =
      some (n * 10 ^ (9 - digits.length), c :: rest) := by
  have hstops : StopsDigits ((c :: rest).take (9 - digits.length)) := by
    intro first hfirst
    rw [List.head?_take] at hfirst
    split at hfirst
    · cases hfirst
    · exact stopsDigits_cons hc rest first hfirst
  have hcount : digits.length ≠ 0 := fun hzero => hne (List.eq_nil_of_length_eq_zero hzero)
  have htake : (digits ++ c :: rest).take 9 = digits ++ (c :: rest).take (9 - digits.length) := by
    rw [List.take_append, List.take_of_length_le hlength]
  simp only [readFraction, htake, takeDigits_append h hstops,
    takeDigits_append h (stopsDigits_cons hc rest), if_neg hcount]
  rfl

/-- The fraction of a second is read up to the letter behind it. -/
lemma readFraction_write {nano : Nat} (h : nano < 1000000000) (hc : c.isDigit = false)
    (hpoint : c ≠ '.') (rest : List Char) :
    readFraction (writeFraction nano ++ c :: rest) = some (nano, c :: rest) := by
  have hread : ∀ width part, 0 < width → width ≤ 9 → part < 10 ^ width →
      readFraction ('.' :: (padded width part ++ c :: rest)) =
        some (part * 10 ^ (9 - width), c :: rest) := by
    intro width part hwidth hmost hpart
    have hlength := length_padded hwidth hpart
    have hfraction := readFraction_point (isNumeral_padded width part) (padded_ne_nil width part)
      (hlength.trans_le hmost) hc rest
    rwa [hlength] at hfraction
  unfold writeFraction
  split
  · next hzero =>
    subst hzero
    simp [readFraction, hpoint]
  · split
    · rw [List.cons_append, hread 3 _ (by decide) (by decide) (by omega)]
      simp only [Option.some.injEq, Prod.mk.injEq, and_true]
      omega
    · split
      · rw [List.cons_append, hread 6 _ (by decide) (by decide) (by omega)]
        simp only [Option.some.injEq, Prod.mk.injEq, and_true]
        omega
      · rw [List.cons_append, hread 9 _ (by decide) (by decide) (by omega)]
        simp

/-- A time of day is read up to the letter behind it. -/
lemma readTime_write {ofDay nano : Nat} (hday : ofDay < 86400) (hnano : nano < 1000000000)
    (hc : c.isDigit = false) (hpoint : c ≠ '.') (rest : List Char) :
    readTime (padded 2 (ofDay / 3600) ++ ':' :: (padded 2 (ofDay / 60 % 60) ++
      ':' :: (padded 2 (ofDay % 60) ++ (writeFraction nano ++ c :: rest)))) =
        some (ofDay, nano, c :: rest) := by
  have hcolon : ∀ rest, mark ':' (':' :: rest) = some rest := mark_cons rfl
  have hfield : ∀ n high rest, n ≤ high → n < 100 →
      field 0 high (padded 2 n ++ rest) = some (n, rest) :=
    fun n high rest hhigh hn => field_padded (Nat.zero_le n) hhigh hn rest
  have hhour := fun rest => hfield (ofDay / 3600) 23 rest (by omega) (by omega)
  have hminute := fun rest => hfield (ofDay / 60 % 60) 59 rest (by omega) (by omega)
  have hsecond := fun rest => hfield (ofDay % 60) 60 rest (by omega) (by omega)
  have hplain : ofDay % 60 ≠ 60 := by omega
  have hsum : ofDay / 3600 * 3600 + ofDay / 60 % 60 * 60 + ofDay % 60 = ofDay := by omega
  simp [readTime, hhour, hcolon, hminute, hsecond, readFraction_write hnano hc hpoint, hplain, hsum]

/-! ## Whole timestamps -/

lemma write_eq {t : Instant} (h : t.Plain) :
    write t = writeYear (ofDayNumber (t.second / 86400)).year ++
      '-' :: (padded 2 (ofDayNumber (t.second / 86400)).month ++
        '-' :: (padded 2 (ofDayNumber (t.second / 86400)).day ++
          'T' :: (padded 2 ((t.second % 86400).toNat / 3600) ++
            ':' :: (padded 2 ((t.second % 86400).toNat / 60 % 60) ++
              ':' :: (padded 2 ((t.second % 86400).toNat % 60) ++
                (writeFraction t.nano ++ ['Z'])))))) := by
  have hplain : ¬ 1000000000 ≤ t.nano := Nat.not_le.mpr h
  simp [write, hplain]

/-- **The timestamp of an instant is read as this instant**, unless it lies in a leap second. -/
theorem read_write {t : Instant} (h : t.Plain) : read (write t) = some t := by
  have hlow := t.le_second
  have hhigh := t.second_le
  unfold earliestSecond at hlow
  unfold latestSecond at hhigh
  have hyear := year_ofDayNumber (n := t.second / 86400) (by omega) (by omega)
  obtain ⟨hmonth, hday⟩ := ofDayNumber_exists (t.second / 86400)
  have hofDay : (t.second % 86400).toNat < 86400 := by omega
  have hsecond : dayNumber (ofDayNumber (t.second / 86400)) * 86400 +
      ((t.second % 86400).toNat : Int) = t.second := by
    rw [dayNumber_ofDayNumber]
    omega
  have hmake : Instant.make? t.second t.nano = some t := by
    unfold Instant.make?
    rw [dif_pos ⟨t.le_second, t.second_le, t.nano_lt⟩]
  have htime := readTime_write hofDay h (c := 'Z') rfl (by decide) []
  have htrim : trimStart ['Z'] = ['Z'] := trimStart_cons rfl []
  have hoffset : readOffset ['Z'] = some (0, []) := rfl
  rw [write_eq h, read, readDate_write hyear hmonth hday]
  simp only [Option.bind_eq_bind, Option.bind_some, htime, htrim, hoffset, List.all_nil, if_true,
    hsecond, Int.sub_zero, hmake]

/-- The greatest time. -/
example : render .latest = "+262142-12-31T23:59:59.999999999Z" := by
  decide +kernel

end WorkQueue.Timestamp
