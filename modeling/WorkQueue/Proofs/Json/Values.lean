import WorkQueue.Proofs.Json.Reading
import WorkQueue.Proofs.Text.Numeral

/-!
# Values in JSON

`ReadsBack reader json value` says that the reader takes exactly what was written of a JSON value
off a text and returns `value`, whatever comes after it, as long as that begins with a symbol that
ends a value.  Texts need nothing of the sort, but a number does.

There is one lemma for each kind of value that a record is made of: texts and what they stand for
(`readsBack_text`, `readsBack_parsed`, `readsBack_choice`), natural numbers up to a bound of at most
`2 ^ 64` (`readsBack_natural`), lists of octets (`readsBack_octets`), and values that may be null
(`readsBack_nullable`).
-/

namespace WorkQueue.Json

open WorkQueue.Text Reader

variable {α : Type} {reader : Reader α} {json : Json} {value : α} {symbol : Symbol}
  {rest : List Symbol} {n : Nat}

/-! ## Reading back -/

/-- Whether a text goes on with a symbol that ends a value. -/
def EndsValue (rest : List Symbol) : Prop :=
  ∃ c more, rest = .char c :: more ∧ (c = ',' ∨ c = ']' ∨ c = '}')

lemma endsValue_cons {c : Char} (h : c = ',' ∨ c = ']' ∨ c = '}') (rest : List Symbol) :
    EndsValue (.char c :: rest) :=
  ⟨c, rest, rfl, h⟩

/-- Whether a reader reads a value back from what was written of it. -/
def ReadsBack (reader : Reader α) (json : Json) (value : α) : Prop :=
  ∀ rest, EndsValue rest → reader.Reads ((write json).map .char ++ rest) value rest

/-- The first symbol of what is written of a value, which is neither a space nor ends a value. -/
def Begins (json : Json) (c : Char) : Prop :=
  (∃ more, write json = c :: more) ∧ isSpace (.char c) = false ∧ c ≠ ']' ∧ c ≠ '}'

/-- What is done with a value after it was read. -/
lemma ReadsBack.map {β : Type} (h : ReadsBack reader json value) (f : α → β) :
    ReadsBack (do return f (← reader)) json (f value) :=
  fun rest hrest => (h rest hrest).bind (reads_pure (f value) rest)

/-! ## Texts -/

lemma begins_text (s : String) : Begins (.text s) '"' :=
  ⟨⟨_, rfl⟩, rfl, by decide, by decide⟩

lemma readsBack_text (s : String) : ReadsBack readText (.text s) s :=
  fun rest _ => reads_readText s rest

/-- A text that stands for something is read as what it stands for. -/
lemma readsBack_parsed {parse : List Char → Option α} {s : String}
    (h : parse s.toList = some value) : ReadsBack (readParsed parse) (.text s) value := by
  intro rest _
  refine (reads_readText s rest).bind ?_
  simp only [h]
  exact reads_pure value rest

/-- One of several names is read as what it names. -/
lemma readsBack_choice {named : String → Option α} {s : String} (h : named s = some value) :
    ReadsBack (readChoice named) (.text s) value := by
  intro rest _
  have hread := reads_readText s rest
  change Reads (readChoice named) ((writeText s).map .char ++ rest) value rest
  rw [writeText_append] at hread ⊢
  refine (reads_peek rfl _).bind (hread.bind ?_)
  simp only [h]
  exact reads_pure value rest

/-! ## Numbers -/

/-- The digits of a numeral as numbers. -/
def digitsOf (digits : List Char) : List Nat :=
  digits.map fun c => c.toNat - 48

lemma leadingDigits_append {digits : List Char} (h : ∀ c ∈ digits, c.isDigit = true)
    (hrest : EndsValue rest) : leadingDigits (digits.map .char ++ rest) = digitsOf digits := by
  induction digits with
  | nil =>
    obtain ⟨c, more, rfl, rfl | rfl | rfl⟩ := hrest <;> rfl
  | cons c digits ih =>
    obtain ⟨hc, hdigits⟩ := List.forall_mem_cons.mp h
    have hvalue : leadingDigits.digitValue? c = some (c.toNat - 48) := digitValue?_of_isDigit hc
    rw [List.map_cons, List.cons_append, leadingDigits]
    simp only [hvalue, ih hdigits]
    rfl

/-- Digits go into a significand as long as their number is below `2 ^ 64`. -/
lemma absorb_digits (digits : List Char) (start : Nat)
    (h : Nat.ofDigitChars 10 digits start < Nat.pow 2 64) :
    absorb start (digitsOf digits) = (Nat.ofDigitChars 10 digits start, digits.length) := by
  induction digits generalizing start with
  | nil => rfl
  | cons c digits ih =>
    rw [Nat.ofDigitChars_cons, Nat.mul_comm] at h ⊢
    have hstart : start * 10 + (c.toNat - 48) < Nat.pow 2 64 :=
      Nat.lt_of_le_of_lt (le_ofDigitChars digits _) h
    have hrest := ih (start * 10 + (c.toNat - 48)) h
    simp only [digitsOf, List.map_cons, absorb, if_pos hstart, List.length_cons] at hrest ⊢
    rw [hrest]
    rfl

/-- The digits of a number begin with a zero only if that is all. -/
lemma digitsOf_toDigits (n : Nat) :
    ∃ first more, digitsOf (Nat.toDigits 10 n) = first :: more ∧ (first = 0 → more = []) := by
  obtain ⟨c, digits, hdigits⟩ := List.exists_cons_of_ne_nil (Nat.toDigits_ne_nil (n := n) (b := 10))
  refine ⟨c.toNat - 48, digitsOf digits, by rw [hdigits]; rfl, fun hzero => ?_⟩
  have hdigit := (isNumeral_toDigits n).isDigit c (hdigits ▸ List.mem_cons_self)
  simp only [Char.isDigit, Bool.and_eq_true, decide_eq_true_eq] at hdigit
  have hlow : 48 ≤ c.toNat := hdigit.1
  have hc : c = '0' := Char.toNat_inj.mp (show c.toNat = 48 by omega)
  have hn := head?_toDigits (n := n) (by rw [hdigits, hc]; rfl)
  rw [hn, Nat.toDigits_zero] at hdigits
  rw [← (List.cons.inj hdigits).2]
  rfl

lemma reads_unsignedNumber (h : n < Nat.pow 2 64) (hrest : EndsValue rest) :
    (unsignedNumber false).Reads ((Nat.toDigits 10 n).map .char ++ rest) (.integer n) rest := by
  have hnumeral := isNumeral_toDigits n
  have hdigits := leadingDigits_append hnumeral.isDigit hrest
  have habsorb := absorb_digits (Nat.toDigits 10 n) 0 (by rwa [hnumeral.value])
  rw [hnumeral.value] at habsorb
  have hlength : (digitsOf (Nat.toDigits 10 n)).length = (Nat.toDigits 10 n).length :=
    List.length_map _
  have hdrop : ((Nat.toDigits 10 n).map Symbol.char ++ rest).drop
      (digitsOf (Nat.toDigits 10 n)).length = rest := by
    rw [hlength]
    exact List.drop_left' (List.length_map _)
  obtain ⟨first, more, hfirst, hzero⟩ := digitsOf_toDigits n
  have hmark : rest.head? ≠ some (.char '.') ∧ startsExponent rest = false := by
    obtain ⟨c, after, rfl, rfl | rfl | rfl⟩ := hrest <;> exact ⟨by simp, rfl⟩
  unfold unsignedNumber
  refine (reads_get _).bind ?_
  simp only [hdigits]
  split
  · next hnone => exact absurd (hfirst.symm.trans hnone) (by simp)
  · next hpadded =>
    obtain ⟨hfirst, hmore⟩ := List.cons.inj (hfirst.symm.trans hpadded)
    rw [hzero hfirst] at hmore
    cases hmore
  · rw [hdrop, habsorb, hlength]
    refine (reads_set _ rest).bind ((reads_get rest).bind ?_)
    simp only [hmark, beq_iff_eq, if_false, Nat.sub_self, Bool.false_or]
    exact reads_pure _ rest

/-- The digits of a number begin with a digit. -/
lemma exists_toDigits (n : Nat) : ∃ c more, Nat.toDigits 10 n = c :: more ∧ c.isDigit = true := by
  obtain ⟨c, more, hdigits⟩ := List.exists_cons_of_ne_nil (Nat.toDigits_ne_nil (n := n) (b := 10))
  exact ⟨c, more, hdigits, (isNumeral_toDigits n).isDigit c (hdigits ▸ List.mem_cons_self)⟩

lemma write_natural (n : Nat) : write (.natural n) = Nat.toDigits 10 n := by
  have hsign : ¬ (n : Int) < 0 := by omega
  simp [natural, write, writeInteger, hsign]

lemma begins_natural (n : Nat) : ∃ c, c.isDigit = true ∧ Begins (.natural n) c := by
  obtain ⟨c, more, hdigits, hc⟩ := exists_toDigits n
  have hother : ∀ d : Char, d.isDigit = false → c ≠ d := by
    rintro d hd rfl
    exact Bool.false_ne_true (hd.symm.trans hc)
  refine ⟨c, hc, ⟨more, (write_natural n).trans hdigits⟩, ?_, hother _ rfl, hother _ rfl⟩
  simp [isSpace, hother ' ' rfl, hother '\n' rfl, hother '\t' rfl, hother '\r' rfl]

/-- A natural number is read back as an integer. -/
lemma readsBack_integer (h : n < Nat.pow 2 64) : ReadsBack number (.natural n) (.natural n) := by
  intro rest hrest
  have hunsigned : (unsignedNumber false).Reads ((write (.natural n)).map .char ++ rest)
      (.natural n) rest := by
    rw [write_natural]
    exact reads_unsignedNumber h hrest
  obtain ⟨c, hc, ⟨more, hwrite⟩, -⟩ := begins_natural n
  have hminus : c ≠ '-' := by
    rintro rfl
    exact absurd hc (by decide)
  rw [hwrite] at hunsigned ⊢
  refine (reads_get _).bind ?_
  simpa [hminus] using hunsigned

/-- A natural number below a bound is read back. -/
lemma readsBack_natural {bound : Nat} (h : n < bound) (hbound : bound ≤ Nat.pow 2 64) :
    ReadsBack (readNatural bound) (.natural n) n := by
  intro rest hrest
  have hnumber := readsBack_integer (Nat.lt_of_lt_of_le h hbound) rest hrest
  obtain ⟨c, hc, ⟨more, hwrite⟩, hspace, -⟩ := begins_natural n
  have hstarts : startsNumber (.char c) = true := Bool.or_eq_true_iff.mpr (.inr hc)
  rw [hwrite] at hnumber ⊢
  refine (reads_peek hspace _).bind ?_
  simp only [hstarts, if_true]
  refine hnumber.bind ?_
  have hrange : (0 : Int) ≤ n ∧ (n : Int) < bound := by omega
  simp only [natural, if_pos hrange, Int.toNat_natCast]
  exact reads_pure n rest

/-! ## Null -/

lemma reads_null (rest : List Symbol) :
    (keyword ['n', 'u', 'l', 'l']).Reads (['n', 'u', 'l', 'l'].map .char ++ rest) () rest := rfl

/-- A value that may be null is read back, if null cannot be taken for what is written of it. -/
lemma readsBack_nullable {encode : α → Json} {value : Option α}
    (hread : ∀ a, value = some a → ReadsBack reader (encode a) a)
    (hbegins : ∀ a, value = some a → ∃ c, c ≠ 'n' ∧ Begins (encode a) c) :
    ReadsBack (readNullable reader) (ofOption encode value) value := by
  intro rest hrest
  cases value with
  | none => exact (reads_peek rfl _).bind ((reads_null rest).bind (reads_pure none rest))
  | some a =>
    have hvalue := hread a rfl rest hrest
    obtain ⟨c, hc, ⟨more, hwrite⟩, hspace, -⟩ := hbegins a rfl
    change Reads (readNullable reader) ((write (encode a)).map .char ++ rest) (some a) rest
    rw [hwrite] at hvalue ⊢
    refine (reads_peek hspace _).bind ?_
    have hother : some (Symbol.char c) ≠ some (.char 'n') := by simpa using hc
    simp only [if_neg hother]
    exact hvalue.bind (reads_pure (some a) rest)

/-! ## Parts behind commas -/

/-- Parts that follow another one, each behind a comma. -/
def followers (parts : List (List Char)) : List Char :=
  parts.flatMap fun part => ',' :: part

lemma commas_cons (part : List Char) (parts : List (List Char)) :
    commas (part :: parts) = part ++ followers parts := by
  induction parts generalizing part with
  | nil => simp [commas, followers]
  | cons next parts ih =>
    rw [commas, ih]
    · simp [followers]
    · exact List.cons_ne_nil next parts

lemma length_le_followers (parts : List (List Char)) :
    parts.length ≤ (followers parts).length := by
  induction parts with
  | nil => exact Nat.le_refl 0
  | cons part parts ih =>
    simp only [followers, List.flatMap_cons, List.length_append, List.length_cons] at ih ⊢
    omega

/-- There is room in a text for as many parts as it has symbols. -/
lemma length_le_commas (parts : List (List Char)) (symbol : Symbol) (rest : List Symbol) :
    parts.length ≤ ((commas parts).map Symbol.char ++ symbol :: rest).length := by
  cases parts with
  | nil => exact Nat.zero_le _
  | cons part parts =>
    have hlength := length_le_followers parts
    rw [commas_cons, List.length_append, List.length_map, List.length_append, List.length_cons,
      List.length_cons]
    omega

/-- A part ends where the next one follows or the closing symbol stands. -/
lemma endsValue_followers {close : Char} (h : close = ']' ∨ close = '}')
    (parts : List (List Char)) (rest : List Symbol) :
    EndsValue ((followers parts).map .char ++ .char close :: rest) := by
  cases parts with
  | nil => exact endsValue_cons (.inr h) rest
  | cons part parts => exact endsValue_cons (.inl rfl) _

/-- Another part follows behind a comma. -/
lemma reads_another_next {close : Char} (h : isSpace symbol = false)
    (hclose : symbol ≠ .char close) (hcomma : close ≠ ',') (rest : List Symbol) :
    (another close false).Reads (.char ',' :: symbol :: rest) true (symbol :: rest) := by
  have hother : Symbol.char ',' ≠ .char close := by
    rintro ⟨⟩
    exact hcomma rfl
  refine (reads_peek rfl _).bind ?_
  simp only [if_neg hother, Bool.false_eq_true, if_false, if_true]
  refine (reads_skip _ _).bind ((reads_peek h rest).bind ?_)
  simp only [if_neg hclose]
  exact reads_pure true _

/-! ## Octets -/

/-- What is written of octets. -/
def octetParts (octets : List UInt8) : List (List Char) :=
  octets.map fun octet => Nat.toDigits 10 octet.toNat

lemma write_octets (octets : List UInt8) :
    write (.list (octets.map fun octet => .natural octet.toNat)) =
      '[' :: (commas (octetParts octets) ++ [']']) := by
  have hitems : writeItems (octets.map fun octet => .natural octet.toNat) = octetParts octets := by
    induction octets with
    | nil => rfl
    | cons octet octets ih =>
      rw [List.map_cons, writeItems, ih, write_natural]
      rfl
  rw [write, hitems]
  rfl

/-- An octet is read, and those behind it. -/
lemma reads_octetItem {octet : UInt8} {octets : List UInt8} {fuel : Nat} {first : Bool}
    {text after : List Symbol}
    (hanother : (another ']' first).Reads text true
      ((Nat.toDigits 10 octet.toNat).map .char ++ after))
    (hafter : EndsValue after) (hread : (readOctetItems fuel false).Reads after octets rest) :
    (readOctetItems (fuel + 1) first).Reads text (octet :: octets) rest := by
  have hback : ReadsBack (readNatural 256) (.natural octet.toNat) octet.toNat :=
    readsBack_natural octet.toNat_lt (by decide)
  have hoctet := hback after hafter
  rw [write_natural] at hoctet
  rw [readOctetItems]
  refine hanother.bind (hoctet.bind (hread.bind ?_))
  rw [UInt8.ofNat_toNat]
  exact reads_pure (octet :: octets) rest

/-- The list of octets ends. -/
lemma reads_noOctet (fuel : Nat) (first : Bool) (rest : List Symbol) :
    (readOctetItems (fuel + 1) first).Reads (.char ']' :: rest) [] rest := by
  rw [readOctetItems]
  refine (reads_another_close rfl first rest).bind ?_
  have hclose : closeList.Reads (.char ']' :: rest) () rest :=
    (reads_peek rfl rest).bind (reads_skip _ rest)
  exact hclose.bind (reads_pure [] rest)

/-- A number is no space and ends no list. -/
lemma begins_octet (octet : UInt8) :
    ∃ c more, Nat.toDigits 10 octet.toNat = c :: more ∧ isSpace (.char c) = false ∧ c ≠ ']' := by
  obtain ⟨c, -, ⟨more, hwrite⟩, hspace, hclose, -⟩ := begins_natural octet.toNat
  exact ⟨c, more, (write_natural _).symm.trans hwrite, hspace, hclose⟩

/-- Octets are read up to the end of their list. -/
lemma reads_octetItems (octets : List UInt8) (fuel : Nat) (h : octets.length < fuel)
    (rest : List Symbol) :
    (readOctetItems fuel false).Reads
      ((followers (octetParts octets)).map .char ++ .char ']' :: rest) octets rest := by
  obtain ⟨fuel, rfl⟩ := Nat.exists_eq_succ_of_ne_zero (Nat.ne_zero_of_lt h)
  induction octets generalizing fuel with
  | nil => exact reads_noOctet fuel false rest
  | cons octet octets ih =>
    rw [List.length_cons, Nat.succ_lt_succ_iff] at h
    obtain ⟨fuel, rfl⟩ := Nat.exists_eq_succ_of_ne_zero (Nat.ne_zero_of_lt h)
    obtain ⟨c, more, hdigits, hspace, hclose⟩ := begins_octet octet
    refine reads_octetItem ?_ (endsValue_followers (.inl rfl) (octetParts octets) rest)
      (ih fuel h)
    rw [hdigits]
    simpa [followers, octetParts, hdigits] using
      reads_another_next hspace (by simpa using hclose) (by decide) _

/-- Octets are read back. -/
lemma readsBack_octets (octets : List UInt8) :
    ReadsBack readOctets (.list (octets.map fun octet => .natural octet.toNat)) octets := by
  intro rest _
  have hfuel := length_le_commas (octetParts octets) (.char ']') rest
  rw [write_octets]
  simp only [List.map_cons, List.map_append, List.cons_append, List.append_assoc, List.map_nil,
    List.nil_append]
  refine (reads_peek rfl _).bind ((reads_skip _ _).bind ((reads_get _).bind ?_))
  generalize ((commas (octetParts octets)).map Symbol.char ++ .char ']' :: rest).length = fuel
    at hfuel ⊢
  cases octets with
  | nil => exact reads_noOctet fuel true rest
  | cons octet octets =>
    obtain ⟨c, more, hdigits, hspace, hclose⟩ := begins_octet octet
    have hlength : (octetParts (octet :: octets)).length = octets.length + 1 := List.length_map _
    have hroom : octets.length < fuel := by omega
    refine reads_octetItem ?_ (endsValue_followers (.inl rfl) (octetParts octets) rest)
      (reads_octetItems octets fuel hroom rest)
    rw [octetParts, List.map_cons, commas_cons, hdigits]
    simpa [octetParts] using reads_another_first hspace (by simpa using hclose) _

end WorkQueue.Json
