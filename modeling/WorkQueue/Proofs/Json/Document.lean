import WorkQueue.Json.Document
import WorkQueue.Proofs.Json.Shape

/-!
# Documents are read back

`readValue` reads a value of any shape from what was written of it: truth values, natural numbers
below `2 ^ 64` and texts as they are, and an object field by field (`reads_objectValue`).  The
fields of the object that is read are in the order of their names.  A number that is not whole need
not come back, since reading rounds more than once; whatever `number` reads of it is what is read.
-/

namespace WorkQueue.Json

open WorkQueue.Text Reader

variable {depth n : Nat} {rest text left : List Symbol} {value : Json} {item : Reader Json}
  {fields values : List (String × Json)}

/-! ## Plain values -/

lemma readsBack_boolValue (b : Bool) : ReadsBack (readValue (depth + 1)) (.bool b) (.bool b) := by
  intro rest _
  cases b <;> rfl

lemma readsBack_textValue (s : String) : ReadsBack (readValue (depth + 1)) (.text s) (.text s) := by
  intro rest _
  change Reads (readValue (depth + 1)) ((writeText s).map .char ++ rest) _ _
  rw [writeText_append, readValue]
  refine (reads_peek rfl _).bind ((reads_skip _ _).bind ?_)
  exact (reads_closeText s rest).bind (reads_pure _ rest)

/-- Whatever is read as a number begins like one. -/
lemma startsNumber_of_reads {symbol : Symbol} (h : number.Reads (symbol :: rest) value left) :
    startsNumber symbol = true := by
  by_contra hstarts
  have hdigits : leadingDigits (symbol :: rest) = [] := by
    cases symbol with
    | damaged octets => rfl
    | char c =>
      have hc : leadingDigits.digitValue? c = none := by
        simp only [startsNumber, Bool.or_eq_true, not_or] at hstarts
        exact if_neg hstarts.2
      simp only [leadingDigits, hc]
  have hminus : symbol ≠ .char '-' := by
    rintro rfl
    exact hstarts rfl
  unfold Reads number unsignedNumber at h
  simp [hminus, hdigits] at h
  cases h

/-- What is read as a number is read as a value. -/
lemma Reader.Reads.value_of_number {symbol : Symbol}
    (h : number.Reads (symbol :: rest) value left) :
    (readValue (depth + 1)).Reads (symbol :: rest) value left := by
  have hstarts := startsNumber_of_reads h
  have hother : ∀ c : Char, startsNumber (.char c) = false → symbol ≠ .char c := by
    rintro c hc rfl
    exact Bool.false_ne_true (hc.symm.trans hstarts)
  have hspace : isSpace symbol = false := by
    cases symbol with
    | damaged octets => rfl
    | char c =>
      have hplain : ∀ d : Char, startsNumber (.char d) = false → c ≠ d := fun d hd hsame =>
        hother d hd (congrArg Symbol.char hsame)
      simp [isSpace, hplain ' ' rfl, hplain '\n' rfl, hplain '\t' rfl, hplain '\r' rfl]
  rw [readValue]
  refine (reads_peek hspace _).bind ?_
  split
  · next hnone => cases hnone
  · next hsymbol => exact absurd (Option.some.inj hsymbol) (hother 'n' rfl)
  · next hsymbol => exact absurd (Option.some.inj hsymbol) (hother 't' rfl)
  · next hsymbol => exact absurd (Option.some.inj hsymbol) (hother 'f' rfl)
  · next hsymbol => exact absurd (Option.some.inj hsymbol) (hother '"' rfl)
  · next hsymbol => exact absurd (Option.some.inj hsymbol) (hother '[' rfl)
  · next hsymbol => exact absurd (Option.some.inj hsymbol) (hother '{' rfl)
  · next found hsymbol =>
    obtain rfl := Option.some.inj hsymbol
    rw [if_pos hstarts]
    exact h

/-- A number is read back as whatever `number` reads of it. -/
lemma readsBack_number {json : Json} (h : ReadsBack number json value) :
    ReadsBack (readValue (depth + 1)) json value := by
  intro rest hrest
  have hnumber := h rest hrest
  have hbegins : ∃ symbol more, (write json).map Symbol.char ++ rest = symbol :: more := by
    obtain ⟨c, more, rfl, -⟩ := hrest
    cases write json with
    | nil => exact ⟨_, _, rfl⟩
    | cons d digits => exact ⟨_, _, rfl⟩
  obtain ⟨symbol, more, htext⟩ := hbegins
  rw [htext] at hnumber ⊢
  exact hnumber.value_of_number

lemma readsBack_naturalValue (h : n < Nat.pow 2 64) :
    ReadsBack (readValue (depth + 1)) (.natural n) (.natural n) :=
  readsBack_number (readsBack_integer h)

/-! ## Objects -/

/-- `RereadFields item fields values` says that the reader reads each field back, as the value under
the same name. -/
def RereadFields (item : Reader Json) : List (String × Json) → List (String × Json) → Prop :=
  List.Forall₂ fun field value => field.1 = value.1 ∧ ReadsBack item field.2 value.2

/-- A field is read, and those behind it. -/
lemma reads_readField {name : String} {json : Json} {fuel : Nat} {first : Bool}
    {after : List Symbol}
    (hanother : (another '}' first).Reads text true ((fieldPart (name, json)).map .char ++ after))
    (hreads : ReadsBack item json value) (hafter : EndsValue after)
    (hothers : (readFields item fuel false).Reads after values rest) :
    (readFields item (fuel + 1) first).Reads text ((name, value) :: values) rest := by
  have hname := reads_fieldName name (.char ':' :: ((write json).map .char ++ after))
  rw [fieldPart, List.map_append, List.append_assoc, List.map_cons, List.cons_append] at hanother
  rw [readFields]
  refine hanother.bind (hname.bind ?_)
  refine (reads_colon _).bind ((hreads after hafter).bind (hothers.bind ?_))
  exact reads_pure _ rest

/-- The object ends. -/
lemma reads_noMoreFields (fuel : Nat) (first : Bool) (rest : List Symbol) :
    (readFields item (fuel + 1) first).Reads (.char '}' :: rest) [] rest := by
  rw [readFields]
  refine (reads_another_close rfl first rest).bind ?_
  exact (reads_skip _ rest).bind (reads_pure [] rest)

/-- Fields are read up to the end of their object. -/
lemma reads_readFields (h : RereadFields item fields values) (fuel : Nat)
    (hfuel : fields.length < fuel) (rest : List Symbol) :
    (readFields item fuel false).Reads
      ((followers (fields.map fieldPart)).map .char ++ .char '}' :: rest) values rest := by
  obtain ⟨fuel, rfl⟩ := Nat.exists_eq_succ_of_ne_zero (Nat.ne_zero_of_lt hfuel)
  induction h generalizing fuel with
  | nil => exact reads_noMoreFields fuel false rest
  | @cons field value fields values hfield _ ih =>
    rw [List.length_cons, Nat.succ_lt_succ_iff] at hfuel
    obtain ⟨fuel, rfl⟩ := Nat.exists_eq_succ_of_ne_zero (Nat.ne_zero_of_lt hfuel)
    obtain ⟨name, json⟩ := field
    obtain ⟨other, read⟩ := value
    obtain ⟨rfl, hreads⟩ := hfield
    exact reads_readField (reads_another_follower (name, json) fields rest) hreads
      (endsValue_followers (.inr rfl) (fields.map fieldPart) rest) (ih fuel hfuel)

/-- Fields behind the opening symbol of an object are read up to its end. -/
lemma reads_firstFields (h : RereadFields item fields values) (fuel : Nat)
    (hfuel : fields.length < fuel) (rest : List Symbol) :
    (readFields item fuel true).Reads
      ((commas (fields.map fieldPart)).map .char ++ .char '}' :: rest) values rest := by
  obtain ⟨fuel, rfl⟩ := Nat.exists_eq_succ_of_ne_zero (Nat.ne_zero_of_lt hfuel)
  cases h with
  | nil => exact reads_noMoreFields fuel true rest
  | @cons field value fields values hfield hfields =>
    rw [List.length_cons, Nat.succ_lt_succ_iff] at hfuel
    obtain ⟨name, json⟩ := field
    obtain ⟨other, read⟩ := value
    obtain ⟨rfl, hreads⟩ := hfield
    exact reads_readField (reads_another_field (name, json) fields rest) hreads
      (endsValue_followers (.inr rfl) (fields.map fieldPart) rest)
      (reads_readFields hfields fuel hfuel rest)

/-- An object is read with its fields in the order of their names, whatever comes after it. -/
lemma reads_objectValue (h : RereadFields (readValue (depth + 1)) fields values)
    (rest : List Symbol) :
    (readValue (depth + 2)).Reads ((write (.object fields)).map .char ++ rest) (ofFields values)
      rest := by
  have hfuel := length_le_commas (fields.map fieldPart) (.char '}') rest
  rw [List.length_map] at hfuel
  rw [write_object, readValue]
  refine (reads_peek rfl _).bind ((reads_skip _ _).bind ((reads_get _).bind ?_))
  exact (reads_firstFields h _ (Nat.lt_succ_of_le hfuel) rest).bind (reads_pure _ rest)

lemma readsBack_objectValue (h : RereadFields (readValue (depth + 1)) fields values) :
    ReadsBack (readValue (depth + 2)) (.object fields) (ofFields values) :=
  fun rest _ => reads_objectValue h rest

/-- **A document is read back** with its fields in the order of their names, if its fields are. -/
theorem read_render (h : RereadFields (readValue 127) fields values) :
    read (symbols (Json.object fields).render) = .ok (ofFields values) := by
  have hreads := reads_objectValue h []
  rw [List.append_nil] at hreads
  rw [symbols, render, String.toList_ofList]
  exact hreads.run

end WorkQueue.Json
