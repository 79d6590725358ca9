import WorkQueue.Proofs.Json.Values

/-!
# Records are read back

A record is written as an object of its fields and read by `Shape.read`, which looks every name up
among those of its members and reads the value with the member's reader into a draft.  `Fills` says
that this goes well for some fields: each name is that of a member and comes once, and the member
reads back what was written of the value.  Then the object is read as the record that the draft is
completed to (`Shape.read_write`).  What is left for each kind of record is one line for each field.
-/

namespace WorkQueue.Json

open WorkQueue.Text Reader

variable {Draft α : Type} {shape : Shape Draft α} {seen : List String} {draft filled : Draft}
  {fields : List (String × Json)} {rest : List Symbol}

/-! ## Fields that fill a draft -/

/-- `Fills members seen draft fields filled` says that reading the fields one after the other fills
the draft, when the members that are seen were read before. -/
inductive Fills (members : List (Member Draft)) :
    List String → Draft → List (String × Json) → Draft → Prop
  | nil (seen : List String) (draft : Draft) : Fills members seen draft [] draft
  | cons {seen : List String} {draft next filled : Draft} {name : String} {value : Json}
      {fields : List (String × Json)} {member : Member Draft}
      (known : members.find? (·.name == name) = some member) (fresh : name ∉ seen)
      (reads : ReadsBack (member.read draft) value next)
      (others : Fills members (name :: seen) next fields filled) :
      Fills members seen draft ((name, value) :: fields) filled

/-- What is written of a field. -/
def fieldPart (field : String × Json) : List Char :=
  writeText field.1 ++ ':' :: write field.2

lemma writeFields_eq (fields : List (String × Json)) :
    writeFields fields = fields.map fieldPart := by
  induction fields with
  | nil => rfl
  | cons field fields ih => rw [writeFields, ih]; rfl

lemma write_object (fields : List (String × Json)) (rest : List Symbol) :
    (write (.object fields)).map .char ++ rest =
      .char '{' :: ((commas (fields.map fieldPart)).map .char ++ .char '}' :: rest) := by
  simp [write, writeFields_eq]

/-- The first symbol of a field is the quote of its name. -/
lemma fieldPart_eq (field : String × Json) : ∃ more, fieldPart field = '"' :: more :=
  ⟨_, rfl⟩

/-- A field follows the opening symbol of its object, and others follow the field. -/
lemma reads_another_field (field : String × Json) (fields : List (String × Json))
    (rest : List Symbol) :
    (another '}' true).Reads
      ((commas ((field :: fields).map fieldPart)).map .char ++ .char '}' :: rest) true
      ((fieldPart field).map .char ++
        ((followers (fields.map fieldPart)).map .char ++ .char '}' :: rest)) := by
  obtain ⟨more, hpart⟩ := fieldPart_eq field
  have hfirst : ∀ rest, (another '}' true).Reads (.char '"' :: rest) true (.char '"' :: rest) :=
    reads_another_first rfl (by decide)
  rw [List.map_cons, commas_cons, hpart]
  simpa using hfirst _

/-- A field follows another one behind a comma, and others follow the field. -/
lemma reads_another_follower (field : String × Json) (fields : List (String × Json))
    (rest : List Symbol) :
    (another '}' false).Reads
      ((followers ((field :: fields).map fieldPart)).map .char ++ .char '}' :: rest) true
      ((fieldPart field).map .char ++
        ((followers (fields.map fieldPart)).map .char ++ .char '}' :: rest)) := by
  obtain ⟨more, hpart⟩ := fieldPart_eq field
  have hnext : ∀ rest, (another '}' false).Reads (.char ',' :: .char '"' :: rest) true
      (.char '"' :: rest) := reads_another_next rfl (by decide) (by decide)
  rw [hpart]
  simpa [followers, hpart] using hnext _

/-! ## Reading by name -/

/-- A field is read, and those behind it. -/
lemma reads_field {name : String} {value : Json} {member : Member Draft} {next : Draft}
    {fuel : Nat} {first : Bool} {text after : List Symbol}
    (hanother : (another '}' first).Reads text true ((fieldPart (name, value)).map .char ++ after))
    (known : shape.members.find? (·.name == name) = some member) (fresh : name ∉ seen)
    (reads : ReadsBack (member.read draft) value next) (hafter : EndsValue after)
    (others : (shape.readByName fuel false (name :: seen) next).Reads after filled rest) :
    (shape.readByName (fuel + 1) first seen draft).Reads text filled rest := by
  have hname := reads_fieldName name (.char ':' :: ((write value).map .char ++ after))
  have hunseen : seen.contains name = false := by simpa using fresh
  rw [fieldPart, List.map_append, List.append_assoc, List.map_cons, List.cons_append] at hanother
  rw [Shape.readByName]
  refine hanother.bind (hname.bind ?_)
  simp only [known, hunseen]
  exact (reads_colon _).bind ((reads after hafter).bind others)

/-- The object ends. -/
lemma reads_noField (fuel : Nat) (first : Bool) (rest : List Symbol) :
    (shape.readByName (fuel + 1) first seen draft).Reads (.char '}' :: rest) draft
      (.char '}' :: rest) := by
  rw [Shape.readByName]
  exact (reads_another_close rfl first rest).bind (reads_pure draft _)

/-- Fields are read up to the end of their object. -/
lemma reads_fields (h : Fills shape.members seen draft fields filled) (fuel : Nat)
    (hfuel : fields.length < fuel) (rest : List Symbol) :
    (shape.readByName fuel false seen draft).Reads
      ((followers (fields.map fieldPart)).map .char ++ .char '}' :: rest) filled
      (.char '}' :: rest) := by
  obtain ⟨fuel, rfl⟩ := Nat.exists_eq_succ_of_ne_zero (Nat.ne_zero_of_lt hfuel)
  induction h generalizing fuel with
  | nil seen draft => exact reads_noField fuel false rest
  | @cons seen draft next filled name value fields member known fresh reads others ih =>
    rw [List.length_cons, Nat.succ_lt_succ_iff] at hfuel
    obtain ⟨fuel, rfl⟩ := Nat.exists_eq_succ_of_ne_zero (Nat.ne_zero_of_lt hfuel)
    exact reads_field (reads_another_follower (name, value) fields rest) known fresh reads
      (endsValue_followers (.inr rfl) (fields.map fieldPart) rest) (ih fuel hfuel)

/-- The fields of an object are read up to its end. -/
lemma reads_object (h : Fills shape.members seen draft fields filled) (fuel : Nat)
    (hfuel : fields.length < fuel) (rest : List Symbol) :
    (shape.readByName fuel true seen draft).Reads
      ((commas (fields.map fieldPart)).map .char ++ .char '}' :: rest) filled
      (.char '}' :: rest) := by
  obtain ⟨fuel, rfl⟩ := Nat.exists_eq_succ_of_ne_zero (Nat.ne_zero_of_lt hfuel)
  cases h with
  | nil => exact reads_noField fuel true rest
  | @cons _ _ next _ name value fields member known fresh reads others =>
    rw [List.length_cons, Nat.succ_lt_succ_iff] at hfuel
    exact reads_field (reads_another_field (name, value) fields rest) known fresh reads
      (endsValue_followers (.inr rfl) (fields.map fieldPart) rest)
      (reads_fields others fuel hfuel rest)

/-- **A record is read back from its fields.** -/
theorem Shape.read_write {record : α} (h : Fills shape.members [] shape.blank fields filled)
    (hcomplete : shape.complete filled = some record) :
    shape.read ((write (.object fields)).map .char) = .ok record := by
  have hfuel := length_le_commas (fields.map fieldPart) (.char '}') []
  rw [List.length_map] at hfuel
  have hwrite := write_object fields []
  rw [List.append_nil] at hwrite
  have hcompleted : (shape.completed filled).Reads [.char '}'] record [.char '}'] := by
    unfold Shape.completed
    rw [hcomplete]
    exact reads_pure record _
  rw [hwrite, Shape.read]
  refine Reads.run ((reads_peek rfl _).bind ((reads_skip _ _).bind ((reads_get _).bind ?_)))
  refine (reads_object h _ (Nat.lt_succ_of_le hfuel) []).bind ?_
  exact hcompleted.bind ((reads_skip _ []).bind (reads_pure record []))

end WorkQueue.Json
