import Mathlib.Data.List.DropRight
import Mathlib.Tactic.Lemma
import WorkQueue.Text.Blank
import WorkQueue.Text.Split

/-!
# Joined texts are taken apart

`cut` and `pieces` undo what joining texts with a character does, as long as the character stands in
none of the texts before it.  Conversely `cut` finds nothing else (`cut_eq_some_iff`), and no piece
holds the character (`notMem_of_mem_pieces`).

Trimming takes blanks off both ends of a text and leaves none there (`exists_trim`,
`isBlank_ends_trim`).  It leaves a text alone that neither begins nor ends with a blank
(`trim_eq_self`), and no other text; blanks that were put around a text make no difference
(`trim_around`).  Copies of one character are taken off the end alone (`exists_dropTrailing`).
-/

namespace WorkQueue.Text

variable {c : Char} {before after part rest s : List Char}

/-! ## Splitting -/

/-- The first copy of a character is found behind a text without it. -/
lemma cut_append (h : c ∉ before) (after : List Char) :
    cut c (before ++ c :: after) = some (before, after) := by
  induction before with
  | nil => simp [cut]
  | cons d more ih =>
    obtain ⟨hd, hmore⟩ := not_or.mp (mt List.mem_cons.mpr h)
    rw [List.cons_append, cut, if_neg (Ne.symm hd), ih hmore]
    rfl

lemma pieces_of_notMem (h : c ∉ part) : pieces c part = [part] := by
  induction part with
  | nil => rfl
  | cons d more ih =>
    obtain ⟨hd, hmore⟩ := not_or.mp (mt List.mem_cons.mpr h)
    rw [pieces, if_neg (Ne.symm hd), ih hmore]

/-- The first piece is what stands before the first copy of the character. -/
lemma pieces_append (h : c ∉ part) (rest : List Char) :
    pieces c (part ++ c :: rest) = part :: pieces c rest := by
  induction part with
  | nil => simp [pieces]
  | cons d more ih =>
    obtain ⟨hd, hmore⟩ := not_or.mp (mt List.mem_cons.mpr h)
    rw [List.cons_append, pieces, if_neg (Ne.symm hd), ih hmore]

/-- What is found is the first copy of the character and what stands around it. -/
lemma cut_eq_some_iff : cut c s = some (before, after) ↔ s = before ++ c :: after ∧ c ∉ before := by
  constructor
  · intro h
    induction s generalizing before with
    | nil => cases h
    | cons d rest ih =>
      rw [cut] at h
      by_cases hd : d = c
      · rw [if_pos hd] at h
        cases h
        exact ⟨hd ▸ rfl, List.not_mem_nil⟩
      · rw [if_neg hd, Option.map_eq_some_iff] at h
        obtain ⟨⟨first, second⟩, hrest, hparts⟩ := h
        cases hparts
        obtain ⟨rfl, hfirst⟩ := ih hrest
        exact ⟨rfl, List.not_mem_cons_of_ne_of_not_mem (Ne.symm hd) hfirst⟩
  · rintro ⟨rfl, hbefore⟩
    exact cut_append hbefore after

lemma cut_eq_none_iff : cut c s = none ↔ c ∉ s := by
  constructor
  · intro h hmem
    obtain ⟨first, rest, rfl, hfirst⟩ := List.eq_append_cons_of_mem hmem
    rw [cut_append hfirst] at h
    cases h
  · intro h
    cases hcut : cut c s with
    | none => rfl
    | some parts =>
      obtain ⟨rfl, -⟩ := cut_eq_some_iff.mp hcut
      exact absurd (List.mem_append_right _ List.mem_cons_self) h

lemma pieces_ne_nil (s : List Char) : pieces c s ≠ [] := by
  cases s with
  | nil => exact List.cons_ne_nil _ _
  | cons d rest =>
    rw [pieces]
    by_cases hd : d = c
    · rw [if_pos hd]
      exact List.cons_ne_nil _ _
    · rw [if_neg hd]
      cases pieces c rest with
      | nil => exact List.cons_ne_nil _ _
      | cons first more => exact List.cons_ne_nil _ _

/-- The character between the pieces stands in none of them. -/
lemma notMem_of_mem_pieces (h : part ∈ pieces c s) : c ∉ part := by
  induction s generalizing part with
  | nil =>
    rw [List.mem_singleton.mp h]
    exact List.not_mem_nil
  | cons d rest ih =>
    rw [pieces] at h
    by_cases hd : d = c
    · rw [if_pos hd] at h
      rcases List.mem_cons.mp h with rfl | hrest
      · exact List.not_mem_nil
      · exact ih hrest
    · rw [if_neg hd] at h
      cases hpieces : pieces c rest with
      | nil =>
        rw [hpieces] at h
        rw [List.mem_singleton.mp h]
        exact List.not_mem_cons_of_ne_of_not_mem (Ne.symm hd) List.not_mem_nil
      | cons first more =>
        rw [hpieces] at h ih
        rcases List.mem_cons.mp h with rfl | hmore
        · exact List.not_mem_cons_of_ne_of_not_mem (Ne.symm hd) (ih List.mem_cons_self)
        · exact ih (List.mem_cons_of_mem _ hmore)

/-! ## Trimming -/

/-- A text that neither begins nor ends with a blank has nothing to trim. -/
lemma trim_eq_self (hhead : ∀ c, s.head? = some c → isBlank c = false)
    (hlast : ∀ c, s.getLast? = some c → isBlank c = false) : trim s = s := by
  have hkeeps : ∀ t : List Char, (∀ c, t.head? = some c → isBlank c = false) →
      t.dropWhile isBlank = t := by
    intro t ht
    cases t with
    | nil => rfl
    | cons c more => rw [List.dropWhile_cons_of_neg (by simp [ht c rfl])]
  have hreverse := hkeeps s.reverse (by simpa using hlast)
  rw [trim, trimStart, hkeeps s hhead, trimEnd, hreverse, List.reverse_reverse]

lemma exists_trimStart (s : List Char) :
    ∃ front, s = front ++ trimStart s ∧ ∀ c ∈ front, isBlank c = true :=
  ⟨s.takeWhile isBlank, List.takeWhile_append_dropWhile.symm, fun _ hc =>
    List.mem_takeWhile_imp hc⟩

lemma exists_trimEnd (s : List Char) :
    ∃ back, s = trimEnd s ++ back ∧ ∀ c ∈ back, isBlank c = true := by
  refine ⟨(s.reverse.takeWhile isBlank).reverse, ?_, fun c hc =>
    List.mem_takeWhile_imp (List.mem_reverse.mp hc)⟩
  rw [trimEnd, ← List.reverse_append, List.takeWhile_append_dropWhile, List.reverse_reverse]

/-- What is trimmed off a text is a row of blanks at either end. -/
lemma exists_trim (s : List Char) : ∃ front back, s = front ++ trim s ++ back ∧
    (∀ c ∈ front, isBlank c = true) ∧ ∀ c ∈ back, isBlank c = true := by
  obtain ⟨front, hstart, hfront⟩ := exists_trimStart s
  obtain ⟨back, hend, hback⟩ := exists_trimEnd (trimStart s)
  refine ⟨front, back, ?_, hfront, hback⟩
  calc s = front ++ trimStart s := hstart
    _ = front ++ trim s ++ back := by rw [hend, List.append_assoc]; rfl

lemma isBlank_head_dropWhile (h : (s.dropWhile isBlank).head? = some c) : isBlank c = false := by
  have hhead := List.head?_dropWhile_not isBlank s
  rw [h] at hhead
  exact hhead

/-- A trimmed text neither begins nor ends with a blank. -/
lemma isBlank_ends_trim (s : List Char) :
    (∀ c, (trim s).head? = some c → isBlank c = false) ∧
      ∀ c, (trim s).getLast? = some c → isBlank c = false := by
  refine ⟨fun c hc => ?_, fun c hc => ?_⟩
  · obtain ⟨back, hend, -⟩ := exists_trimEnd (trimStart s)
    have hhead : (trimStart s).head? = some c := by
      rw [hend, List.head?_append]
      exact Option.or_eq_some_iff.mpr (.inl hc)
    exact isBlank_head_dropWhile hhead
  · rw [trim, trimEnd, List.getLast?_reverse] at hc
    exact isBlank_head_dropWhile hc

lemma trimStart_append (hfront : ∀ c ∈ before, isBlank c = true) (rest : List Char) :
    trimStart (before ++ rest) = trimStart rest :=
  List.dropWhile_append_of_pos hfront

lemma trimEnd_append (hback : ∀ c ∈ after, isBlank c = true) (rest : List Char) :
    trimEnd (rest ++ after) = trimEnd rest := by
  rw [trimEnd, List.reverse_append, List.dropWhile_append_of_pos, trimEnd]
  exact fun c hc => hback c (List.mem_reverse.mp hc)

/-- Blanks around a text make no difference to what is trimmed. -/
lemma trim_around (hfront : ∀ c ∈ before, isBlank c = true)
    (hback : ∀ c ∈ after, isBlank c = true) (s : List Char) :
    trim (before ++ s ++ after) = trim s := by
  have hstart : trimStart (s ++ after) = trimStart s ++ after ∨
      trimStart s = [] ∧ trimStart (s ++ after) = [] := by
    rw [trimStart, List.dropWhile_append]
    cases hs : s.dropWhile isBlank with
    | nil => exact .inr ⟨hs, List.dropWhile_eq_nil_iff.mpr hback⟩
    | cons d more => exact .inl (by rw [trimStart, hs]; rfl)
  rw [trim, List.append_assoc, trimStart_append hfront]
  rcases hstart with hkept | ⟨hnone, hnothing⟩
  · rw [hkept, trimEnd_append hback, trim]
  · rw [hnothing, trim, hnone]

lemma trim_of_blank (h : ∀ c ∈ s, isBlank c = true) : trim s = [] := by
  have hnone : ∀ c ∈ ([] : List Char), isBlank c = true := fun _ hc => absurd hc List.not_mem_nil
  have haround := trim_around h hnone []
  rwa [List.append_nil, List.append_nil] at haround

/-- A character that is no blank keeps what is trimmed on its left and on its right apart. -/
lemma trim_append_cons (hc : isBlank c = false) (before after : List Char) :
    trim (before ++ c :: after) = trimStart before ++ c :: trimEnd after := by
  have hstart : trimStart (before ++ c :: after) = trimStart before ++ c :: after := by
    rw [trimStart, List.dropWhile_append, List.dropWhile_cons_of_neg (by simp [hc])]
    cases hbefore : before.dropWhile isBlank with
    | nil => simp [trimStart, hbefore]
    | cons d more => simp [trimStart, hbefore]
  have hend : trimEnd (trimStart before ++ c :: after) =
      trimStart before ++ c :: trimEnd after := by
    have hreverse : (trimStart before ++ c :: after).reverse =
        after.reverse ++ c :: (trimStart before).reverse := by simp
    rw [trimEnd, hreverse, List.dropWhile_append, List.dropWhile_cons_of_neg (by simp [hc])]
    cases hafter : after.reverse.dropWhile isBlank with
    | nil => simp [trimEnd, hafter]
    | cons d more => simp [trimEnd, hafter]
  rw [trim, hstart, hend]

lemma trim_trimStart (s : List Char) : trim (trimStart s) = trim s := by
  rw [trim, trimStart, trimStart, List.dropWhile_idempotent]
  rfl

lemma trim_trimEnd (s : List Char) : trim (trimEnd s) = trim s := by
  obtain ⟨back, hs, hback⟩ := exists_trimEnd s
  have hnone : ∀ c ∈ ([] : List Char), isBlank c = true := fun _ hc => absurd hc List.not_mem_nil
  calc trim (trimEnd s) = trim ([] ++ trimEnd s ++ back) := (trim_around hnone hback _).symm
    _ = trim s := by rw [List.nil_append, ← hs]

lemma isBlank_of_isDigit (h : c.isDigit = true) : isBlank c = false := by
  simp only [Char.isDigit, Bool.and_eq_true, decide_eq_true_eq] at h
  have hlow : 48 ≤ c.toNat := h.1
  have hhigh : c.toNat ≤ 57 := h.2
  simp only [isBlank, Bool.or_eq_false_iff, Bool.and_eq_false_imp, decide_eq_true_eq,
    decide_eq_false_iff_not, beq_eq_false_iff_ne, ne_eq]
  omega

/-- The copies of a character are taken off the end of a text, all of them and nothing else. -/
lemma exists_dropTrailing (c : Char) (s : String) :
    (∃ count, s.toList = (dropTrailing c s).toList ++ List.replicate count c) ∧
      (dropTrailing c s).toList.getLast? ≠ some c := by
  have htoList : (dropTrailing c s).toList = s.toList.rdropWhile (· == c) := String.toList_ofList
  rw [htoList]
  constructor
  · have hcopies : s.toList.rtakeWhile (· == c) =
        List.replicate (s.toList.rtakeWhile (· == c)).length c :=
      List.eq_replicate_iff.mpr ⟨rfl, fun d hd => eq_of_beq (List.mem_rtakeWhile_imp hd :)⟩
    exact ⟨_, hcopies ▸ List.rdropWhile_append_rtakeWhile.symm⟩
  · intro hlast
    obtain ⟨front, hfront⟩ := List.getLast?_eq_some_iff.mp hlast
    have hne : s.toList.rdropWhile (· == c) ≠ [] := by
      rw [hfront]
      exact List.append_ne_nil_of_right_ne_nil _ (List.cons_ne_nil _ _)
    refine List.rdropWhile_last_not (· == c) s.toList hne (beq_iff_eq.mpr ?_)
    exact Option.some.inj ((List.getLast?_eq_some_getLast hne).symm.trans hlast)

end WorkQueue.Text
