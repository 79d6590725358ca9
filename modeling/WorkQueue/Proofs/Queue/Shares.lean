import Mathlib.Algebra.BigOperators.Fin
import Mathlib.Algebra.Order.Floor.Div
import Mathlib.Data.FinEnum
import Mathlib.Order.Interval.Finset.Nat
import Mathlib.Tactic.Ring
import WorkQueue.Proofs.Queue.Weights

/-!
# Shares of the random words

A claim chooses among the queues with work by random words of 32 bits.  A word decides for the
queue on whose stretch of the weights the high half of its product with the total weight lies, or
for none if the low half is beyond the last whole multiple (`decision`), and then the next word
decides (`pick_cons`).

The products are the multiples of the total weight.  Those that count for a point lie in an interval
whose length is a multiple of the total weight as well, wherever it begins, so there are as many of
them for every point (`card_point`).  Hence a queue has exactly as many words as its weight says
(`card_decision`), and fewer words than the total weight are passed over
(`card_decision_none`).

The main statement is `pick_fair`.
-/

namespace WorkQueue
namespace QueueWeights

variable {hasWork : String → Bool} {entries : List (String × Nat)} {sum point place : Nat}

/-! ## Points and places -/

/-- The place among the queues of the one on whose stretch of the weights a point lies. -/
def placeOf : List (String × Nat) → Nat → Option Nat
  | [], _ => none
  | (_, weight) :: rest, point =>
    if point < weight then some 0 else (placeOf rest (point - weight)).map (· + 1)

lemma atPoint_eq (entries : List (String × Nat)) (point : Nat) :
    atPoint entries point =
      (placeOf entries point).bind fun place => entries[place]?.map (·.1) := by
  induction entries generalizing point with
  | nil => rfl
  | cons first rest ih =>
    simp only [atPoint, placeOf]
    split
    · rfl
    · rw [ih, Option.bind_map]
      rfl

/-- The points of a queue are those on its stretch, behind the stretches of the queues before. -/
lemma placeOf_eq_some_iff :
    placeOf entries point = some place ↔ ∃ entry, entries[place]? = some entry ∧
      total (entries.take place) ≤ point ∧ point < total (entries.take place) + entry.2 := by
  induction entries generalizing point place with
  | nil => simp [placeOf]
  | cons first rest ih =>
    simp only [placeOf]
    cases place with
    | zero =>
      split
      · next h => simp [total, h]
      · next h => simp [total, h]
    | succ place =>
      split
      · next h =>
        simp only [List.getElem?_cons_succ, List.take_succ_cons, total]
        constructor
        · intro hzero
          cases hzero
        · rintro ⟨entry, -, hlow, -⟩
          omega
      · next h =>
        simp only [Option.map_eq_some_iff, Nat.add_right_cancel_iff, exists_eq_right, ih,
          List.getElem?_cons_succ, List.take_succ_cons, total]
        refine exists_congr fun entry => and_congr_right fun _ => ?_
        omega

/-! ## How many words there are for a point -/

lemma bound32_eq : Text.bound32 = 2 ^ 32 := rfl

/-- A product counts if its low half is within a whole multiple of the total weight. -/
lemma zone_add_one (hpos : 0 < sum) (hle : sum ≤ 2 ^ 32) :
    zone sum + 1 = sum * (2 ^ 32 / sum) := by
  have hmod : (2 ^ 32 - sum) % sum = 2 ^ 32 % sum := (Nat.mod_eq_sub_mod hle).symm
  have hlt : 2 ^ 32 % sum < sum := Nat.mod_lt _ hpos
  have hdiv := Nat.div_add_mod (2 ^ 32) sum
  rw [zone, bound32_eq, hmod]
  omega

/-- The products that count for a point are the multiples of the total weight in an interval. -/
lemma counts_iff (hpos : 0 < sum) (hle : sum ≤ 2 ^ 32) (value : Nat) :
    value * sum / Text.bound32 = point ∧ value * sum % Text.bound32 ≤ zone sum ↔
      point * 2 ^ 32 ≤ sum * value ∧ sum * value < point * 2 ^ 32 + sum * (2 ^ 32 / sum) := by
  have hzone := zone_add_one hpos hle
  have hfits : sum * (2 ^ 32 / sum) ≤ 2 ^ 32 := Nat.mul_div_le _ _
  rw [bound32_eq, Nat.mul_comm value sum]
  omega

/-- An interval whose length is `count` multiples of a number holds `count` multiples of it,
wherever it begins. -/
lemma multiple_mem_iff (hpos : 0 < sum) (start count value : Nat) :
    start ≤ sum * value ∧ sum * value < start + sum * count ↔
      value ∈ Finset.Ico (start ⌈/⌉ sum) (start ⌈/⌉ sum + count) := by
  rw [Finset.mem_Ico, ← ceilDiv_le_iff_le_mul hpos]
  refine and_congr_right fun hstart => ?_
  rcases Nat.lt_or_ge value count with hvalue | hvalue
  · have hlt : sum * value < sum * count := Nat.mul_lt_mul_of_pos_left hvalue hpos
    omega
  · obtain ⟨more, rfl⟩ := Nat.exists_eq_add_of_le hvalue
    have hmore : start ⌈/⌉ sum ≤ more ↔ start ≤ sum * more := ceilDiv_le_iff_le_mul hpos
    rw [Nat.mul_add]
    omega

/-- For every point there are equally many words. -/
lemma card_point (hle : sum ≤ 2 ^ 32) (hpoint : point < sum) :
    (Finset.univ.filter fun word : UInt32 => word.toNat * sum / Text.bound32 = point ∧
      word.toNat * sum % Text.bound32 ≤ zone sum).card = 2 ^ 32 / sum := by
  have hpos : 0 < sum := Nat.zero_lt_of_lt hpoint
  have hfits : sum * (2 ^ 32 / sum) ≤ 2 ^ 32 := Nat.mul_div_le _ _
  -- The first word whose product lies in the interval of the point.
  generalize hleast : point * 2 ^ 32 ⌈/⌉ sum = least
  have hmem : ∀ value, (value * sum / Text.bound32 = point ∧
      value * sum % Text.bound32 ≤ zone sum) ↔ value ∈ Finset.Ico least (least + 2 ^ 32 / sum) :=
    fun value => by rw [counts_iff hpos hle, multiple_mem_iff hpos, hleast]
  have hsmall : ∀ value ∈ Finset.Ico least (least + 2 ^ 32 / sum), value < UInt32.size := by
    intro value hvalue
    rw [← hleast, ← multiple_mem_iff hpos] at hvalue
    have hproduct : sum * value < sum * 2 ^ 32 := by
      have hnext : (point + 1) * 2 ^ 32 ≤ sum * 2 ^ 32 := Nat.mul_le_mul_right _ hpoint
      omega
    exact Nat.lt_of_mul_lt_mul_left hproduct
  calc (Finset.univ.filter fun word : UInt32 => word.toNat * sum / Text.bound32 = point ∧
        word.toNat * sum % Text.bound32 ≤ zone sum).card
      = (Finset.Ico least (least + 2 ^ 32 / sum)).card := by
        refine Finset.card_nbij (·.toNat) ?_ ?_ ?_
        · intro word hword
          exact (hmem word.toNat).mp (Finset.mem_filter.mp hword).2
        · exact fun a _ b _ hab => UInt32.toNat.inj hab
        · intro value hvalue
          have hword : (UInt32.ofNat value).toNat = value :=
            UInt32.toNat_ofNat_of_lt' (hsmall value hvalue)
          refine ⟨UInt32.ofNat value, ?_, hword⟩
          refine Finset.mem_filter.mpr ⟨Finset.mem_univ _, ?_⟩
          rw [hword]
          exact (hmem value).mpr hvalue
    _ = 2 ^ 32 / sum := by rw [Nat.card_Ico, Nat.add_sub_cancel_left]

/-- For the points of a set there are as many words as for each of them. -/
lemma card_points (hle : sum ≤ 2 ^ 32) {points : Finset Nat} (hpoints : ∀ x ∈ points, x < sum) :
    (Finset.univ.filter fun word : UInt32 => word.toNat * sum / Text.bound32 ∈ points ∧
      word.toNat * sum % Text.bound32 ≤ zone sum).card = points.card * (2 ^ 32 / sum) := by
  rw [Finset.card_eq_sum_card_fiberwise (f := fun word : UInt32 =>
    word.toNat * sum / Text.bound32) (t := points) fun word hword =>
      (Finset.mem_filter.mp hword).2.1]
  refine (Finset.sum_congr rfl fun x hx => ?_).trans (Finset.sum_const_nat fun _ _ => rfl)
  rw [← card_point hle (hpoints x hx), Finset.filter_filter]
  refine congrArg Finset.card (Finset.filter_congr fun word _ => ?_)
  constructor
  · rintro ⟨⟨-, hcounts⟩, hpoint⟩
    exact ⟨hpoint, hcounts⟩
  · rintro ⟨hpoint, hcounts⟩
    exact ⟨⟨hpoint ▸ hx, hcounts⟩, hpoint⟩

/-! ## What a word decides -/

/-- The place of the queue for which a word decides, if the word is not passed over. -/
def decision (entries : List (String × Nat)) (word : UInt32) : Option Nat :=
  let product := word.toNat * total entries
  if product % Text.bound32 ≤ zone (total entries) then
    placeOf entries (product / Text.bound32)
  else none

lemma point_lt (hpos : 0 < sum) (word : UInt32) : word.toNat * sum / Text.bound32 < sum :=
  Nat.div_lt_of_lt_mul (Nat.mul_lt_mul_of_pos_right word.toNat_lt hpos)

lemma take_add_le_total {entry : String × Nat} (h : entries[place]? = some entry) :
    total (entries.take place) + entry.2 ≤ total entries := by
  induction entries generalizing place with
  | nil => cases h
  | cons first rest ih =>
    cases place with
    | zero =>
      cases h
      simp [total]
    | succ place =>
      have hrest := ih (List.getElem?_cons_succ ▸ h)
      simp only [List.take_succ_cons, total]
      omega

lemma exists_place (h : point < total entries) : ∃ place, placeOf entries point = some place := by
  obtain ⟨name, weight, -, hat⟩ := atPoint_of_lt h
  rw [atPoint_eq] at hat
  cases hplace : placeOf entries point with
  | none =>
    rw [hplace] at hat
    cases hat
  | some place => exact ⟨place, rfl⟩

lemma decision_eq_some_iff {entry : String × Nat} {word : UInt32}
    (h : entries[place]? = some entry) :
    decision entries word = some place ↔
      word.toNat * total entries / Text.bound32 ∈ Finset.Ico (total (entries.take place))
        (total (entries.take place) + entry.2) ∧
      word.toNat * total entries % Text.bound32 ≤ zone (total entries) := by
  simp only [decision]
  split
  · next hcounts => simp [hcounts, placeOf_eq_some_iff, h]
  · next hcounts => simp [hcounts]

/-- A word is passed over exactly if its product does not count for its point. -/
lemma decision_eq_none_iff (hpos : 0 < total entries) {word : UInt32} :
    decision entries word = none ↔
      ¬ word.toNat * total entries % Text.bound32 ≤ zone (total entries) := by
  obtain ⟨place, hplace⟩ := exists_place (point_lt hpos word)
  simp [decision, hplace]

/-- The words that decide for a queue. -/
lemma card_decision (hle : total entries ≤ 2 ^ 32) {entry : String × Nat}
    (h : entries[place]? = some entry) :
    (Finset.univ.filter fun word => decision entries word = some place).card =
      entry.2 * (2 ^ 32 / total entries) := by
  have hfits := take_add_le_total h
  have hpoints : ∀ x ∈ Finset.Ico (total (entries.take place))
      (total (entries.take place) + entry.2), x < total entries := by
    intro x hx
    have hlt := (Finset.mem_Ico.mp hx).2
    omega
  simp only [decision_eq_some_iff h]
  rw [card_points hle hpoints, Nat.card_Ico, Nat.add_sub_cancel_left]

/-- The words that are passed over. -/
lemma card_decision_none (hpos : 0 < total entries) (hle : total entries ≤ 2 ^ 32) :
    (Finset.univ.filter fun word => decision entries word = none).card =
      2 ^ 32 % total entries := by
  have hrange : ∀ x ∈ Finset.range (total entries), x < total entries := by simp
  have hcount := card_points hle hrange
  simp only [Finset.mem_range, point_lt hpos, true_and, Finset.card_range] at hcount
  have hwords : Fintype.card UInt32 = 2 ^ 32 := FinEnum.card_eq_fintypeCard.symm
  have hsplit := Finset.card_filter_add_card_filter_not (s := Finset.univ) fun word : UInt32 =>
    word.toNat * total entries % Text.bound32 ≤ zone (total entries)
  rw [hcount, Finset.card_univ, hwords] at hsplit
  have hdiv := Nat.div_add_mod (2 ^ 32) (total entries)
  simp only [decision_eq_none_iff hpos]
  omega

/-! ## Words in a row -/

section Rows

variable {Word Choice : Type} [Fintype Word] [DecidableEq Choice]

/-- The rows of words of a length of which the first that decides does so for a choice, or of which
none does. -/
def rows (decide : Word → Option Choice) (length : Nat) (choice : Option Choice) :
    Finset (Fin length → Word) :=
  Finset.univ.filter fun words => (List.ofFn words).findSome? decide = choice

/-- A row begins with a word that decides, or with one that leaves the decision to the others. -/
lemma card_rows_cons (decide : Word → Option Choice) (length : Nat) (choice : Option Choice) :
    (rows decide (length + 1) choice).card = ∑ word,
      match decide word with
      | some first => if some first = choice then Fintype.card Word ^ length else 0
      | none => (rows decide length choice).card := by
  rw [rows, Finset.card_filter, ← (Fin.consEquiv fun _ => Word).sum_comp, Fintype.sum_prod_type]
  refine Finset.sum_congr rfl fun word _ => ?_
  simp only [Fin.consEquiv, Equiv.coe_fn_mk, List.ofFn_cons, List.findSome?_cons]
  cases decide word with
  | some first => by_cases hfirst : some first = choice <;> simp [hfirst]
  | none => exact (Finset.card_filter _ _).symm

lemma card_rows_some (decide : Word → Option Choice) (length : Nat) (choice : Choice) :
    (rows decide (length + 1) (some choice)).card =
      (Finset.univ.filter fun word => decide word = some choice).card *
          Fintype.card Word ^ length +
        (Finset.univ.filter fun word => decide word = none).card *
          (rows decide length (some choice)).card := by
  rw [card_rows_cons, Finset.card_filter, Finset.card_filter, Finset.sum_mul, Finset.sum_mul,
    ← Finset.sum_add_distrib]
  refine Finset.sum_congr rfl fun word _ => ?_
  cases decide word <;> simp

/-- The decision stays open only while every word leaves it open. -/
lemma card_rows_none (decide : Word → Option Choice) (length : Nat) :
    (rows decide length none).card =
      (Finset.univ.filter fun word => decide word = none).card ^ length := by
  induction length with
  | zero => simp [rows]
  | succ length ih =>
    rw [card_rows_cons, Nat.pow_succ, Nat.mul_comm, ← ih, Finset.card_filter, Finset.sum_mul]
    refine Finset.sum_congr rfl fun word _ => ?_
    cases decide word <;> simp

/-- If every choice has so many words of its own and so many words decide at all, it has the same
share of the rows. -/
lemma card_rows_mul {decide : Word → Option Choice} {choice : Choice} {weight sum each : Nat}
    (hchoice : (Finset.univ.filter fun word => decide word = some choice).card = weight * each)
    (hall : sum * each + (Finset.univ.filter fun word => decide word = none).card =
      Fintype.card Word) (length : Nat) :
    sum * (rows decide length (some choice)).card + weight * (rows decide length none).card =
      weight * Fintype.card Word ^ length := by
  induction length with
  | zero => simp [rows]
  | succ length ih =>
    rw [card_rows_some, hchoice]
    rw [card_rows_none] at ih ⊢
    generalize (rows decide length (some choice)).card = chosen at ih ⊢
    generalize (Finset.univ.filter fun word => decide word = none).card = passed at hall ih ⊢
    calc sum * (weight * each * Fintype.card Word ^ length + passed * chosen) +
          weight * passed ^ (length + 1)
        = weight * (sum * each) * Fintype.card Word ^ length +
          passed * (sum * chosen + weight * passed ^ length) := by ring
      _ = weight * (sum * each + passed) * Fintype.card Word ^ length := by rw [ih]; ring
      _ = weight * Fintype.card Word ^ (length + 1) := by rw [hall]; ring

end Rows

/-! ## The choice -/

/-- The queues that are served and have work, in the order of configuration. -/
def contenders (entries : List (String × Nat)) (hasWork : String → Bool) : List (String × Nat) :=
  entries.filter fun entry => decide (0 < entry.2) && hasWork entry.1

lemma candidates_ofList (entries : List (String × Nat)) (hasWork : String → Bool) :
    (ofList entries).candidates hasWork = contenders entries hasWork := by
  simp only [candidates, ofList, contenders, List.filter_filter]
  refine List.filter_congr fun entry _ => ?_
  rw [Bool.and_comm]

/-- The first word decides, unless it is passed over. -/
lemma pick_cons {weights : QueueWeights} (hseveral : 2 ≤ (weights.candidates hasWork).length)
    (word : UInt32) (rest : List UInt32) :
    weights.pick hasWork (word :: rest) =
      match decision (weights.candidates hasWork) word with
      | some place => ((weights.candidates hasWork)[place]?.map (·.1), rest)
      | none => weights.pick hasWork rest := by
  unfold pick
  have hpos : 0 < total (weights.candidates hasWork) := by
    cases hcandidates : weights.candidates hasWork with
    | nil => simp [hcandidates] at hseveral
    | cons entry others => exact hcandidates ▸ total_pos (hcandidates ▸ List.mem_cons_self)
  obtain ⟨place, hplace⟩ := exists_place (point_lt hpos word)
  match hcandidates : weights.candidates hasWork with
  | [] => simp [hcandidates] at hseveral
  | [entry] => simp [hcandidates] at hseveral
  | first :: second :: others =>
    rw [hcandidates] at hplace
    simp only [sample, decision]
    split
    · simp only [hplace, atPoint_eq]
      rfl
    · rfl

lemma total_contenders_pos {entry : String × Nat}
    (h : entry ∈ contenders entries hasWork) : 0 < total (contenders entries hasWork) := by
  rw [← candidates_ofList] at h ⊢
  exact total_pos h

/-- What it means that a choice among the queues of a configuration is fair: each queue that has
work is chosen in proportion to its weight, and the others count for nothing. -/
structure FairChoice (entries : List (String × Nat)) (hasWork : String → Bool) : Prop where
  /-- There is no choice exactly if no queue has work. -/
  none_iff : ∀ words, ((ofList entries).pick hasWork words).1 = none ↔
    contenders entries hasWork = []
  /-- A queue that is chosen is one of those that have work. -/
  chosen : ∀ words name, ((ofList entries).pick hasWork words).1 = some name →
    ∃ weight, (name, weight) ∈ contenders entries hasWork
  /-- One alone is chosen without a word. -/
  alone : ∀ entry words, contenders entries hasWork = [entry] →
    (ofList entries).pick hasWork words = (some entry.1, words)
  /-- Among several, a word decides at once or is passed over. -/
  word : 2 ≤ (contenders entries hasWork).length → ∀ word rest,
    (ofList entries).pick hasWork (word :: rest) =
      match decision (contenders entries hasWork) word with
      | some place => ((contenders entries hasWork)[place]?.map (·.1), rest)
      | none => (ofList entries).pick hasWork rest
  /-- So the first word that is not passed over decides. -/
  settled : 2 ≤ (contenders entries hasWork).length → ∀ words place rest,
    words.findSome? (decision (contenders entries hasWork)) = some place →
    ((ofList entries).pick hasWork (words ++ rest)).1 =
      (contenders entries hasWork)[place]?.map (·.1)
  /-- Each queue has as many words as its weight says, and not none. -/
  share : ∀ (place : Nat) (entry : String × Nat),
    (contenders entries hasWork)[place]? = some entry →
    (Finset.univ.filter fun word =>
      decision (contenders entries hasWork) word = some place).card =
        entry.2 * (2 ^ 32 / total (contenders entries hasWork)) ∧
    0 < entry.2 * (2 ^ 32 / total (contenders entries hasWork))
  /-- The other words are passed over, and they are fewer than the sum of the weights. -/
  passed : contenders entries hasWork ≠ [] →
    (Finset.univ.filter fun word => decision (contenders entries hasWork) word = none).card =
      2 ^ 32 % total (contenders entries hasWork) ∧
    2 ^ 32 % total (contenders entries hasWork) < total (contenders entries hasWork)
  /-- Of the rows of words that decide, each queue has exactly the share of its weight. -/
  row : ∀ (place : Nat) (entry : String × Nat),
    (contenders entries hasWork)[place]? = some entry → ∀ length,
    total (contenders entries hasWork) *
        (rows (decision (contenders entries hasWork)) length (some place)).card =
      entry.2 * ((2 ^ 32) ^ length -
        (rows (decision (contenders entries hasWork)) length none).card)
  /-- Queues without work and queues of weight zero have no part in the choice. -/
  others : ∀ words, (ofList entries).pick hasWork words =
    (ofList (contenders entries hasWork)).pick (fun _ => true) words

/-- The first word that is not passed over decides. -/
lemma pick_append {weights : QueueWeights} (hseveral : 2 ≤ (weights.candidates hasWork).length)
    {words : List UInt32}
    (h : words.findSome? (decision (weights.candidates hasWork)) = some place)
    (rest : List UInt32) :
    (weights.pick hasWork (words ++ rest)).1 =
      (weights.candidates hasWork)[place]?.map (·.1) := by
  induction words with
  | nil => cases h
  | cons word words ih =>
    rw [List.cons_append, pick_cons hseveral]
    rw [List.findSome?_cons] at h
    cases hword : decision (weights.candidates hasWork) word with
    | some first =>
      rw [hword] at h
      cases h
      rfl
    | none =>
      rw [hword] at h
      exact ih h

/-- **The choice among queues is exactly fair**, as long as the sum of the weights is a number of 32
bits. -/
theorem pick_fair (entries : List (String × Nat)) (hasWork : String → Bool)
    (hsum : total (contenders entries hasWork) < 2 ^ 32) : FairChoice entries hasWork where
  none_iff words := by
    rw [pick_eq_none_iff, ← candidates_eq_nil_iff, candidates_ofList]
  chosen words name h := by
    rw [← candidates_ofList]
    cases hcandidates : (ofList entries).candidates hasWork with
    | nil => simp [pick, hcandidates] at h
    | cons entry rest =>
      obtain ⟨other, weight, hmem, hother⟩ :=
        pick_of_candidates (hcandidates ▸ List.mem_cons_self) words
      cases h.symm.trans hother
      exact ⟨weight, hcandidates ▸ hmem⟩
  alone entry words h := by
    rw [← candidates_ofList] at h
    simp [pick, h]
  word hseveral word rest := by
    rw [← candidates_ofList] at hseveral ⊢
    exact pick_cons hseveral word rest
  settled hseveral words place rest h := by
    rw [← candidates_ofList] at hseveral h ⊢
    exact pick_append hseveral h rest
  share place entry h := by
    have hmem := List.mem_of_getElem? h
    have hpos := total_contenders_pos hmem
    have hweight : 0 < entry.2 := by
      rw [contenders, List.mem_filter] at hmem
      simp_all
    exact ⟨card_decision hsum.le h, Nat.mul_pos hweight (Nat.div_pos hsum.le hpos)⟩
  passed hsome := by
    obtain ⟨entry, hentry⟩ := List.exists_mem_of_ne_nil _ hsome
    have hpos := total_contenders_pos hentry
    exact ⟨card_decision_none hpos hsum.le, Nat.mod_lt _ hpos⟩
  row place entry h length := by
    have hpos := total_contenders_pos (List.mem_of_getElem? h)
    have hwords : Fintype.card UInt32 = 2 ^ 32 := FinEnum.card_eq_fintypeCard.symm
    have hall : total (contenders entries hasWork) * (2 ^ 32 / total (contenders entries hasWork)) +
        (Finset.univ.filter fun word =>
          decision (contenders entries hasWork) word = none).card = Fintype.card UInt32 := by
      rw [card_decision_none hpos hsum.le, Nat.div_add_mod, hwords]
    have hrows := card_rows_mul (card_decision hsum.le h) hall length
    rw [hwords] at hrows
    rw [Nat.mul_sub]
    omega
  others words := by
    have hsame : (ofList (contenders entries hasWork)).candidates (fun _ => true) =
        (ofList entries).candidates hasWork := by
      rw [candidates_ofList, candidates_ofList, contenders, contenders, List.filter_filter]
      refine List.filter_congr fun entry _ => ?_
      cases decide (0 < entry.2) <;> simp
    unfold pick
    rw [hsame]

/-! ### Three queues, one without work -/

/-- Weights of which one is zero. -/
def someWeights : List (String × Nat) := [("urgent", 3), ("usual", 2), ("idle", 7), ("off", 0)]

theorem urgent_has_three_fifths :
    total (contenders someWeights (· != "idle")) < 2 ^ 32 ∧
      FairChoice someWeights (· != "idle") ∧
      (Finset.univ.filter fun word =>
        decision (contenders someWeights (· != "idle")) word = some 0).card = 2576980377 ∧
      (Finset.univ.filter fun word =>
        decision (contenders someWeights (· != "idle")) word = none).card = 1 := by
  have hsum : total (contenders someWeights (· != "idle")) < 2 ^ 32 := by decide
  have hfair := pick_fair someWeights (· != "idle") hsum
  exact ⟨hsum, hfair, (hfair.share 0 ("urgent", 3) rfl).1, (hfair.passed (by decide)).1⟩

end QueueWeights
end WorkQueue
