import Mathlib.Tactic.Lemma
import WorkQueue.Text.Lowercase

/-!
# Texts that are in lower case

Of the first 192 characters only the capital letters of the alphabet have another lower-case form.
So a text of other characters of these is left alone (`lower_eq_self`).
-/

namespace WorkQueue.Text

variable {c : Char} {s : String} {characters : List Char}

/-- Whether a character is one of the first that have no other lower-case form. -/
def isSmall (c : Char) : Bool :=
  c.toNat < 0xC0 && !('A' ≤ c && c ≤ 'Z')

/-- The first run is that of the capital letters of the alphabet, and the others are further on. -/
lemma lowerRuns_range :
    ∀ run ∈ lowerRuns, (run.1 = 0x41 ∧ run.2.1 = 0x5A) ∨ 0xC0 ≤ run.1 := by
  decide +kernel

lemma lowerChar_of_isSmall (h : isSmall c = true) : lowerChar c = c := by
  simp only [isSmall, Bool.and_eq_true, decide_eq_true_eq, Bool.not_eq_true', Bool.and_eq_false_iff,
    decide_eq_false_iff_not] at h
  obtain ⟨hcode, hletter⟩ := h
  have hcapital : ¬ (0x41 ≤ c.toNat ∧ c.toNat ≤ 0x5A) := fun hrange =>
    hletter.elim (fun h => h hrange.1) (fun h => h hrange.2)
  simp only [lowerChar]
  split
  · next first last step difference hfound =>
    have hrange : (first = 0x41 ∧ last = 0x5A) ∨ 0xC0 ≤ first :=
      lowerRuns_range _ (List.mem_of_find?_eq_some hfound)
    have hmatch := List.find?_some hfound
    simp only [Bool.and_eq_true, decide_eq_true_eq] at hmatch
    omega
  · rfl

lemma lowerFrom_eq_self (h : ∀ c ∈ characters, isSmall c = true) (before : List Char) :
    lowerFrom before characters = characters := by
  induction characters generalizing before with
  | nil => rfl
  | cons c rest ih =>
    obtain ⟨hc, hrest⟩ := List.forall_mem_cons.mp h
    have hother : ∀ d : Char, isSmall d = false → c ≠ d := by
      rintro d hd rfl
      exact Bool.false_ne_true (hd.symm.trans hc)
    have hdotted : c ≠ '\u0130' := hother _ (by decide)
    have hsigma : c ≠ '\u03A3' := hother _ (by decide)
    simp only [lowerFrom, beq_iff_eq, hdotted, hsigma, if_false, lowerChar_of_isSmall hc, ih hrest]

/-- **A text without capital letters** of the first characters is in lower case. -/
theorem lower_eq_self (h : ∀ c ∈ s.toList, isSmall c = true) : lower s = s := by
  rw [lower, lowerFrom_eq_self h, String.ofList_toList]

/-- A sigma ends a word behind a letter, even if something that is no letter stands between. -/
example : lower "A'Σ. ıΣ" = "a'ς. ıς" := by
  decide +kernel

end WorkQueue.Text
