import Mathlib.Data.List.Infix
import Mathlib.Tactic.Lemma

/-!
# Links in marked-up texts

A marked-up text opens a tag with `<` and closes it with `>`, and a tag that begins with `a ` is a
link.  `links` reads the links of a text from left to right, and `behind` reads what follows the
first copy of a word, as whoever looks for an address in a message does.

Both are read off texts that are put together from parts.  A word does not reach from one part into
the next if it lacks the character between them (`prefix_append_cons_iff`).  So the links of a part
stand in front of those of the rest (`links_append`), and a word that is not in a part is looked for
in the rest (`behind_append`).
-/

namespace WorkQueue.Text

variable {c : Char} {word front tag s : List Char}

/-! ## Words -/

/-- A word does not reach over a character that it lacks. -/
lemma prefix_append_cons_iff (hc : c ∉ word) (front rest : List Char) :
    word <+: front ++ c :: rest ↔ word <+: front := by
  refine ⟨fun h => ?_, fun h => h.trans (List.prefix_append _ _)⟩
  rcases List.prefix_or_prefix_of_prefix h (List.prefix_append front (c :: rest)) with
    hshort | ⟨more, rfl⟩
  · exact hshort
  · -- What the word has behind the part is empty, or it begins with the character.
    rcases List.prefix_cons_iff.mp ((List.prefix_append_right_inj front).mp h) with
      rfl | ⟨later, rfl, -⟩
    · rw [List.append_nil]
    · exact absurd (List.mem_append_right front List.mem_cons_self) hc

/-- What stands behind the first copy of a word. -/
def behind (word : List Char) : List Char → Option (List Char)
  | [] => none
  | c :: rest =>
    if word <+: c :: rest then some ((c :: rest).drop word.length) else behind word rest

lemma behind_cons_of_not (h : ¬ word <+: c :: s) : behind word (c :: s) = behind word s :=
  if_neg h

/-- A word that is not in a part is looked for behind it and the character after it. -/
lemma behind_append (hfront : ¬ word <:+: front) (hc : c ∉ word) (rest : List Char) :
    behind word (front ++ c :: rest) = behind word rest := by
  induction front with
  | nil =>
    refine behind_cons_of_not fun h => hfront ?_
    exact ((prefix_append_cons_iff hc [] rest).mp h).isInfix
  | cons d front ih =>
    rw [List.infix_cons_iff, not_or] at hfront
    refine (behind_cons_of_not fun h => hfront.1 ?_).trans (ih hfront.2)
    exact (prefix_append_cons_iff hc (d :: front) rest).mp h

/-- A word is looked for behind a part without its first character. -/
lemma behind_append_of_notMem (hword : word.head? = some c) (hc : c ∉ front) (rest : List Char) :
    behind word (front ++ rest) = behind word rest := by
  obtain ⟨more, rfl⟩ := List.head?_eq_some_iff.mp hword
  induction front with
  | nil => rfl
  | cons d front ih =>
    obtain ⟨hd, hfront⟩ := not_or.mp (mt List.mem_cons.mpr hc)
    exact (behind_cons_of_not fun h => hd (List.cons_prefix_cons.mp h).1).trans (ih hfront)

lemma behind_word (hword : word ≠ []) (rest : List Char) :
    behind word (word ++ rest) = some rest := by
  obtain ⟨c, more, rfl⟩ := List.exists_cons_of_ne_nil hword
  refine (if_pos (List.prefix_append (c :: more) rest)).trans (congrArg some ?_)
  exact List.drop_left

/-- What stands before a character is read up to it. -/
lemma takeWhile_append_cons (hc : c ∉ front) (rest : List Char) :
    (front ++ c :: rest).takeWhile (· ≠ c) = front := by
  rw [List.takeWhile_append_of_pos fun d hd => decide_eq_true (ne_of_mem_of_not_mem hd hc),
    List.takeWhile_cons_of_neg (by simp), List.append_nil]

/-! ## Links -/

/-- The tags of a text: what stands behind each `<` up to the next `>`. -/
def tags : List Char → List (List Char)
  | [] => []
  | c :: rest => if c = '<' then rest.takeWhile (· ≠ '>') :: tags rest else tags rest

/-- The beginning of a link. -/
def linkStart : List Char := ['<', 'a', ' ']

/-- The tags of a text that are links. -/
def links (s : List Char) : List (List Char) :=
  (tags s).filter fun tag => linkStart.isPrefixOf ('<' :: tag)

/-- The address of a link: what its first `href` has between quotes. -/
def href? (tag : List Char) : Option (List Char) :=
  (behind "href=\"".toList tag).map fun rest => rest.takeWhile (· ≠ '"')

lemma tags_append (h : '<' ∉ front) (rest : List Char) : tags (front ++ rest) = tags rest := by
  induction front with
  | nil => rfl
  | cons c front ih =>
    obtain ⟨hc, hfront⟩ := not_or.mp (mt List.mem_cons.mpr h)
    rw [List.cons_append, tags, if_neg (Ne.symm hc), ih hfront]

lemma links_append_of_notMem (h : '<' ∉ front) (rest : List Char) :
    links (front ++ rest) = links rest := by
  rw [links, tags_append h, links]

/-- A tag without angle brackets is read as it stands. -/
lemma tags_tag (hopen : '<' ∉ tag) (hclose : '>' ∉ tag) (rest : List Char) :
    tags ('<' :: (tag ++ '>' :: rest)) = tag :: tags rest := by
  rw [tags, if_pos rfl, takeWhile_append_cons hclose, tags_append hopen]
  rfl

/-- Whether a tag is a link is seen at what stands behind its `<`. -/
lemma isPrefixOf_takeWhile (s : List Char) :
    linkStart.isPrefixOf ('<' :: s.takeWhile (· ≠ '>')) = true ↔ linkStart <+: '<' :: s := by
  rw [List.isPrefixOf_iff_prefix]
  constructor
  · exact fun h => h.trans (List.cons_prefix_cons.mpr ⟨rfl, List.takeWhile_prefix _⟩)
  · rintro ⟨more, h⟩
    obtain ⟨-, rfl⟩ := List.cons.inj h
    exact List.prefix_append linkStart (more.takeWhile (· ≠ '>'))

lemma links_cons_of_start (h : linkStart <+: c :: s) :
    links (c :: s) = s.takeWhile (· ≠ '>') :: links s := by
  obtain rfl : '<' = c := (List.cons_prefix_cons.mp h).1
  rw [links, tags, if_pos rfl]
  exact List.filter_cons_of_pos ((isPrefixOf_takeWhile s).mpr h)

lemma links_cons_of_not (h : ¬ linkStart <+: c :: s) : links (c :: s) = links s := by
  by_cases hc : c = '<'
  · subst hc
    rw [links, tags, if_pos rfl]
    exact List.filter_cons_of_neg (mt (isPrefixOf_takeWhile s).mp h)
  · rw [links, tags, if_neg hc, links]

/-- The links of a part, each of them perhaps with more of the text in it, stand in front of those
of the rest. -/
lemma links_append (hc : c ∉ linkStart) (front rest : List Char) :
    ∃ first, links (front ++ c :: rest) = first ++ links rest ∧
      first.length = (links front).length := by
  induction front with
  | nil =>
    refine ⟨[], links_cons_of_not fun h => hc ?_, rfl⟩
    exact (List.cons_prefix_cons.mp h).1 ▸ List.mem_cons_self
  | cons d front ih =>
    obtain ⟨first, hlinks, hlength⟩ := ih
    have hsame := prefix_append_cons_iff hc (d :: front) rest
    by_cases hlink : linkStart <+: d :: front
    · refine ⟨(front ++ c :: rest).takeWhile (· ≠ '>') :: first, ?_, ?_⟩
      · exact (links_cons_of_start (hsame.mpr hlink)).trans (congrArg _ hlinks)
      · rw [links_cons_of_start hlink, List.length_cons, List.length_cons, hlength]
    · refine ⟨first, ?_, ?_⟩
      · exact (links_cons_of_not (mt hsame.mp hlink)).trans hlinks
      · rw [links_cons_of_not hlink, hlength]

end WorkQueue.Text
