import Mathlib.Tactic.IntervalCases
import Mathlib.Tactic.Lemma
import WorkQueue.Json.Shape

/-!
# Texts in JSON

What `writeText` writes, `closeText` reads.  A character stands for itself or is escaped
(`escape_cases`), and in both cases reading takes exactly what was written for it.
-/

namespace WorkQueue.Json

open WorkQueue.Text

variable {α : Type} {c : Char} {symbol : Symbol} {rest : List Symbol}

/-! ## One character -/

/-- Controls are escaped by a letter or by their code, which is read back. -/
lemma unescape_control (h : c.toNat < 0x20) :
    ∃ more, escape c = '\\' :: more ∧
      ∀ rest, unescape (more.map .char ++ rest) = .ok (c, more.length) := by
  have hchar : Char.ofNat c.toNat = c := Char.ofNat_toNat c
  generalize c.toNat = v at h hchar
  subst hchar
  interval_cases v <;> exact ⟨_, rfl, fun _ => rfl⟩

lemma escape_plain (hquote : c ≠ '"') (hback : c ≠ '\\') (h : 0x20 ≤ c.toNat) :
    escape c = [c] := by
  have hcontrol : ∀ d : Char, d.toNat < 0x20 → c ≠ d := by
    rintro d hd rfl
    omega
  have hcode : ¬ c.toNat = 8 ∧ ¬ c.toNat = 12 ∧ ¬ c.toNat < 0x10 ∧ ¬ c.toNat < 0x20 := by omega
  simp [escape, hquote, hback, hcode, hcontrol '\n' (by decide), hcontrol '\r' (by decide),
    hcontrol '\t' (by decide)]

/-- A character is written as it is, or as a backslash and an escape that is read back. -/
lemma escape_cases (c : Char) :
    (escape c = [c] ∧ c ≠ '"' ∧ c ≠ '\\' ∧ 0x20 ≤ c.toNat) ∨
      ∃ more, escape c = '\\' :: more ∧
        ∀ rest, unescape (more.map .char ++ rest) = .ok (c, more.length) := by
  by_cases hcontrol : c.toNat < 0x20
  · exact .inr (unescape_control hcontrol)
  · have hcode : 0x20 ≤ c.toNat := by omega
    by_cases hquote : c = '"'
    · subst hquote
      exact .inr ⟨['"'], rfl, fun _ => rfl⟩
    · by_cases hback : c = '\\'
      · subst hback
        exact .inr ⟨['\\'], rfl, fun _ => rfl⟩
      · exact .inl ⟨escape_plain hquote hback hcode, hquote, hback, hcode⟩

/-- Reading takes exactly what was written for a character. -/
lemma textBody_escape (c : Char) (rest : List Symbol) :
    textBody ((escape c).map .char ++ rest) =
      (textBody rest).map fun read => (.char c :: read.1, read.2) := by
  rcases escape_cases c with ⟨hescape, hquote, hback, hcode⟩ | ⟨more, hescape, hunescape⟩
  · rw [hescape, List.map_singleton, List.singleton_append, textBody]
    simp [hquote, hback, Nat.not_lt.mpr hcode]
  · rw [hescape, List.map_cons, List.cons_append, textBody]
    simp [hunescape rest]

/-! ## Whole texts -/

lemma textBody_write (characters : List Char) (rest : List Symbol) :
    textBody ((characters.flatMap escape).map .char ++ .char '"' :: rest) =
      .ok (characters.map .char, rest) := by
  induction characters with
  | nil => simp [textBody]
  | cons c more ih =>
    rw [List.flatMap_cons, List.map_append, List.append_assoc, textBody_escape, ih]
    rfl

lemma undamaged_map (characters : List Char) :
    undamaged (characters.map .char) = some characters := by
  induction characters with
  | nil => rfl
  | cons c more ih => rw [List.map_cons, undamaged, ih]; rfl

/-! ## Readers -/

/-- `reader.Reads text value rest` says that the reader reads the value at the head of the text and
leaves the rest. -/
def Reader.Reads (reader : Reader α) (text : List Symbol) (value : α)
    (rest : List Symbol) : Prop :=
  StateT.run reader text = .ok (value, rest)

namespace Reader

variable {β : Type} {text : List Symbol} {value : α}

lemma reads_pure (value : α) (text : List Symbol) : Reads (pure value) text value text := rfl

/-- A reader that is followed by another. -/
lemma Reads.bind {reader : Reader α} {next : α → Reader β} {left : List Symbol} {result : β}
    (h : reader.Reads text value left) (hnext : (next value).Reads left result rest) :
    Reads (reader >>= next) text result rest := by
  unfold Reads at *
  rw [StateT.run_bind, h]
  exact hnext

lemma reads_get (text : List Symbol) : Reads (get : Reader (List Symbol)) text text text := rfl

lemma reads_set (text rest : List Symbol) : Reads (set rest) text ⟨⟩ rest := rfl

lemma reads_lift {outcome : Except Fault α} (h : outcome = .ok value) (text : List Symbol) :
    Reads (liftM outcome) text value text := by
  rw [h]
  rfl

lemma reads_skip (symbol : Symbol) (rest : List Symbol) :
    Reads skip (symbol :: rest) () rest := rfl

/-- Looking at a symbol that is no space leaves it there. -/
lemma reads_peek (h : isSpace symbol = false) (rest : List Symbol) :
    Reads peek (symbol :: rest) (some symbol) (symbol :: rest) := by
  have hdrop : (symbol :: rest).dropWhile isSpace = symbol :: rest := by
    rw [List.dropWhile_cons_of_neg (by simp [h])]
  unfold Reads
  simp [peek, hdrop]
  rfl

end Reader

open Reader

/-! ## Texts -/

/-- What is written of a text after its opening quote is read back, up to its closing quote. -/
lemma reads_closeText (s : String) (rest : List Symbol) :
    closeText.Reads ((s.toList.flatMap escape).map .char ++ .char '"' :: rest) s rest := by
  refine (reads_get _).bind ((reads_lift (textBody_write s.toList rest) _).bind ?_)
  simp only [undamaged_map]
  refine (reads_set _ rest).bind ?_
  simpa using reads_pure (String.ofList s.toList) rest

lemma writeText_append (s : String) (rest : List Symbol) :
    (writeText s).map .char ++ rest =
      .char '"' :: ((s.toList.flatMap escape).map .char ++ .char '"' :: rest) := by
  simp [writeText]

/-- What is written of a text is read back. -/
theorem reads_readText (s : String) (rest : List Symbol) :
    readText.Reads ((writeText s).map .char ++ rest) s rest := by
  rw [writeText_append]
  exact (reads_peek rfl _).bind ((reads_skip _ _).bind (reads_closeText s rest))

/-- The name of a field is a text. -/
lemma reads_fieldName (s : String) (rest : List Symbol) :
    fieldName.Reads ((writeText s).map .char ++ rest) s rest := by
  rw [writeText_append]
  exact (reads_peek rfl _).bind ((reads_skip _ _).bind (reads_closeText s rest))

/-! ## Parts of objects -/

lemma reads_colon (rest : List Symbol) : colon.Reads (.char ':' :: rest) () rest :=
  (reads_peek rfl _).bind (reads_skip _ _)

/-- The first part of an object or a list follows its opening symbol. -/
lemma reads_another_first {close : Char} (h : isSpace symbol = false)
    (hclose : symbol ≠ .char close) (rest : List Symbol) :
    (another close true).Reads (symbol :: rest) true (symbol :: rest) := by
  refine (reads_peek h _).bind ?_
  simp only [hclose, if_false, if_true]
  exact reads_pure _ _

/-- There is no other part before the closing symbol. -/
lemma reads_another_close {close : Char} (h : isSpace (.char close) = false) (first : Bool)
    (rest : List Symbol) :
    (another close first).Reads (.char close :: rest) false (.char close :: rest) := by
  refine (reads_peek h _).bind ?_
  simp only [if_true]
  exact reads_pure _ _

/-- A reader that reads a whole text. -/
lemma Reader.Reads.run {reader : Reader α} {text : List Symbol} {value : α}
    (h : reader.Reads text value []) : reader.run text = .ok value := by
  unfold Reader.Reads at h
  simp only [Reader.run, h]
  rfl

end WorkQueue.Json
