import Mathlib.Tactic.Lemma
import WorkQueue.Text.Utf8

/-!
# Octets of a text

The octets of a text decode to its characters (`decode_encode`), and none of them is damaged.  The
encoding of a character has from one to four octets, and the first of them says how many
(`first_one` to `first_four`); `first` then finds each of the others in its range.
-/

namespace WorkQueue.Text.Utf8

variable {v : Nat} {rest : List UInt8}

/-! ## Octets as numbers -/

lemma toList_loop (bytes : ByteArray) (place : Nat) (done : List UInt8) :
    ByteArray.toList.loop bytes place done = done.reverse ++ bytes.data.toList.drop place := by
  have hsize : bytes.data.toList.length = bytes.size := by rw [Array.length_toList]; rfl
  induction left : bytes.size - place generalizing place done with
  | zero =>
    rw [ByteArray.toList.loop, if_neg (by omega), List.drop_eq_nil_of_le (by omega),
      List.append_nil]
  | succ left ih =>
    have hplace : place < bytes.data.toList.length := by omega
    have hget : bytes.get! place = bytes.data.toList[place] :=
      getElem!_pos bytes.data place (Array.length_toList ▸ hplace)
    rw [ByteArray.toList.loop, if_pos (by omega), ih (place + 1) _ (by omega), hget,
      List.drop_eq_getElem_cons hplace]
    simp

lemma encode_eq (s : String) : encode s = s.toList.flatMap String.utf8EncodeChar := by
  have hbytes : s.toUTF8 = (s.toList.flatMap String.utf8EncodeChar).toByteArray :=
    String.utf8Encode_toList.symm
  rw [encode, hbytes, ByteArray.toList, toList_loop]
  simp

/-! ## One character -/

variable {a b c d : UInt8}

lemma isTail_iff : isTail b = true ↔ 0x80 ≤ b.toNat ∧ b.toNat ≤ 0xBF := by
  simp [isTail, UInt8.le_iff_toNat_le]

lemma first_one (h : a.toNat < 0x80) : first a rest = (some (Char.ofNat a.toNat), 0) := by
  have hlow : a < 0x80 := UInt8.lt_iff_toNat_lt.mpr h
  simp [first, hlow]

lemma first_two (h : 0xC2 ≤ a.toNat) (h' : a.toNat ≤ 0xDF) (hb : isTail b = true) :
    first a (b :: rest) = (some (assemble (a.toNat - 0xC0) [b]), 1) := by
  have hlead : ¬ a < 0x80 ∧ 0xC2 ≤ a ∧ a ≤ 0xDF := by
    simp only [UInt8.lt_iff_toNat_lt, UInt8.le_iff_toNat_le]
    simp
    omega
  simp [first, hlead, hb]

lemma first_three (h : 0xE0 ≤ a.toNat) (h' : a.toNat ≤ 0xEF) (hb : secondOfThree a b = true)
    (hc : isTail c = true) :
    first a (b :: c :: rest) = (some (assemble (a.toNat - 0xE0) [b, c]), 2) := by
  have hlead : ¬ a < 0x80 ∧ ¬ a ≤ 0xDF ∧ 0xE0 ≤ a ∧ a ≤ 0xEF := by
    simp only [UInt8.lt_iff_toNat_lt, UInt8.le_iff_toNat_le]
    simp
    omega
  simp [first, hlead, hb, hc]

lemma first_four (h : 0xF0 ≤ a.toNat) (h' : a.toNat ≤ 0xF4) (hb : secondOfFour a b = true)
    (hc : isTail c = true) (hd : isTail d = true) :
    first a (b :: c :: d :: rest) = (some (assemble (a.toNat - 0xF0) [b, c, d]), 3) := by
  have hlead : ¬ a < 0x80 ∧ ¬ a ≤ 0xDF ∧ ¬ a ≤ 0xEF ∧ 0xF0 ≤ a ∧ a ≤ 0xF4 := by
    simp only [UInt8.lt_iff_toNat_lt, UInt8.le_iff_toNat_le]
    simp
    omega
  simp [first, hlead, hb, hc, hd]

/-- The second of three octets, unless the encoding is overlong or that of a surrogate. -/
lemma secondOfThree_of (hb : isTail b = true) (hlow : a.toNat = 0xE0 → 0xA0 ≤ b.toNat)
    (hhigh : a.toNat = 0xED → b.toNat ≤ 0x9F) : secondOfThree a b = true := by
  have htail := isTail_iff.mp hb
  simp only [secondOfThree, beq_iff_eq, ← UInt8.toNat_inj, UInt8.reduceToNat]
  split
  · next ha => simpa [UInt8.le_iff_toNat_le] using ⟨hlow ha, htail.2⟩
  · split
    · next ha => simpa [UInt8.le_iff_toNat_le] using ⟨htail.1, hhigh ha⟩
    · exact hb

/-- The second of four octets, unless the encoding is overlong or there is no such character. -/
lemma secondOfFour_of (hb : isTail b = true) (hlow : a.toNat = 0xF0 → 0x90 ≤ b.toNat)
    (hhigh : a.toNat = 0xF4 → b.toNat ≤ 0x8F) : secondOfFour a b = true := by
  have htail := isTail_iff.mp hb
  simp only [secondOfFour, beq_iff_eq, ← UInt8.toNat_inj, UInt8.reduceToNat]
  split
  · next ha => simpa [UInt8.le_iff_toNat_le] using ⟨hlow ha, htail.2⟩
  · split
    · next ha => simpa [UInt8.le_iff_toNat_le] using ⟨htail.1, hhigh ha⟩
    · exact hb

lemma toNat_octet {n : Nat} (h : n < 256) : (UInt8.ofNat n).toNat = n := by
  simpa using h

lemma isTail_octet (n : Nat) : isTail (.ofNat (n % 64 + 128)) = true := by
  rw [isTail_iff, toNat_octet (by omega)]
  omega

lemma assemble_two (h : v < 0x800) :
    assemble ((UInt8.ofNat (v / 64 % 32 + 192)).toNat - 0xC0) [.ofNat (v % 64 + 128)] =
      Char.ofNat v := by
  have ha : (UInt8.ofNat (v / 64 % 32 + 192)).toNat = v / 64 + 192 := by
    rw [toNat_octet] <;> omega
  have hb : (UInt8.ofNat (v % 64 + 128)).toNat = v % 64 + 128 := toNat_octet (by omega)
  simp only [assemble, ha, hb, List.foldl_cons, List.foldl_nil]
  exact congrArg Char.ofNat (by omega)

lemma assemble_three (h : v < 0x10000) :
    assemble ((UInt8.ofNat (v / 4096 % 16 + 224)).toNat - 0xE0)
      [.ofNat (v / 64 % 64 + 128), .ofNat (v % 64 + 128)] = Char.ofNat v := by
  have ha : (UInt8.ofNat (v / 4096 % 16 + 224)).toNat = v / 4096 + 224 := by
    rw [toNat_octet] <;> omega
  have hb : (UInt8.ofNat (v / 64 % 64 + 128)).toNat = v / 64 % 64 + 128 := toNat_octet (by omega)
  have hc : (UInt8.ofNat (v % 64 + 128)).toNat = v % 64 + 128 := toNat_octet (by omega)
  simp only [assemble, ha, hb, hc, List.foldl_cons, List.foldl_nil]
  exact congrArg Char.ofNat (by omega)

lemma assemble_four (h : v < 0x110000) :
    assemble ((UInt8.ofNat (v / 262144 % 8 + 240)).toNat - 0xF0)
      [.ofNat (v / 4096 % 64 + 128), .ofNat (v / 64 % 64 + 128), .ofNat (v % 64 + 128)] =
        Char.ofNat v := by
  have ha : (UInt8.ofNat (v / 262144 % 8 + 240)).toNat = v / 262144 + 240 := by
    rw [toNat_octet] <;> omega
  have hb : (UInt8.ofNat (v / 4096 % 64 + 128)).toNat = v / 4096 % 64 + 128 :=
    toNat_octet (by omega)
  have hc : (UInt8.ofNat (v / 64 % 64 + 128)).toNat = v / 64 % 64 + 128 := toNat_octet (by omega)
  have hd : (UInt8.ofNat (v % 64 + 128)).toNat = v % 64 + 128 := toNat_octet (by omega)
  simp only [assemble, ha, hb, hc, hd, List.foldl_cons, List.foldl_nil]
  exact congrArg Char.ofNat (by omega)

/-- The character at the head of an encoding is the one that was encoded. -/
lemma first_encodeChar (c : Char) (rest : List UInt8) :
    ∃ lead tails, String.utf8EncodeChar c = lead :: tails ∧
      first lead (tails ++ rest) = (some c, tails.length) := by
  have hvalid : c.toNat < 0xD800 ∨ 0xDFFF < c.toNat ∧ c.toNat < 0x110000 := c.valid
  have hchar : Char.ofNat c.toNat = c := Char.ofNat_toNat c
  have hcode : c.val.toNat = c.toNat := rfl
  simp only [String.utf8EncodeChar, hcode]
  generalize c.toNat = v at hvalid hchar
  subst hchar
  have hoctet : ∀ n, (UInt8.ofNat (n % 64 + 128)).toNat = n % 64 + 128 := fun n =>
    toNat_octet (by omega)
  split
  · next h =>
    have ha : (UInt8.ofNat v).toNat = v := toNat_octet (by omega)
    have hfirst : first (.ofNat v) rest = (some (Char.ofNat (UInt8.ofNat v).toNat), 0) :=
      first_one (by omega)
    rw [ha] at hfirst
    exact ⟨_, [], rfl, hfirst⟩
  · split
    · next h =>
      have ha : (UInt8.ofNat (v / 64 % 32 + 192)).toNat = v / 64 + 192 := by
        rw [toNat_octet] <;> omega
      refine ⟨_, _, rfl, ?_⟩
      exact assemble_two (v := v) (by omega) ▸ first_two (by omega) (by omega) (isTail_octet v)
    · split
      · next h =>
        have ha : (UInt8.ofNat (v / 4096 % 16 + 224)).toNat = v / 4096 + 224 := by
          rw [toNat_octet] <;> omega
        refine ⟨_, _, rfl, ?_⟩
        refine assemble_three (v := v) (by omega) ▸ first_three (by omega) (by omega)
          (secondOfThree_of (isTail_octet _) ?_ ?_) (isTail_octet v)
        all_goals
          rw [ha, hoctet]
          omega
      · next h =>
        have ha : (UInt8.ofNat (v / 262144 % 8 + 240)).toNat = v / 262144 + 240 := by
          rw [toNat_octet] <;> omega
        refine ⟨_, _, rfl, ?_⟩
        refine assemble_four (v := v) (by omega) ▸ first_four (by omega) (by omega)
          (secondOfFour_of (isTail_octet _) ?_ ?_) (isTail_octet _) (isTail_octet v)
        all_goals
          rw [ha, hoctet]
          omega

/-! ## Texts -/

lemma decode_encodeChar (c : Char) (rest : List UInt8) :
    decode (String.utf8EncodeChar c ++ rest) = .char c :: decode rest := by
  obtain ⟨lead, tails, hencode, hfirst⟩ := first_encodeChar c rest
  rw [hencode, List.cons_append, decode]
  simp [hfirst]

/-- The octets of a text decode to its characters. -/
theorem decode_encode (s : String) : decode (encode s) = symbols s := by
  rw [encode_eq, symbols]
  induction s.toList with
  | nil => simp [decode]
  | cons c rest ih => rw [List.flatMap_cons, decode_encodeChar, ih, List.map_cons]

/-! ## Sizes -/

lemma utf8Size_of_isAlphanum {c : Char} (h : c.isAlphanum = true) : c.utf8Size = 1 := by
  have hranges : ((decide (c.val ≥ 'A'.val ∧ c.val ≤ 'Z'.val) ||
      (decide (c.val ≥ 'a'.val) && decide (c.val ≤ 'z'.val))) ||
      (decide (c.val ≥ '0'.val) && decide (c.val ≤ '9'.val))) = true := h
  simp only [Bool.or_eq_true, Bool.and_eq_true, decide_eq_true_eq] at hranges
  rw [Char.utf8Size_eq_one_iff]
  rcases hranges with (⟨-, hlast⟩ | ⟨-, hlast⟩) | ⟨-, hlast⟩ <;>
    exact UInt32.le_trans hlast (by decide)

/-- The octets of a text are those of its characters. -/
lemma utf8ByteSize_eq (s : String) :
    s.utf8ByteSize = (s.toList.flatMap String.utf8EncodeChar).length := by
  have hbytes : s.toByteArray = (s.toList.flatMap String.utf8EncodeChar).toByteArray :=
    String.utf8Encode_toList.symm
  rw [← String.size_toByteArray, hbytes, List.size_toByteArray]

/-- A character has from one to four octets. -/
lemma length_flatMap_encodeChar (s : List Char) :
    s.length ≤ (s.flatMap String.utf8EncodeChar).length ∧
      (s.flatMap String.utf8EncodeChar).length ≤ 4 * s.length := by
  induction s with
  | nil => exact ⟨Nat.le_refl _, Nat.le_refl _⟩
  | cons c rest ih =>
    have hleast := c.utf8Size_pos
    have hmost := c.utf8Size_le_four
    rw [List.flatMap_cons, List.length_append, String.length_utf8EncodeChar, List.length_cons]
    omega

lemma length_le_utf8ByteSize (s : String) : s.length ≤ s.utf8ByteSize := by
  rw [utf8ByteSize_eq, ← String.length_toList]
  exact (length_flatMap_encodeChar s.toList).1

lemma utf8ByteSize_le (s : String) : s.utf8ByteSize ≤ 4 * s.length := by
  rw [utf8ByteSize_eq, ← String.length_toList]
  exact (length_flatMap_encodeChar s.toList).2

lemma length_flatMap_of_single {s : List Char} (h : ∀ c ∈ s, c.utf8Size = 1) :
    (s.flatMap String.utf8EncodeChar).length = s.length := by
  induction s with
  | nil => rfl
  | cons c rest ih =>
    have hrest := ih fun other hother => h other (List.mem_cons_of_mem c hother)
    rw [List.flatMap_cons, List.length_append, hrest, String.length_utf8EncodeChar,
      h c List.mem_cons_self, List.length_cons, Nat.add_comm]

/-- A text has one octet for each character if each of them has one. -/
lemma utf8ByteSize_of_single {s : String} (h : ∀ c ∈ s.toList, c.utf8Size = 1) :
    s.utf8ByteSize = s.length := by
  rw [utf8ByteSize_eq, length_flatMap_of_single h, String.length_toList]

/-- A text of letters and digits has one octet for each. -/
lemma utf8ByteSize_of_isAlphanum {s : String} (h : ∀ c ∈ s.toList, c.isAlphanum = true) :
    s.utf8ByteSize = s.length :=
  utf8ByteSize_of_single fun c hc => utf8Size_of_isAlphanum (h c hc)

end WorkQueue.Text.Utf8
