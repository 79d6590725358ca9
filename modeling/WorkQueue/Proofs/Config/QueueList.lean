import WorkQueue.Config.Environment
import WorkQueue.Json.Basic
import WorkQueue.Proofs.Table
import WorkQueue.Proofs.Text.Numeral
import WorkQueue.Proofs.Text.Split

/-!
# Lists of queues and weights

A list of queues is cut at its commas, and of the trimmed pieces the empty ones are passed over.
What is left has to be entries (`IsEntry`): a name, an equals sign, which is the first one, and a
numeral for a field of 32 bits, with blanks around each.  A piece that is none has one of two faults
(`Faulty`), and the first of them is the problem of the list.  Of the entries of one name the last
counts (`LastEntry`).

`Listing parts entries` says the other way round which texts show some entries, however they are
ordered, padded with blanks, and mixed with empty pieces; all of them are read as the same table.
`reads_queues` puts both directions together.
-/

namespace WorkQueue
namespace Config

open WorkQueue.Text

variable {piece before after part : List Char} {name : String} {weight : Nat}
  {problem : ConfigProblem} {start queues : Table Nat} {list parts : List (List Char)}
  {entries : List (String × Nat)}

/-! ## Pieces -/

/-- The pieces of a list of queues that are looked at. -/
def queuePieces (raw : String) : List (List Char) :=
  ((pieces ',' raw.toList).map trim).filter fun piece => !piece.isEmpty

lemma parseQueues_eq (raw : String) :
    parseQueues raw = readQueueEntries [] (queuePieces raw) := rfl

/-- The pieces of a text, joined with commas, are the text. -/
lemma commas_pieces (s : List Char) : Json.commas (pieces ',' s) = s := by
  have hjoin : ∀ (c : Char) (first : List Char) (more : List (List Char)),
      Json.commas ((c :: first) :: more) = c :: Json.commas (first :: more) := by
    intro c first more
    cases more with
    | nil => rfl
    | cons next rest => rfl
  induction s with
  | nil => rfl
  | cons c rest ih =>
    rw [pieces]
    cases hpieces : pieces ',' rest with
    | nil => exact absurd hpieces (pieces_ne_nil rest)
    | cons first more =>
      rw [hpieces] at ih
      by_cases hc : c = ','
      · rw [if_pos hc, Json.commas, ih, hc, List.nil_append]
        exact List.cons_ne_nil _ _
      · rw [if_neg hc, hjoin, ih]

lemma pieces_commas (hne : parts ≠ []) (h : ∀ part ∈ parts, ',' ∉ part) :
    pieces ',' (Json.commas parts) = parts := by
  induction parts with
  | nil => exact absurd rfl hne
  | cons part rest ih =>
    obtain ⟨hpart, hrest⟩ := List.forall_mem_cons.mp h
    cases rest with
    | nil => exact pieces_of_notMem hpart
    | cons next rest =>
      rw [Json.commas, pieces_append hpart, ih (List.cons_ne_nil _ _) hrest]
      exact List.cons_ne_nil _ _

/-! ## Entries -/

/-- Whether a piece is an entry: the name stands before its first equals sign, and a numeral of the
weight after it. -/
def IsEntry (piece : List Char) (name : String) (weight : Nat) : Prop :=
  ∃ before after, piece = before ++ '=' :: after ∧ '=' ∉ before ∧ name.toList = trim before ∧
    FieldNumeral bound32 weight (trim after)

/-- What is wrong with a piece that is no entry. -/
inductive Faulty : List Char → ConfigProblem → Prop
  /-- It has no equals sign. -/
  | noWeight {text : List Char} (habsent : '=' ∉ text) :
      Faulty text (.badQueueEntry (String.ofList text))
  /-- What stands after its first equals sign is no numeral for the weight. -/
  | badWeight {named rest : List Char} {error : NumeralError} (hnamed : '=' ∉ named)
      (hweight : readNat bound32 (trim rest) = .error error) :
      Faulty (named ++ '=' :: rest) (.badQueueWeight (String.ofList named) error.message)

lemma parseQueueEntry_ok_iff :
    parseQueueEntry piece = .ok (name, weight) ↔ IsEntry piece name weight := by
  have hbound : 0 < bound32 := by decide
  constructor
  · intro h
    rw [parseQueueEntry] at h
    cases hcut : cut '=' piece with
    | none =>
      rw [hcut] at h
      cases h
    | some parts =>
      obtain ⟨before, after⟩ := parts
      rw [hcut] at h
      obtain ⟨hpiece, hbefore⟩ := cut_eq_some_iff.mp hcut
      cases hread : readNat bound32 (trim after) with
      | error error =>
        simp only [hread] at h
        cases h
      | ok number =>
        simp only [hread] at h
        cases h
        exact ⟨before, after, hpiece, hbefore, String.toList_ofList,
          (readNat_ok_iff hbound).mp hread⟩
  · rintro ⟨before, after, rfl, hbefore, hname, hweight⟩
    rw [parseQueueEntry, cut_append hbefore]
    simp only [(readNat_ok_iff hbound).mpr hweight, ← hname, String.ofList_toList]

lemma parseQueueEntry_error_iff :
    parseQueueEntry piece = .error problem ↔ Faulty piece problem := by
  constructor
  · intro h
    rw [parseQueueEntry] at h
    cases hcut : cut '=' piece with
    | none =>
      rw [hcut] at h
      cases h
      exact .noWeight (cut_eq_none_iff.mp hcut)
    | some parts =>
      obtain ⟨before, after⟩ := parts
      rw [hcut] at h
      obtain ⟨rfl, hbefore⟩ := cut_eq_some_iff.mp hcut
      cases hread : readNat bound32 (trim after) with
      | ok number =>
        simp only [hread] at h
        cases h
      | error error =>
        simp only [hread] at h
        cases h
        exact .badWeight hbefore hread
  · intro h
    cases h with
    | noWeight habsent => rw [parseQueueEntry, cut_eq_none_iff.mpr habsent]
    | badWeight hbefore hweight =>
      rw [parseQueueEntry, cut_append hbefore]
      simp only [hweight]

lemma IsEntry.isEmpty (h : IsEntry piece name weight) : (!piece.isEmpty) = true := by
  obtain ⟨before, after, rfl, -⟩ := h
  simp

/-- A piece shows one entry at most. -/
lemma IsEntry.unique {other : String} {number : Nat} (h : IsEntry piece name weight)
    (hother : IsEntry piece other number) : other = name ∧ number = weight := by
  have hboth := (parseQueueEntry_ok_iff.mpr hother).symm.trans (parseQueueEntry_ok_iff.mpr h)
  exact Prod.mk.inj (Except.ok.inj hboth)

/-! ## Reading entries -/

/-- Whether a list is read as some entries, one for each piece. -/
def AllEntries (list : List (List Char)) : Prop :=
  ∀ piece ∈ list, ∃ name weight, IsEntry piece name weight

/-- Whether the last entry of a name in a list shows a weight. -/
def LastEntry (list : List (List Char)) (name : String) (weight : Nat) : Prop :=
  ∃ earlier piece later, list = earlier ++ piece :: later ∧ IsEntry piece name weight ∧
    ∀ other ∈ later, ∀ number, ¬ IsEntry other name number

lemma lastEntry_nil : ¬ LastEntry [] name weight := by
  rintro ⟨earlier, piece, later, hlist, -⟩
  exact List.append_ne_nil_of_right_ne_nil _ (List.cons_ne_nil _ _) hlist.symm

/-- The last entry of a name stands behind the first piece, or it is the first piece and there is no
other behind it. -/
lemma lastEntry_cons : LastEntry (piece :: list) name weight ↔
    LastEntry list name weight ∨
      (∀ other ∈ list, ∀ number, ¬ IsEntry other name number) ∧ IsEntry piece name weight := by
  constructor
  · rintro ⟨earlier, entry, later, hlist, hentry, hlater⟩
    cases earlier with
    | nil =>
      cases hlist
      exact .inr ⟨hlater, hentry⟩
    | cons first more =>
      cases hlist
      exact .inl ⟨more, entry, later, rfl, hentry, hlater⟩
  · rintro (⟨earlier, entry, later, rfl, hentry, hlater⟩ | ⟨hnone, hentry⟩)
    · exact ⟨piece :: earlier, entry, later, rfl, hentry, hlater⟩
    · exact ⟨[], piece, list, rfl, hentry, hnone⟩

lemma readQueueEntries_cons (h : IsEntry piece name weight) :
    readQueueEntries start (piece :: list) =
      readQueueEntries (Table.put name weight start) list := by
  rw [readQueueEntries, parseQueueEntry_ok_iff.mpr h]

/-- The pieces of a list are read as a table just if all are entries. -/
lemma exists_readQueueEntries_iff :
    (∃ queues, readQueueEntries start list = .ok queues) ↔ AllEntries list := by
  induction list generalizing start with
  | nil => exact ⟨fun _ _ hpiece => absurd hpiece List.not_mem_nil, fun _ => ⟨start, rfl⟩⟩
  | cons piece rest ih =>
    constructor
    · rintro ⟨queues, h⟩
      cases hparse : parseQueueEntry piece with
      | error problem =>
        rw [readQueueEntries, hparse] at h
        cases h
      | ok entry =>
        have hentry := parseQueueEntry_ok_iff.mp hparse
        rw [readQueueEntries_cons hentry] at h
        exact List.forall_mem_cons.mpr ⟨⟨_, _, hentry⟩, ih.mp ⟨queues, h⟩⟩
    · intro h
      obtain ⟨⟨name, weight, hentry⟩, hrest⟩ := List.forall_mem_cons.mp h
      rw [readQueueEntries_cons hentry]
      exact ih.mpr hrest

/-- The table that is read holds, for every name, the weight of the last entry, and what it held
before of the names without entries. -/
lemma get?_readQueueEntries (h : readQueueEntries start list = .ok queues) :
    Table.get? name queues = some weight ↔
      LastEntry list name weight ∨
        (∀ piece ∈ list, ∀ number, ¬ IsEntry piece name number) ∧
          Table.get? name start = some weight := by
  induction list generalizing start with
  | nil =>
    cases h
    simp only [lastEntry_nil, false_or, List.not_mem_nil, false_imp_iff, implies_true, true_and]
  | cons piece rest ih =>
    obtain ⟨other, number, hentry⟩ :=
      exists_readQueueEntries_iff.mp ⟨queues, h⟩ piece List.mem_cons_self
    rw [readQueueEntries_cons hentry] at h
    rw [ih h, lastEntry_cons, Table.get?_put, List.forall_mem_cons, or_assoc]
    refine or_congr_right ?_
    by_cases hname : other = name
    · subst hname
      have hweight : IsEntry piece other weight ↔ number = weight :=
        ⟨fun hpiece => (hpiece.unique hentry).2, fun hsame => hsame ▸ hentry⟩
      have hnot : ¬ ∀ n, ¬ IsEntry piece other n := fun hnone => hnone number hentry
      rw [if_pos rfl, Option.some.injEq, hweight]
      simp only [hnot, false_and, or_false]
    · have hnone : ∀ n, ¬ IsEntry piece name n := fun n hpiece =>
        hname (hpiece.unique hentry).1
      rw [if_neg hname]
      simp only [hnone, and_false, false_or, not_false_eq_true, implies_true, true_and]

lemma sorted_readQueueEntries (h : readQueueEntries start list = .ok queues)
    (hstart : start.Sorted) : queues.Sorted := by
  induction list generalizing start with
  | nil =>
    cases h
    exact hstart
  | cons piece rest ih =>
    obtain ⟨other, number, hentry⟩ :=
      exists_readQueueEntries_iff.mp ⟨queues, h⟩ piece List.mem_cons_self
    rw [readQueueEntries_cons hentry] at h
    exact ih h hstart.put

/-- Whether the first piece of a list that is no entry has a problem. -/
def FirstFault (list : List (List Char)) (problem : ConfigProblem) : Prop :=
  ∃ earlier piece later, list = earlier ++ piece :: later ∧ AllEntries earlier ∧
    Faulty piece problem

/-- The problem of a list is that of its first piece that is no entry. -/
lemma readQueueEntries_error_iff :
    readQueueEntries start list = .error problem ↔ FirstFault list problem := by
  constructor
  · intro h
    induction list generalizing start with
    | nil => cases h
    | cons piece rest ih =>
      cases hparse : parseQueueEntry piece with
      | error found =>
        rw [readQueueEntries, hparse] at h
        cases h
        exact ⟨[], piece, rest, rfl, fun _ hpiece => absurd hpiece List.not_mem_nil,
          parseQueueEntry_error_iff.mp hparse⟩
      | ok entry =>
        have hentry := parseQueueEntry_ok_iff.mp hparse
        rw [readQueueEntries_cons hentry] at h
        obtain ⟨earlier, bad, later, rfl, hearlier, hbad⟩ := ih h
        exact ⟨piece :: earlier, bad, later, rfl,
          List.forall_mem_cons.mpr ⟨⟨_, _, hentry⟩, hearlier⟩, hbad⟩
  · rintro ⟨earlier, piece, later, rfl, hearlier, hbad⟩
    induction earlier generalizing start with
    | nil => rw [List.nil_append, readQueueEntries, parseQueueEntry_error_iff.mpr hbad]
    | cons first more ih =>
      obtain ⟨⟨name, weight, hentry⟩, hmore⟩ := List.forall_mem_cons.mp hearlier
      rw [List.cons_append, readQueueEntries_cons hentry]
      exact ih hmore

/-! ## Listings -/

/-- Whether a name can stand in a list of queues: a comma or an equals sign in it would be taken for
one of the list, and blanks around it would be lost. -/
structure QueueName (name : String) : Prop where
  comma : ',' ∉ name.toList
  equals : '=' ∉ name.toList
  trimmed : trim name.toList = name.toList

/-- Whether a text holds nothing but blanks. -/
def Blank (s : List Char) : Prop :=
  ∀ c ∈ s, isBlank c = true

lemma Blank.notMem {c : Char} {s : List Char} (h : Blank s) (hc : isBlank c = false) : c ∉ s := by
  intro hmem
  exact Bool.false_ne_true (hc.symm.trans (h c hmem))

/-- `Listing parts entries` says that some parts of a text show some entries, in this order. -/
inductive Listing : List (List Char) → List (String × Nat) → Prop
  /-- Without parts there are no entries. -/
  | nil : Listing [] []
  /-- A blank part, an empty one for example, shows nothing. -/
  | blank {gap : List Char} {more : List (List Char)} {shown : List (String × Nat)}
      (hgap : Blank gap) (hmore : Listing more shown) : Listing (gap :: more) shown
  /-- A part shows a name and a weight, with an equals sign between and blanks anywhere. -/
  | entry {first second third fourth numeral : List Char} {queue : String} {n : Nat}
      {more : List (List Char)} {shown : List (String × Nat)} (hfirst : Blank first)
      (hsecond : Blank second) (hthird : Blank third) (hfourth : Blank fourth)
      (hweight : FieldNumeral bound32 n numeral) (hmore : Listing more shown) :
      Listing ((first ++ queue.toList ++ second ++ '=' :: (third ++ numeral ++ fourth)) :: more)
        ((queue, n) :: shown)

/-- Whether a text is a listing of some queues, in any order. -/
structure Lists (queues : Table Nat) (raw : String) : Prop where
  sorted : queues.Sorted
  names : ∀ entry ∈ queues, QueueName entry.1
  listing : ∃ parts entries, raw.toList = Json.commas parts ∧ Listing parts entries ∧
    entries.Perm queues

lemma isBlank_of_mem_numeral {bound : Nat} {text : List Char} {c : Char}
    (h : FieldNumeral bound weight text) (hc : c ∈ text) : isBlank c = false := by
  rcases h.mem hc with hdigit | rfl
  · exact isBlank_of_isDigit hdigit
  · rfl

lemma trim_numeral {bound : Nat} {text : List Char} (h : FieldNumeral bound weight text) :
    trim text = text :=
  trim_eq_self (fun _ hc => isBlank_of_mem_numeral h (List.mem_of_mem_head? hc))
    (fun _ hc => isBlank_of_mem_numeral h (List.mem_of_getLast? hc))

/-- An entry is one with and without the blanks around it. -/
lemma IsEntry.trim (h : IsEntry part name weight) : IsEntry (trim part) name weight := by
  obtain ⟨before, after, rfl, hbefore, hname, hweight⟩ := h
  have hkept : '=' ∉ trimStart before := fun hmem =>
    hbefore ((List.dropWhile_sublist isBlank).subset hmem)
  refine ⟨trimStart before, trimEnd after, trim_append_cons rfl before after, hkept, ?_, ?_⟩
  · rw [trim_trimStart, hname]
  · rwa [trim_trimEnd]

/-- A name, an equals sign and a numeral are an entry, whatever blanks stand around them. -/
lemma isEntry_of_blanks {first second third fourth numeral : List Char} (hname : QueueName name)
    (hfirst : Blank first) (hsecond : Blank second) (hthird : Blank third) (hfourth : Blank fourth)
    (hweight : FieldNumeral bound32 weight numeral) :
    IsEntry (first ++ name.toList ++ second ++ '=' :: (third ++ numeral ++ fourth))
      name weight := by
  have hequals : '=' ∉ first ++ name.toList ++ second := by
    simp only [List.mem_append, hfirst.notMem (c := '=') rfl, hsecond.notMem (c := '=') rfl,
      hname.equals, or_self, not_false_eq_true]
  refine ⟨_, _, rfl, hequals, ?_, ?_⟩
  · rw [trim_around hfirst hsecond, hname.trimmed]
  · rw [trim_around hthird hfourth, trim_numeral hweight]
    exact hweight

/-- The parts of a listing hold no commas. -/
lemma Listing.comma (h : Listing parts entries) (hnames : ∀ entry ∈ entries, QueueName entry.1) :
    ∀ part ∈ parts, ',' ∉ part := by
  induction h with
  | nil => exact fun _ hpart => absurd hpart List.not_mem_nil
  | blank hpart _ ih => exact List.forall_mem_cons.mpr ⟨hpart.notMem rfl, ih hnames⟩
  | entry hfirst hsecond hthird hfourth hweight _ ih =>
    obtain ⟨hname, hrest⟩ := List.forall_mem_cons.mp hnames
    have hnumeral : ',' ∉ _ := fun hmem => by
      rcases hweight.mem hmem with hdigit | hplus
      · cases hdigit
      · cases hplus
    refine List.forall_mem_cons.mpr ⟨?_, ih hrest⟩
    simp only [List.mem_append, List.mem_cons, hfirst.notMem (c := ',') rfl,
      hsecond.notMem (c := ',') rfl, hthird.notMem (c := ',') rfl, hfourth.notMem (c := ',') rfl,
      hname.comma, hnumeral, Char.reduceEq, or_self, not_false_eq_true]

/-- The parts of a listing are read as its entries, one put after the other. -/
lemma Listing.read (h : Listing parts entries) (hnames : ∀ entry ∈ entries, QueueName entry.1)
    (start : Table Nat) :
    readQueueEntries start ((parts.map trim).filter fun piece => !piece.isEmpty) =
      .ok (entries.foldl (fun table entry => Table.put entry.1 entry.2 table) start) := by
  induction h generalizing start with
  | nil => rfl
  | blank hpart _ ih =>
    rw [List.map_cons, trim_of_blank hpart]
    exact ih hnames start
  | entry hfirst hsecond hthird hfourth hweight _ ih =>
    obtain ⟨hname, hrest⟩ := List.forall_mem_cons.mp hnames
    have hentry := (isEntry_of_blanks hname hfirst hsecond hthird hfourth hweight).trim
    rw [List.map_cons, List.filter_cons, if_pos hentry.isEmpty, readQueueEntries_cons hentry]
    exact ih hrest _

/-- **Every listing of some queues is read as the queues.** -/
theorem parseQueues_of_lists {raw : String} (h : Lists queues raw) :
    parseQueues raw = .ok queues := by
  obtain ⟨parts, entries, hraw, hlisting, hperm⟩ := h.listing
  have hnames : ∀ entry ∈ entries, QueueName entry.1 := fun entry hentry =>
    h.names entry (hperm.mem_iff.mp hentry)
  have hread := hlisting.read hnames []
  have hparts : readQueueEntries [] (queuePieces raw) =
      readQueueEntries [] ((parts.map trim).filter fun piece => !piece.isEmpty) := by
    rw [queuePieces, hraw]
    cases parts with
    | nil => rfl
    | cons part rest => rw [pieces_commas (List.cons_ne_nil _ _) (hlisting.comma hnames)]
  rw [parseQueues_eq, hparts, hread]
  exact congrArg Except.ok (Table.ofEntries_of_perm h.sorted hperm)

/-! ## Reading a list of queues -/

/-- What is made of a text as a list of queues. -/
structure ReadsQueues (raw : String) : Prop where
  /-- The text is cut at all of its commas. -/
  split : Json.commas (pieces ',' raw.toList) = raw.toList ∧
    ∀ piece ∈ pieces ',' raw.toList, ',' ∉ piece
  /-- A piece is rid of the blanks at its ends, and of nothing else. -/
  trimmed : ∀ piece ∈ pieces ',' raw.toList, (∃ front back, Blank front ∧ Blank back ∧
      piece = front ++ trim piece ++ back) ∧
    (∀ c, (trim piece).head? = some c → isBlank c = false) ∧
    ∀ c, (trim piece).getLast? = some c → isBlank c = false
  /-- It is accepted just if every piece that is not empty is an entry. -/
  accepted : (∃ queues, parseQueues raw = .ok queues) ↔ AllEntries (queuePieces raw)
  /-- Then it is a table that has the names of the entries and no others, each with the weight of
  its last entry. -/
  holds : ∀ queues, parseQueues raw = .ok queues → queues.Sorted ∧
    ∀ name weight, Table.get? name queues = some weight ↔ LastEntry (queuePieces raw) name weight
  /-- Else it is refused for the fault of the first piece that is no entry. -/
  refused : ∀ problem, parseQueues raw = .error problem ↔ FirstFault (queuePieces raw) problem
  /-- If it is a listing of some queues, it is these queues. -/
  listed : ∀ queues, Lists queues raw → parseQueues raw = .ok queues

/-- **Lists of queues are read by their grammar.** -/
theorem reads_queues (raw : String) : ReadsQueues raw where
  split := ⟨commas_pieces raw.toList, fun _ => notMem_of_mem_pieces⟩
  trimmed piece _ := by
    obtain ⟨front, back, hpiece, hfront, hback⟩ := exists_trim piece
    exact ⟨⟨front, back, hfront, hback, hpiece⟩, isBlank_ends_trim piece⟩
  accepted := exists_readQueueEntries_iff
  holds queues h := by
    rw [parseQueues_eq] at h
    refine ⟨sorted_readQueueEntries h Table.sorted_nil, fun name weight => ?_⟩
    rw [get?_readQueueEntries h]
    simp only [Table.get?_nil, reduceCtorEq, and_false, or_false]
  refused _ := readQueueEntries_error_iff
  listed _ := parseQueues_of_lists

/-- A list that is out of order, with blanks, a plus sign, a zero in front and empty pieces. -/
theorem reads_queues_untidy :
    Lists [("a", 1), ("b", 7)] " b =\t+07 ,, a=1," ∧
      parseQueues " b =\t+07 ,, a=1," = .ok [("a", 1), ("b", 7)] := by
  have hblank : ∀ gap : List Char, gap.all isBlank = true → Blank gap :=
    fun _ => List.all_eq_true.mp
  have hseven : FieldNumeral bound32 7 ['+', '0', '7'] :=
    .signed ⟨List.all_eq_true.mp rfl, rfl⟩ (List.cons_ne_nil _ _) (by decide)
  have hone : FieldNumeral bound32 1 ['1'] :=
    .plain ⟨List.all_eq_true.mp rfl, rfl⟩ (List.cons_ne_nil _ _) (by decide)
  have hsecond : Listing [[' '] ++ "a".toList ++ [] ++ '=' :: ([] ++ ['1'] ++ []), []]
      [("a", 1)] :=
    .entry (hblank _ rfl) (hblank _ rfl) (hblank _ rfl) (hblank _ rfl) hone
      (.blank (hblank _ rfl) .nil)
  have hlisting : Listing
      [[' '] ++ "b".toList ++ [' '] ++ '=' :: (['\t'] ++ ['+', '0', '7'] ++ [' ']), [],
        [' '] ++ "a".toList ++ [] ++ '=' :: ([] ++ ['1'] ++ []), []] [("b", 7), ("a", 1)] :=
    .entry (hblank _ rfl) (hblank _ rfl) (hblank _ rfl) (hblank _ rfl) hseven
      (.blank (hblank _ rfl) hsecond)
  have hlists : Lists [("a", 1), ("b", 7)] " b =\t+07 ,, a=1," :=
    { sorted :=
        have hless : "a" < "b" := by decide
        Table.sorted_cons.mpr
          ⟨List.forall_mem_singleton.mpr hless, List.pairwise_singleton _ _⟩
      names := by
        intro entry hentry
        rcases List.mem_pair.mp hentry with rfl | rfl
        · exact ⟨by decide, by decide, by decide⟩
        · exact ⟨by decide, by decide, by decide⟩
      listing := ⟨_, _, by decide, hlisting, List.Perm.swap _ _ _⟩ }
  exact ⟨hlists, (reads_queues _).listed _ hlists⟩

end Config
end WorkQueue
