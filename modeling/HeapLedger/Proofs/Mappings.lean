import Mathlib.Algebra.GroupWithZero.Nat
import HeapLedger.Proofs.Text

/-!
# `HeapLedger/Proofs/Mappings.lean` — a field added up over every mapping

A report on mappings is bytes, and a field of it is a number. Between the two stand lines, their
decoding, the form of a line that gives a count, and a sum.

What counts is said without parsing. A line gives a count when it is the field, the count and the
unit, with blanks between them (`Host.Gives`), and no other line does (`fieldCount?_eq_some`). The
lines are what stands between line feeds, and those that are read are the ones before the first that
is no text (`Host.readable`, `counts_splitLines`). The sum is a fault when one of the counts is too
large to be told in bytes, and else it is all of them in bytes, held at the largest word
(`sumField_eq`).
-/

set_option autoImplicit false

namespace HeapLedger.Host

/-! ## One line -/

/-- The line gives the count `n` of `field`, in kilobytes. -/
def Gives (field line : List Char) (n : Nat) : Prop :=
  ∃ gap count between tail, line = field ++ gap ++ count ++ between ++ "kB".toList ++ tail ∧
    Text.Blank gap ∧ Text.Numeral count n ∧ Text.Blank between ∧ Text.Blank tail

variable {field line : List Char} {n : Nat}

theorem tight_unit : Text.Tight "kB".toList where
  head := ⟨'k', rfl, rfl⟩
  last := ⟨'B', rfl, rfl⟩

/-- A count is found in the lines that give one. -/
theorem fieldCount?_eq_some : fieldCount? field line = some n ↔ Gives field line n := by
  simp only [fieldCount?, Option.bind_eq_bind, Option.bind_eq_some_iff,
    List.isPrefixOf?_eq_some_iff_append_eq, List.isSuffixOf?_eq_some_iff_append_eq]
  constructor
  · rintro ⟨rest, rfl, count, hcount, hword⟩
    obtain ⟨gap, tail, hgap, htail, hrest⟩ := Text.exists_trim rest
    obtain ⟨gap', between, hgap', hbetween, hcount'⟩ := Text.exists_trim count
    generalize Text.trim rest = inner at *
    generalize Text.trim count = number at *
    subst hrest hcount hcount'
    refine ⟨gap ++ gap', number, between, tail, ?_, List.forall_mem_append.2 ⟨hgap, hgap'⟩,
      Text.word?_eq_some.1 hword, hbetween, htail⟩
    simp only [List.append_assoc]
  · rintro ⟨gap, count, between, tail, rfl, hgap, hcount, hbetween, htail⟩
    have hrest : Text.trim (gap ++ (count ++ between ++ "kB".toList) ++ tail) =
        count ++ between ++ "kB".toList :=
      Text.trim_of_tight (hcount.tight.surround tight_unit between) hgap htail
    have hcount' : Text.trim ([] ++ count ++ between) = count :=
      Text.trim_of_tight hcount.tight (List.forall_mem_nil _) hbetween
    refine ⟨gap ++ (count ++ between ++ "kB".toList) ++ tail, ?_, count ++ between, hrest.symm, ?_⟩
    · simp only [List.append_assoc]
    · exact Text.word?_eq_some.2 (hcount'.symm ▸ hcount)

/-- A carriage return behind a line changes nothing: it is one more blank. -/
theorem gives_return : Gives field (line ++ ['\r']) n ↔ Gives field line n := by
  constructor
  · rintro ⟨gap, count, between, tail, hline, hgap, hcount, hbetween, htail⟩
    -- The unit does not end in a carriage return, so there is something behind it.
    rcases List.eq_nil_or_concat tail with rfl | ⟨tail', c, rfl⟩
    · have hlast := congrArg List.getLast? hline
      rw [List.append_nil, List.getLast?_concat, List.getLast?_append] at hlast
      cases hlast
    · rw [List.concat_eq_append, ← List.append_assoc] at hline
      rw [List.concat_eq_append] at htail
      exact ⟨gap, count, between, tail', List.append_inj_left' hline rfl, hgap, hcount, hbetween,
        (List.forall_mem_append.1 htail).1⟩
  · rintro ⟨gap, count, between, tail, rfl, hgap, hcount, hbetween, htail⟩
    refine ⟨gap, count, between, tail ++ ['\r'], List.append_assoc _ _ _, hgap, hcount, hbetween, ?_⟩
    exact List.forall_mem_append.2 ⟨htail, List.forall_mem_singleton.2 rfl⟩

theorem fieldCount?_return (field line : List Char) :
    fieldCount? field (line ++ ['\r']) = fieldCount? field line := by
  apply Option.ext
  intro n
  rw [fieldCount?_eq_some, fieldCount?_eq_some, gives_return]

/-! ## Lines of bytes -/

theorem filterMap_cons_toList {α β : Type} (f : α → Option β) (a : α) (as : List α) :
    (a :: as).filterMap f = (f a).toList ++ as.filterMap f := by
  rw [List.filterMap_eq_flatMap_toList, List.flatMap_cons, List.filterMap_eq_flatMap_toList]

/-- The count of `field` in a line of bytes, which are those of a text. -/
def lineCount? (field : List Char) (line : List UInt8) : Option Nat :=
  (decodeLine line).bind (fieldCount? field)

theorem lineCount?_eq_some {line : List UInt8} :
    lineCount? field line = some n ↔ ∃ text, line = Text.utf8 text ∧ Gives field text n := by
  unfold lineCount?
  rw [Option.bind_eq_some_iff]
  simp only [decodeLine_eq_some, fieldCount?_eq_some]

def isText (line : List UInt8) : Bool :=
  (decodeLine line).isSome

theorem isText_iff {line : List UInt8} : isText line = true ↔ ∃ text, line = Text.utf8 text := by
  unfold isText
  rw [Option.isSome_iff_exists]
  simp only [decodeLine_eq_some]

/-- The lines before the first that is no text. -/
def readable (lines : List (List UInt8)) : List (List UInt8) :=
  lines.takeWhile isText

/-- The lines from the first that is no text. -/
def unread (lines : List (List UInt8)) : List (List UInt8) :=
  lines.dropWhile isText

def counts (field : List Char) (lines : List (List UInt8)) : List Nat :=
  lines.filterMap (lineCount? field)

/-- What a line adds to the counts that are read, and whether reading goes on behind it. -/
theorem counts_readable_cons (field : List Char) (line : List UInt8) (lines : List (List UInt8)) :
    counts field (readable (line :: lines)) =
      match decodeLine line with
      | none => []
      | some text => (fieldCount? field text).toList ++ counts field (readable lines) := by
  unfold counts readable
  rw [List.takeWhile_cons, isText]
  cases hline : decodeLine line with
  | none => rfl
  | some text =>
    rw [Option.isSome_some, if_pos rfl, filterMap_cons_toList, lineCount?, hline]
    rfl

theorem counts_readable_utf8 (field text : List Char) (lines : List (List UInt8)) :
    counts field (readable (Text.utf8 text :: lines)) =
      (fieldCount? field text).toList ++ counts field (readable lines) := by
  have htext : decodeLine (Text.utf8 text) = some text := decodeLine_eq_some.2 rfl
  rw [counts_readable_cons, htext]

theorem filterMap_decodeLines (field : List Char) (lines : List (List UInt8)) :
    (decodeLines lines).filterMap (fieldCount? field) = counts field (readable lines) := by
  induction lines with
  | nil => rfl
  | cons line rest ih =>
    rw [counts_readable_cons, decodeLines]
    cases decodeLine line with
    | none => rfl
    | some text =>
      show (text :: decodeLines rest).filterMap _ = _
      rw [filterMap_cons_toList, ih]

/-- Without the carriage return that may end it, a line counts as much as before, and it is no less
a text. -/
theorem counts_lineContent (field : List Char) (line : List UInt8) (lines : List (List UInt8)) :
    counts field (readable (lineContent line :: lines)) =
      counts field (readable (line.reverse :: lines)) := by
  unfold lineContent
  split
  · rename_i rest
    rw [List.reverse_cons, counts_readable_cons, counts_readable_cons, decodeLine_return]
    cases decodeLine rest.reverse with
    | none => rfl
    | some text =>
      show _ = (fieldCount? field (text ++ ['\r'])).toList ++ _
      rw [fieldCount?_return]
  · rfl

/-- An empty line counts nothing. -/
theorem counts_readable_nil (field : List Char) : counts field (readable [[]]) = [] := by
  have hnone : fieldCount? field [] = none := by
    apply Option.eq_none_iff_forall_ne_some.2
    intro n hn
    obtain ⟨gap, count, between, tail, hline, -⟩ := fieldCount?_eq_some.1 hn
    simp at hline
  have hempty := counts_readable_utf8 field [] []
  rw [hnone] at hempty
  exact hempty

theorem counts_splitLines_go (field : List Char) (line report : List UInt8) :
    counts field (readable (splitLines line report)) =
      counts field (readable (report.splitOnPPrepend (· == 10) line)) := by
  fun_induction splitLines line report with
  | case1 line hempty =>
    obtain rfl := List.isEmpty_iff.1 hempty
    exact (counts_readable_nil field).symm
  | case2 line hline => rfl
  | case3 line rest ih =>
    rw [List.splitOnPPrepend_cons_pos rfl, counts_lineContent, counts_readable_cons,
      counts_readable_cons, ih]
    rfl
  | case4 line b rest hb ih =>
    have hne : (b == 10) = false := beq_eq_false_iff_ne.2 hb
    rw [List.splitOnPPrepend_cons_neg (p := (· == 10)) hne, ih]

/-- Lines are what stands between line feeds. -/
theorem counts_splitLines (field : List Char) (report : List UInt8) :
    counts field (readable (splitLines [] report)) = counts field (readable (report.splitOn 10)) :=
  counts_splitLines_go field [] report

/-! ## The sum -/

/-- Counts that can be told in bytes. -/
def Fits (ns : List Nat) : Prop :=
  ∀ n ∈ ns, n ≤ Word.max / 1024

instance (ns : List Nat) : Decidable (Fits ns) :=
  inferInstanceAs (Decidable (∀ n ∈ ns, n ≤ Word.max / 1024))

/-- The sum of counts in bytes, held at the largest word. -/
def inBytes (ns : List Nat) : Nat :=
  min Word.max (1024 * ns.sum)

theorem fits_cons {ns : List Nat} : Fits (n :: ns) ↔ n ≤ Word.max / 1024 ∧ Fits ns :=
  List.forall_mem_cons

theorem fits_append {ns ns' : List Nat} : Fits (ns ++ ns') ↔ Fits ns ∧ Fits ns' :=
  List.forall_mem_append

theorem kilobytes_eq (n : Nat) :
    kilobytes n = if n ≤ Word.max / 1024 then .ok (n * 1024) else .error .mulOverflow := by
  have hiff : n * 1024 < Word.limit ↔ n ≤ Word.max / 1024 := by
    have hlimit : Word.limit = 2 ^ 64 := rfl
    have hmax : Word.max = 2 ^ 64 - 1 := rfl
    omega
  unfold kilobytes
  simp only [hiff]

theorem addCounts_eq (field : List Char) {total : Nat} (htotal : total ≤ Word.max)
    (lines : List (List Char)) :
    addCounts field total lines =
      if Fits (lines.filterMap (fieldCount? field)) then
        .ok (min Word.max (total + 1024 * (lines.filterMap (fieldCount? field)).sum))
      else .error .mulOverflow := by
  induction lines generalizing total with
  | nil =>
    have hfits : Fits [] := List.forall_mem_nil _
    rw [List.filterMap_nil, if_pos hfits, List.sum_nil, Nat.mul_zero, Nat.add_zero,
      Nat.min_eq_right htotal]
    rfl
  | cons line rest ih =>
    rw [addCounts, List.filterMap_cons]
    cases fieldCount? field line with
    | none => exact ih htotal
    | some n =>
      simp only [fits_cons, List.sum_cons]
      have hkilobytes := kilobytes_eq n
      by_cases hn : n ≤ Word.max / 1024
      · have hheld : Word.addSaturating total (n * 1024) ≤ Word.max := Nat.min_le_left _ _
        rw [if_pos hn] at hkilobytes
        simp only [hkilobytes, hn, true_and]
        rw [ih hheld]
        -- It makes no difference that the sum is held at the largest word line by line.
        congr 2
        unfold Word.addSaturating
        omega
      · rw [if_neg hn] at hkilobytes
        simp only [hkilobytes, hn, false_and, if_false]

/-- The sum of a field is a fault when a count is too large to be told in bytes, and else it is all
counts that are read. -/
theorem sumField_eq (report : List UInt8) (field : List Char) :
    sumField report field =
      if Fits (counts field (readable (report.splitOn 10))) then
        .ok (inBytes (counts field (readable (report.splitOn 10))))
      else .error .mulOverflow := by
  unfold sumField inBytes
  rw [addCounts_eq field (Nat.zero_le _), filterMap_decodeLines, counts_splitLines, Nat.zero_add]

/-- The sum is what is counted, in bytes and held at the largest word, just when each of the counts
can be told in bytes. Otherwise, and not when the sum is too large, there is a fault. -/
theorem sumField_held_iff (report : List UInt8) (field : List Char) :
    let found := counts field (readable (report.splitOn 10))
    (sumField report field = .ok (inBytes found) ↔ Fits found) ∧
      (sumField report field = .error .mulOverflow ↔ ¬ Fits found) := by
  intro found
  rw [sumField_eq]
  by_cases hfits : Fits found
  · rw [if_pos hfits]
    exact ⟨⟨fun _ => hfits, fun _ => rfl⟩, ⟨(nomatch ·), fun h => absurd hfits h⟩⟩
  · rw [if_neg hfits]
    exact ⟨⟨(nomatch ·), fun h => absurd h hfits⟩, ⟨fun _ => hfits, fun _ => rfl⟩⟩

/-- One count of which the bytes are one more than a word holds. -/
theorem sumField_faults_large_count :
    let report := Text.utf8 "Rss: 18014398509481984 kB\n".toList
    let found := counts "Rss:".toList (readable (report.splitOn 10))
    inBytes found = Word.max ∧ sumField report "Rss:".toList = .error .mulOverflow := by
  decide +kernel

/-! ## Lines that are not read -/

theorem counts_readable_append_unread (field : List Char) (lines : List (List UInt8)) :
    counts field lines = counts field (readable lines) ++ counts field (unread lines) := by
  unfold counts readable unread
  rw [← List.filterMap_append, List.takeWhile_append_dropWhile]

/-- More counts are the same sum if they are none, or if the sum is at the largest word without
them. -/
theorem inBytes_append_eq_iff (ns ns' : List Nat) :
    inBytes ns = inBytes (ns ++ ns') ↔ Word.max ≤ 1024 * ns.sum ∨ ∀ n ∈ ns', n = 0 := by
  unfold inBytes
  rw [List.sum_append, ← List.sum_eq_zero_iff_forall_eq_nat]
  omega

/-- The sum is that of the lines before the first one that is no text. This is the sum of all lines
that give a count just when it is at the largest word, or what is not read gives no count but
zero. -/
theorem sumField_eq_all_iff (field : List Char) {report : List UInt8}
    (hfits : Fits (counts field (report.splitOn 10))) :
    let lines := report.splitOn 10
    (∀ line, isText line = true ↔ ∃ text, line = Text.utf8 text) ∧
    (∀ line n, lineCount? field line = some n ↔
      ∃ text, line = Text.utf8 text ∧ Gives field text n) ∧
    sumField report field = .ok (inBytes (counts field (readable lines))) ∧
    (sumField report field = .ok (inBytes (counts field lines)) ↔
      Word.max ≤ 1024 * (counts field (readable lines)).sum ∨
        ∀ n ∈ counts field (unread lines), n = 0) := by
  intro lines
  rw [counts_readable_append_unread] at hfits
  have hsum : sumField report field = .ok (inBytes (counts field (readable lines))) :=
    (sumField_eq report field).trans (if_pos (fits_append.1 hfits).1)
  refine ⟨fun line => isText_iff, fun line n => lineCount?_eq_some, hsum, ?_⟩
  rw [hsum, Except.ok.injEq, counts_readable_append_unread field lines, inBytes_append_eq_iff]

/-- A mapping whose name is no text, behind all counts. -/
theorem sumField_eq_all_name_last :
    let report := Text.utf8 "Rss: 4 kB\nRss: 8 kB\n7f00-7f01 r--p 0 08:01 9 /".toList ++ [255, 10]
    Fits (counts "Rss:".toList (report.splitOn 10)) ∧
      sumField report "Rss:".toList = .ok (inBytes [4, 8]) := by
  intro report
  have hfits : Fits (counts "Rss:".toList (report.splitOn 10)) := by decide +kernel
  have hcounts : counts "Rss:".toList (report.splitOn 10) = [4, 8] := by decide +kernel
  obtain ⟨-, -, -, hall⟩ := sumField_eq_all_iff "Rss:".toList hfits
  rw [hcounts] at hall
  exact ⟨hfits, hall.2 (.inr (by decide +kernel))⟩

/-- A mapping whose name is no text, between two counts. -/
theorem sumField_misses_counts :
    let report := Text.utf8 "Rss: 4 kB\n7f00-7f01 r--p 0 08:01 9 /".toList ++ [255, 10] ++
      Text.utf8 "Rss: 8 kB\n".toList
    counts "Rss:".toList (report.splitOn 10) = [4, 8] ∧
      sumField report "Rss:".toList = .ok (inBytes [4]) := by
  decide +kernel

end HeapLedger.Host
