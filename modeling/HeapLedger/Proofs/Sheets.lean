import HeapLedger.Proofs.Mappings

/-!
# `HeapLedger/Proofs/Sheets.lean` — reports that are texts in lines

Most reports are texts, and a text has lines before it has bytes. A `Sheet` is one: lines that end
in a line feed, each with a carriage return before it or without, and after them perhaps a line that
does not end. Reading takes its bytes apart into the same lines again, save that a carriage return
may be left at the end of a line, where it does not count (`counts_bytes`).

So the sum of a field is one over lines (`Sheet.sumField_exact`): the order of the lines does not
matter, nor how they end, nor what other lines there are.
-/

set_option autoImplicit false

namespace HeapLedger

/-- How a line ends. -/
inductive LineEnd where
  | feed
  | returnFeed

namespace LineEnd

/-- What stands between the line and the line feed. -/
def beforeFeed : LineEnd → List Char
  | feed => []
  | returnFeed => ['\r']

def chars (e : LineEnd) : List Char :=
  e.beforeFeed ++ ['\n']

theorem feed_not_mem_beforeFeed (e : LineEnd) : '\n' ∉ e.beforeFeed := by
  cases e with
  | feed => decide
  | returnFeed => decide

end LineEnd

/-- A text in lines. The last line may be without an end. -/
structure Sheet where
  ended : List (List Char × LineEnd)
  last : Option (List Char)
  feed_not_mem_ended : ∀ line ∈ ended, '\n' ∉ line.1
  feed_not_mem_last : ∀ line ∈ last, '\n' ∉ line

namespace Sheet

def lines (s : Sheet) : List (List Char) :=
  s.ended.map Prod.fst ++ s.last.toList

def endedText (ended : List (List Char × LineEnd)) : List Char :=
  ended.flatMap fun line => line.1 ++ line.2.chars

def text (s : Sheet) : List Char :=
  endedText s.ended ++ s.last.getD []

def bytes (s : Sheet) : List UInt8 :=
  Text.utf8 s.text

/-- The counts that the lines give for a field. -/
def counts (s : Sheet) (field : List Char) : List Nat :=
  s.lines.filterMap (Host.fieldCount? field)

/-! ## Lines and bytes -/

theorem splitOn_utf8 {line : List Char} (hline : '\n' ∉ line) (e : LineEnd) (rest : List Char) :
    (Text.utf8 (line ++ e.chars ++ rest)).splitOn 10 =
      Text.utf8 (line ++ e.beforeFeed) :: (Text.utf8 rest).splitOn 10 := by
  have hfeed : 10 ∉ Text.utf8 (line ++ e.beforeFeed) := by
    rw [Text.lineFeed_mem_utf8, List.mem_append, not_or]
    exact ⟨hline, e.feed_not_mem_beforeFeed⟩
  have hbytes : Text.utf8 (line ++ e.chars ++ rest) =
      Text.utf8 (line ++ e.beforeFeed) ++ 10 :: Text.utf8 rest := by
    rw [LineEnd.chars, ← List.append_assoc, Text.utf8_append, Text.utf8_append, List.append_assoc]
    rfl
  rw [hbytes, List.splitOn_append_cons_self_of_not_mem hfeed]

theorem fieldCount?_beforeFeed (field line : List Char) (e : LineEnd) :
    Host.fieldCount? field (line ++ e.beforeFeed) = Host.fieldCount? field line := by
  cases e with
  | feed => rw [LineEnd.beforeFeed, List.append_nil]
  | returnFeed => exact Host.fieldCount?_return field line

/-- Lines that end count first, one by one, and then what follows them. -/
theorem counts_endedText (field : List Char) {ended : List (List Char × LineEnd)}
    (hended : ∀ line ∈ ended, '\n' ∉ line.1) (rest : List Char) :
    Host.counts field (Host.readable ((Text.utf8 (endedText ended ++ rest)).splitOn 10)) =
      (ended.map Prod.fst).filterMap (Host.fieldCount? field) ++
        Host.counts field (Host.readable ((Text.utf8 rest).splitOn 10)) := by
  induction ended with
  | nil => rfl
  | cons line ended ih =>
    obtain ⟨hline, hrest⟩ := List.forall_mem_cons.1 hended
    rw [endedText, List.flatMap_cons, ← endedText, List.append_assoc, splitOn_utf8 hline,
      Host.counts_readable_utf8, ih hrest, fieldCount?_beforeFeed, List.map_cons,
      Host.filterMap_cons_toList, List.append_assoc]

theorem counts_last (field : List Char) {last : Option (List Char)}
    (hlast : ∀ line ∈ last, '\n' ∉ line) :
    Host.counts field (Host.readable ((Text.utf8 (last.getD [])).splitOn 10)) =
      last.toList.filterMap (Host.fieldCount? field) := by
  cases last with
  | none => exact Host.counts_readable_nil field
  | some line =>
    have hfeed : 10 ∉ Text.utf8 line := by
      rw [Text.lineFeed_mem_utf8]
      exact hlast line rfl
    rw [Option.getD_some, List.splitOn_eq_singleton hfeed, Host.counts_readable_utf8]
    exact (Host.filterMap_cons_toList _ line []).symm

/-- The counts that are read are those that the lines give. -/
theorem counts_bytes (s : Sheet) (field : List Char) :
    Host.counts field (Host.readable (s.bytes.splitOn 10)) = s.counts field := by
  rw [bytes, text, counts_endedText field s.feed_not_mem_ended, counts_last field s.feed_not_mem_last,
    counts, lines, List.filterMap_append]

/-! ## Sums -/

variable {s s' : Sheet} {field : List Char}

theorem sumField_bytes (s : Sheet) (field : List Char) :
    Host.sumField s.bytes field =
      if Host.Fits (s.counts field) then .ok (Host.inBytes (s.counts field))
      else .error .mulOverflow := by
  rw [Host.sumField_eq, counts_bytes]

/-- The order of the counts does not matter. -/
theorem sumField_congr (h : (s.counts field).Perm (s'.counts field)) :
    Host.sumField s.bytes field = Host.sumField s'.bytes field := by
  have hfits : Host.Fits (s.counts field) ↔ Host.Fits (s'.counts field) :=
    forall_congr' fun _ => imp_congr_left h.mem_iff
  have hsum : Host.inBytes (s.counts field) = Host.inBytes (s'.counts field) := by
    rw [Host.inBytes, Host.inBytes, h.sum_nat]
  simp only [sumField_bytes, hfits, hsum]

/-- Lines that give no count do not matter. -/
theorem counts_perm {extra : List (List Char)} (h : s'.lines.Perm (s.lines ++ extra))
    (hextra : ∀ line ∈ extra, ∀ n, ¬ Host.Gives field line n) :
    (s'.counts field).Perm (s.counts field) := by
  have hnone : extra.filterMap (Host.fieldCount? field) = [] := by
    apply List.filterMap_eq_nil_iff.2
    intro line hline
    apply Option.eq_none_iff_forall_ne_some.2
    intro n hn
    exact hextra line hline n (Host.fieldCount?_eq_some.1 hn)
  have hcounts := h.filterMap (Host.fieldCount? field)
  rw [List.filterMap_append, hnone, List.append_nil] at hcounts
  exact hcounts

/-- Lines that all end leave the lines behind them as they are. -/
theorem sumField_append (hlast : s.last = none) (hfits : Host.Fits (s.counts field))
    (hfits' : Host.Fits (s'.counts field)) :
    Host.sumField (s.bytes ++ s'.bytes) field =
      .ok (Host.inBytes (s.counts field ++ s'.counts field)) := by
  have hbytes : s.bytes ++ s'.bytes = Text.utf8 (endedText s.ended ++ s'.text) := by
    rw [bytes, text, hlast, Option.getD_none, List.append_nil, Text.utf8_append]
    rfl
  have hlines : s.counts field = (s.ended.map Prod.fst).filterMap (Host.fieldCount? field) := by
    rw [counts, lines, hlast, Option.toList_none, List.append_nil]
  rw [hbytes, Host.sumField_eq, counts_endedText field s.feed_not_mem_ended, ← hlines, ← bytes,
    counts_bytes, if_pos (Host.fits_append.2 ⟨hfits, hfits'⟩)]

theorem inBytes_append (ns ns' : List Nat) :
    Host.inBytes (ns ++ ns') = min Word.max (Host.inBytes ns + Host.inBytes ns') := by
  unfold Host.inBytes
  rw [List.sum_append]
  omega

/-- A line of a text counts just when it gives a count, and the sum of a field is all of them in
bytes, held at the largest word. It stays the same when the lines come in another order, end in
another way or stand among lines that give no count, and of two texts one behind the other it is the
sum of both, held likewise. -/
theorem sumField_exact (field : List Char) :
    (∀ line n, Host.fieldCount? field line = some n ↔ Host.Gives field line n) ∧
    (∀ s : Sheet, Host.Fits (s.counts field) →
      Host.sumField s.bytes field = .ok (min Word.max (1024 * (s.counts field).sum))) ∧
    (∀ (s s' : Sheet) (extra : List (List Char)), s'.lines.Perm (s.lines ++ extra) →
      (∀ line ∈ extra, ∀ n, ¬ Host.Gives field line n) →
        Host.sumField s'.bytes field = Host.sumField s.bytes field) ∧
    (∀ s s' : Sheet, s.last = none → Host.Fits (s.counts field) → Host.Fits (s'.counts field) →
      ∃ a b, Host.sumField s.bytes field = .ok a ∧ Host.sumField s'.bytes field = .ok b ∧
        Host.sumField (s.bytes ++ s'.bytes) field = .ok (min Word.max (a + b))) := by
  have hsum : ∀ s : Sheet, Host.Fits (s.counts field) →
      Host.sumField s.bytes field = .ok (Host.inBytes (s.counts field)) :=
    fun s hfits => (sumField_bytes s field).trans (if_pos hfits)
  refine ⟨fun line n => Host.fieldCount?_eq_some, hsum, ?_, ?_⟩
  · intro s s' extra hlines hextra
    exact sumField_congr (counts_perm hlines hextra)
  · intro s s' hlast hfits hfits'
    refine ⟨_, _, hsum s hfits, hsum s' hfits', ?_⟩
    rw [sumField_append hlast hfits hfits', inBytes_append]

/-- Both line ends, a longer name, a plus sign, a tab, and a last line without an end. -/
theorem sumField_exact_mixed :
    let s : Sheet := ⟨[("Rss:  4 kB".toList, .returnFeed), ("RssAnon: 9 kB".toList, .feed)],
      some "Rss:+8kB\t".toList, by decide, by decide⟩
    Host.Fits (s.counts "Rss:".toList) ∧ Host.sumField s.bytes "Rss:".toList = .ok 12288 := by
  intro s
  have hcounts : s.counts "Rss:".toList = [4, 8] := by decide +kernel
  have hfits : Host.Fits (s.counts "Rss:".toList) := by
    rw [hcounts]
    decide
  obtain ⟨-, hsum, -⟩ := sumField_exact "Rss:".toList
  have htotal := hsum s hfits
  rw [hcounts] at htotal
  exact ⟨hfits, htotal⟩

end Sheet

end HeapLedger
