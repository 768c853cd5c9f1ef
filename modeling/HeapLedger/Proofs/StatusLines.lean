import HeapLedger.Host.Stat
import HeapLedger.Proofs.Checked
import HeapLedger.Proofs.Text

/-!
# `HeapLedger/Proofs/StatusLines.lean` — fields of a status line, whatever the command is called

A `StatusLine` is what a status line says: a process, the name of its command, and the fields behind
it. The name is anybody's choice and may look like the rest of a line. The fields may not, as there
is neither a blank nor a closing parenthesis in one. So the last parenthesis is the one behind the
command (`afterLast?_eq_some`), and what follows it falls apart at its blanks into the same fields
again (`fields_behindText`).

Reading a field gives its number, and nothing where there is no such field or the field is no number
(`StatusLine.statField_exact`). Other texts are read by the same rule: whatever follows the last
parenthesis is taken for fields (`statField_eq_some`).
-/

set_option autoImplicit false

namespace HeapLedger

namespace Text

variable {text rest : List Char}

/-! ## Fields and blanks -/

/-- Blanks that separate fields, at least one. -/
structure Gap where
  chars : List Char
  ne_nil : chars ≠ []
  blank : ∀ c ∈ chars, isAsciiBlank c = true

/-- What stands between gaps: characters that are no blanks, at least one. -/
structure Token where
  chars : List Char
  ne_nil : chars ≠ []
  solid : ∀ c ∈ chars, isAsciiBlank c = false

theorem fields_nil : fields [] = [] := by
  rw [fields, List.splitOnP_nil]
  rfl

theorem fields_cons_blank {c : Char} (hc : isAsciiBlank c = true) (rest : List Char) :
    fields (c :: rest) = fields rest := by
  rw [fields, List.splitOnP_cons_eq_if_modifyHead, if_pos hc]
  rfl

/-- Blanks in front of fields are skipped, however many. -/
theorem fields_blanks (hblank : ∀ c ∈ text, isAsciiBlank c = true) (rest : List Char) :
    fields (text ++ rest) = fields rest := by
  induction text with
  | nil => rfl
  | cons c text ih =>
    obtain ⟨hc, htext⟩ := List.forall_mem_cons.1 hblank
    rw [List.cons_append, fields_cons_blank hc, ih htext]

/-- A token in front of a blank, or of nothing, is a field. -/
theorem fields_token (t : Token) (hrest : ∀ c ∈ rest.head?, isAsciiBlank c = true) :
    fields (t.chars ++ rest) = t.chars :: fields rest := by
  have hfield : ∀ pieces, (t.chars :: pieces).filter (fun field => !field.isEmpty) =
      t.chars :: pieces.filter fun field => !field.isEmpty := fun pieces =>
    List.filter_cons_of_pos (by simp [t.ne_nil])
  cases rest with
  | nil =>
    rw [List.append_nil, fields_nil, fields, List.splitOnP_eq_singleton t.solid, hfield,
      List.filter_nil]
  | cons c rest =>
    have hc : isAsciiBlank c = true := hrest c rfl
    rw [fields_cons_blank hc, fields, List.splitOnP_append_cons_of_forall_mem t.solid c hc, hfield,
      fields]

/-- Whether there is no blank can be found out by looking. -/
theorem solid_of_all (h : (text.all fun c => !isAsciiBlank c) = true) :
    ∀ c ∈ text, isAsciiBlank c = false := by
  intro c hc
  rw [← Bool.not_eq_true']
  exact List.all_eq_true.1 h c hc

theorem word?_eq_none_iff : word? text = none ↔ ∀ v, ¬ Numeral text v := by
  rw [Option.eq_none_iff_forall_ne_some]
  exact forall_congr' fun v => not_congr word?_eq_some

end Text

namespace Host

/-! ## The last parenthesis -/

theorem afterLast?_eq_none {mark : Char} {line : List Char} :
    afterLast? mark line = none ↔ mark ∉ line := by
  induction line with
  | nil => exact ⟨fun _ => List.not_mem_nil, fun _ => rfl⟩
  | cons c line ih =>
    rw [afterLast?, Option.or_eq_none_iff, ih, List.mem_cons, not_or]
    constructor
    · rintro ⟨hline, hhere⟩
      refine ⟨?_, hline⟩
      rintro rfl
      rw [if_pos rfl] at hhere
      cases hhere
    · rintro ⟨hc, hline⟩
      exact ⟨hline, if_neg fun h => hc h.symm⟩

/-- What is found follows a mark, and holds none. -/
theorem afterLast?_eq_some {mark : Char} {line rest : List Char} :
    afterLast? mark line = some rest ↔ ∃ head, line = head ++ mark :: rest ∧ mark ∉ rest := by
  induction line with
  | nil =>
    constructor
    · intro h
      cases h
    · rintro ⟨head, hline, -⟩
      exact absurd hline.symm (List.append_ne_nil_of_right_ne_nil head (List.cons_ne_nil _ _))
  | cons c line ih =>
    rw [afterLast?, Option.or_eq_some_iff, ih, afterLast?_eq_none,
      Option.ite_none_right_eq_some, Option.some.injEq]
    constructor
    · rintro (⟨head, rfl, hrest⟩ | ⟨hline, rfl, rfl⟩)
      · exact ⟨c :: head, rfl, hrest⟩
      · exact ⟨[], rfl, hline⟩
    · rintro ⟨head, hline, hrest⟩
      cases head with
      | nil =>
        obtain ⟨rfl, rfl⟩ := List.cons.inj hline
        exact .inr ⟨hrest, rfl, rfl⟩
      | cons d head =>
        obtain ⟨rfl, rfl⟩ := List.cons.inj hline
        exact .inl ⟨head, rfl, hrest⟩

/-- In any text, field `n` is counted behind the last parenthesis, and is a numeral if it is read as
a number. -/
theorem statField_eq_some {line : List Char} {n v : Nat} :
    statField line n = some v ↔ 3 ≤ n ∧ ∃ head rest field, line = head ++ ')' :: rest ∧
      ')' ∉ rest ∧ (Text.fields rest)[n - 3]? = some field ∧ Text.Numeral field v := by
  rw [statField, Option.bind_eq_bind, Option.bind_eq_some_iff]
  constructor
  · rintro ⟨rest, hafter, hfield⟩
    obtain ⟨head, hline, hrest⟩ := afterLast?_eq_some.1 hafter
    obtain ⟨hn, hfield⟩ := Option.ite_none_left_eq_some.1 hfield
    obtain ⟨field, hget, hword⟩ := Option.bind_eq_some_iff.1 hfield
    exact ⟨Nat.le_of_not_lt hn, head, rest, field, hline, hrest, hget, Text.word?_eq_some.1 hword⟩
  · rintro ⟨hn, head, rest, field, hline, hrest, hget, hnumeral⟩
    refine ⟨rest, afterLast?_eq_some.2 ⟨head, hline, hrest⟩, ?_⟩
    exact Option.ite_none_left_eq_some.2 ⟨Nat.not_lt_of_le hn,
      Option.bind_eq_some_iff.2 ⟨field, hget, Text.word?_eq_some.2 hnumeral⟩⟩

/-- Reading a field on a machine that checks its arithmetic: the field's number less three is only
made when there is one. -/
def statFieldChecked (line : List Char) (n : Nat) : Option (Option Nat) :=
  match afterLast? ')' line with
  | none => some none
  | some rest =>
      if n < 3 then some none
      else do
        let index ← Word.sub? n 3
        some ((Text.fields rest)[index]?.bind Text.word?)

theorem statFieldChecked_eq (line : List Char) (n : Nat) :
    statFieldChecked line n = some (statField line n) := by
  unfold statFieldChecked statField
  cases afterLast? ')' line with
  | none => rfl
  | some rest =>
    simp only [Option.bind_eq_bind, Option.bind_some]
    by_cases hn : n < 3
    · rw [if_pos hn, if_pos hn]
    · rw [if_neg hn, if_neg hn, Word.sub?_of_le (Nat.le_of_not_lt hn), Option.bind_some]

/-! ## Status lines -/

/-- A field of a status line behind the command. -/
structure StatusField extends Text.Token where
  closing_not_mem : ')' ∉ chars

/-- A process, its command and the fields behind it, each with the blanks in front of it. -/
structure StatusLine where
  pid : List Char
  gap : Text.Gap
  command : List Char
  behind : List (Text.Gap × StatusField)
  /-- The blanks at the end of the line, if any. -/
  tail : List Char
  tail_blank : ∀ c ∈ tail, Text.isAsciiBlank c = true

namespace StatusLine

def behindText (behind : List (Text.Gap × StatusField)) (tail : List Char) : List Char :=
  behind.flatMap (fun f => f.1.chars ++ f.2.chars) ++ tail

def text (s : StatusLine) : List Char :=
  s.pid ++ s.gap.chars ++ '(' :: s.command ++ ')' :: behindText s.behind s.tail

/-- The number of the last field. -/
def last (s : StatusLine) : Nat :=
  s.behind.length + 2

/-- Field `n` behind the command. The command is field number two. -/
def field? (s : StatusLine) (n : Nat) : Option (List Char) :=
  if n < 3 then none else s.behind[n - 3]?.map fun f => f.2.chars

variable {behind : List (Text.Gap × StatusField)} {tail : List Char}

theorem closing_not_blank {c : Char} (hc : Text.isAsciiBlank c = true) : c ≠ ')' := by
  rintro rfl
  cases hc

/-- Neither the blanks nor the fields behind the command close a parenthesis. -/
theorem closing_not_mem_behindText (htail : ∀ c ∈ tail, Text.isAsciiBlank c = true) :
    ')' ∉ behindText behind tail := by
  rw [behindText, List.mem_append, List.mem_flatMap, not_or]
  constructor
  · rintro ⟨f, -, hf⟩
    rcases List.mem_append.1 hf with hgap | hfield
    · exact closing_not_blank (f.1.blank _ hgap) rfl
    · exact f.2.closing_not_mem hfield
  · intro hmem
    exact closing_not_blank (htail _ hmem) rfl

/-- Behind a field comes a gap, or the end of the line. -/
theorem head_behindText (htail : ∀ c ∈ tail, Text.isAsciiBlank c = true) :
    ∀ c ∈ (behindText behind tail).head?, Text.isAsciiBlank c = true := by
  intro c hc
  cases behind with
  | nil => exact htail c (List.mem_of_mem_head? hc)
  | cons f behind =>
    rw [behindText, List.flatMap_cons, List.append_assoc, List.append_assoc,
      List.head?_append_of_ne_nil _ f.1.ne_nil] at hc
    exact f.1.blank c (List.mem_of_mem_head? hc)

/-- The text behind the command falls apart into the fields that it was made of. -/
theorem fields_behindText (htail : ∀ c ∈ tail, Text.isAsciiBlank c = true) :
    Text.fields (behindText behind tail) = behind.map fun f => f.2.chars := by
  induction behind with
  | nil =>
    have hblanks := Text.fields_blanks htail []
    rw [List.append_nil, Text.fields_nil] at hblanks
    exact hblanks
  | cons f behind ih =>
    have hfirst : behindText (f :: behind) tail =
        f.1.chars ++ (f.2.chars ++ behindText behind tail) := by
      simp only [behindText, List.flatMap_cons, List.append_assoc]
    rw [hfirst, Text.fields_blanks f.1.blank, Text.fields_token f.2.toToken (head_behindText htail),
      ih, List.map_cons]

/-- Reading a field is looking it up. -/
theorem statField_text (s : StatusLine) (n : Nat) :
    statField s.text n = (s.field? n).bind Text.word? := by
  have hafter : afterLast? ')' s.text = some (behindText s.behind s.tail) :=
    afterLast?_eq_some.2 ⟨_, rfl, closing_not_mem_behindText s.tail_blank⟩
  rw [statField, hafter, field?, Option.bind_eq_bind, Option.bind_some,
    fields_behindText s.tail_blank]
  by_cases hn : n < 3
  · rw [if_pos hn, if_pos hn, Option.bind_none]
  · rw [if_neg hn, if_neg hn, List.getElem?_map]

theorem field?_eq_none_iff {s : StatusLine} {n : Nat} :
    s.field? n = none ↔ n < 3 ∨ s.last < n := by
  unfold field? last
  split
  · rename_i hn
    exact ⟨fun _ => .inl hn, fun _ => rfl⟩
  · rw [Option.map_eq_none_iff, List.getElem?_eq_none_iff]
    omega

/-- Whatever the command is called, the field with a number is read as what it denotes if it is a
numeral, and otherwise, or where there is no such field, nothing is read. Any text is read without a
step that leaves the word: nothing is found in it unless a parenthesis closes, and then what follows
the last one is taken for fields. -/
theorem statField_exact :
    (∀ (s : StatusLine) (n v : Nat), statField s.text n = some v ↔
      3 ≤ n ∧ n ≤ s.last ∧ ∃ field, s.field? n = some field ∧ Text.Numeral field v) ∧
    (∀ (s : StatusLine) (n : Nat), statField s.text n = none ↔
      n < 3 ∨ s.last < n ∨ ∃ field, s.field? n = some field ∧ ∀ v, ¬ Text.Numeral field v) ∧
    (∀ line n, statFieldChecked line n = some (statField line n)) ∧
    (∀ line n v, statField line n = some v ↔ 3 ≤ n ∧ ∃ head rest field,
      line = head ++ ')' :: rest ∧ ')' ∉ rest ∧ (Text.fields rest)[n - 3]? = some field ∧
        Text.Numeral field v) ∧
    (∀ line n, ')' ∉ line → statField line n = none) := by
  refine ⟨?_, ?_, statFieldChecked_eq, fun _ _ _ => statField_eq_some, ?_⟩
  · intro s n v
    rw [statField_text, Option.bind_eq_some_iff]
    constructor
    · rintro ⟨field, hfield, hword⟩
      have hsome : ¬ (n < 3 ∨ s.last < n) := by
        rw [← field?_eq_none_iff, hfield]
        exact fun h => nomatch h
      rw [not_or, Nat.not_lt, Nat.not_lt] at hsome
      exact ⟨hsome.1, hsome.2, field, hfield, Text.word?_eq_some.1 hword⟩
    · rintro ⟨-, -, field, hfield, hnumeral⟩
      exact ⟨field, hfield, Text.word?_eq_some.2 hnumeral⟩
  · intro s n
    rw [statField_text, ← or_assoc, ← field?_eq_none_iff]
    cases hfield : s.field? n with
    | none => exact ⟨fun _ => .inl rfl, fun _ => rfl⟩
    | some field =>
      rw [Option.bind_some, Text.word?_eq_none_iff]
      constructor
      · exact fun hnone => .inr ⟨field, rfl, hnone⟩
      · rintro (hnone | ⟨_, ⟨⟩, hnone⟩)
        · cases hnone
        · exact hnone
  · intro line n hline
    rw [statField, afterLast?_eq_none.2 hline]
    rfl

/-- A command that goes on like a status line of its own, with one parenthesis closed too many and a
line feed. Behind it are a negative number, the largest word with a plus sign, and a number that
fits no word. -/
theorem statField_exact_posing :
    let gap : Text.Gap := ⟨[' '], List.cons_ne_nil _ _, List.all_eq_true.1 rfl⟩
    let negative : StatusField :=
      ⟨⟨"-1".toList, by decide +kernel, Text.solid_of_all (by decide +kernel)⟩, by decide +kernel⟩
    let largest : StatusField :=
      ⟨⟨"+18446744073709551615".toList, by decide +kernel,
        Text.solid_of_all (by decide +kernel)⟩, by decide +kernel⟩
    let larger : StatusField :=
      ⟨⟨"18446744073709551616".toList, by decide +kernel,
        Text.solid_of_all (by decide +kernel)⟩, by decide +kernel⟩
    let s : StatusLine :=
      { pid := "7".toList, gap := gap, command := "sh) S 1\n(x".toList,
        behind := [(gap, negative), (gap, largest), (gap, larger)],
        tail := ['\n'], tail_blank := List.all_eq_true.1 rfl }
    statField s.text 3 = none ∧ statField s.text 4 = some Word.max ∧ statField s.text 5 = none ∧
      ')' ∉ "7 (sh S 1 2".toList ∧ statField "7 (sh S 1 2".toList 4 = none := by
  intro gap negative largest larger s
  obtain ⟨hsome, hnone, -, -, hopen⟩ := statField_exact
  have hnegative : ∀ v, ¬ Text.Numeral "-1".toList v :=
    Text.word?_eq_none_iff.1 (by decide +kernel)
  have hlargest : Text.Numeral "+18446744073709551615".toList Word.max :=
    Text.word?_eq_some.1 (by decide +kernel)
  have hlarger : ∀ v, ¬ Text.Numeral "18446744073709551616".toList v :=
    Text.word?_eq_none_iff.1 (by decide +kernel)
  have hunclosed : ')' ∉ "7 (sh S 1 2".toList := by decide +kernel
  refine ⟨?_, ?_, ?_, hunclosed, hopen _ 4 hunclosed⟩
  · exact (hnone s 3).2 (.inr (.inr ⟨_, rfl, hnegative⟩))
  · exact (hsome s 4 Word.max).2 ⟨Nat.le_succ 3, Nat.le_succ 4, _, rfl, hlargest⟩
  · exact (hnone s 5).2 (.inr (.inr ⟨_, rfl, hlarger⟩))

end StatusLine

end Host

end HeapLedger
