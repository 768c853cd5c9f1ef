import Mathlib.Data.List.DropRight
import HeapLedger.Host.Smaps

/-!
# `HeapLedger/Proofs/Text.lean` — blanks, numerals and bytes of a text

What reading text comes to, said without reading. Trimming leaves the text between the blanks, when
that text starts and ends with something else (`trim_of_tight`). A text is read as a word just when
it is a numeral, an optional plus sign and digits that denote a word (`word?_eq_some`). And bytes
are decoded to a text just when they are its bytes (`Host.decodeLine_eq_some`), so decoding never
takes one line end for another (`lineFeed_mem_utf8`, `Host.decodeLine_return`).
-/

set_option autoImplicit false

namespace HeapLedger

namespace Text

/-! ## Blanks -/

/-- Nothing but blanks. -/
def Blank (text : List Char) : Prop :=
  ∀ c ∈ text, isBlank c = true

/-- Starting with something else than a blank, and ending so. -/
structure Tight (text : List Char) : Prop where
  head : ∃ c, text.head? = some c ∧ isBlank c = false
  last : ∃ c, text.getLast? = some c ∧ isBlank c = false

variable {text pre mid post : List Char}

theorem tight_of_forall (hne : text ≠ []) (h : ∀ c ∈ text, isBlank c = false) : Tight text where
  head := ⟨text.head hne, List.head?_eq_some_head hne, h _ (List.head_mem hne)⟩
  last := ⟨text.getLast hne, List.getLast?_eq_some_getLast hne, h _ (List.getLast_mem hne)⟩

theorem Tight.surround (hpre : Tight pre) (hpost : Tight post) (mid : List Char) :
    Tight (pre ++ mid ++ post) := by
  obtain ⟨c, hc, hblank⟩ := hpre.head
  obtain ⟨d, hd, hblank'⟩ := hpost.last
  refine ⟨⟨c, ?_, hblank⟩, ⟨d, ?_, hblank'⟩⟩
  · rw [List.append_assoc, List.head?_append, hc, Option.some_or]
  · rw [List.getLast?_append, hd, Option.some_or]

theorem dropWhile_blank (hpre : Blank pre) {c : Char} (hc : text.head? = some c)
    (hblank : isBlank c = false) : (pre ++ text).dropWhile isBlank = text := by
  obtain ⟨rest, rfl⟩ := List.head?_eq_some_iff.1 hc
  rw [List.dropWhile_append_of_pos hpre, List.dropWhile_cons_of_neg (by simp [hblank])]

/-- What stands between blanks is what trimming leaves. -/
theorem trim_of_tight (h : Tight mid) (hpre : Blank pre) (hpost : Blank post) :
    trim (pre ++ mid ++ post) = mid := by
  obtain ⟨c, hc, hblank⟩ := h.head
  obtain ⟨d, hd, hblank'⟩ := h.last
  have hfront : (pre ++ mid ++ post).dropWhile isBlank = mid ++ post := by
    rw [List.append_assoc]
    refine dropWhile_blank hpre ?_ hblank
    rw [List.head?_append, hc, Option.some_or]
  have hback : (mid ++ post).reverse.dropWhile isBlank = mid.reverse := by
    rw [List.reverse_append]
    refine dropWhile_blank (fun c hc => hpost c (List.mem_reverse.1 hc)) ?_ hblank'
    rw [List.head?_reverse, hd]
  rw [trim, hfront, hback, List.reverse_reverse]

/-- Trimming takes away nothing but blanks, and those from the ends. -/
theorem exists_trim (text : List Char) :
    ∃ pre post, Blank pre ∧ Blank post ∧ text = pre ++ trim text ++ post := by
  refine ⟨text.takeWhile isBlank, (text.dropWhile isBlank).rtakeWhile isBlank, ?_, ?_, ?_⟩
  · intro c hc
    exact List.mem_takeWhile_imp hc
  · intro c hc
    exact List.mem_rtakeWhile_imp hc
  · have htrim : trim text = (text.dropWhile isBlank).rdropWhile isBlank := rfl
    rw [htrim, List.append_assoc, List.rdropWhile_append_rtakeWhile, List.takeWhile_append_dropWhile]

/-! ## Numerals -/

/-- An optional plus sign and digits, at least one, that denote the word `n`. -/
def Numeral (text : List Char) (n : Nat) : Prop :=
  ∃ sign digits, text = sign ++ digits ∧ (sign = [] ∨ sign = ['+']) ∧ digits ≠ [] ∧
    (∀ c ∈ digits, c.isDigit = true) ∧ Nat.ofDigitChars 10 digits 0 = n ∧ n ≤ Word.max

theorem isBlank_of_isDigit {c : Char} (h : c.isDigit = true) : isBlank c = false := by
  have hrange := Char.isDigit_iff_toNat.1 h
  have hlow : '0'.toNat = 48 := rfl
  have hhigh : '9'.toNat = 57 := rfl
  rw [hlow, hhigh] at hrange
  simp only [isBlank, blankRanges, List.any_cons, List.any_nil, Bool.or_false,
    Bool.or_eq_false_iff, decide_eq_false_iff_not]
  omega

theorem Numeral.tight {n : Nat} (h : Numeral text n) : Tight text := by
  obtain ⟨sign, digits, rfl, hsign, hne, hdigits, -⟩ := h
  apply tight_of_forall
  · exact List.append_ne_nil_of_right_ne_nil sign hne
  · intro c hc
    rcases List.mem_append.1 hc with hc | hc
    · rcases hsign with rfl | rfl
      · cases hc
      · obtain rfl := List.mem_singleton.1 hc
        rfl
    · exact isBlank_of_isDigit (hdigits c hc)

theorem digit?_eq_some {c : Char} {d : Nat} :
    digit? c = some d ↔ c.isDigit = true ∧ c.toNat - '0'.toNat = d := by
  have hrange : ('0' ≤ c ∧ c ≤ '9') ↔ c.isDigit = true := by
    simp [Char.isDigit, Char.le_def]
  unfold digit?
  rw [Option.ite_none_right_eq_some, hrange, Option.some.injEq]

theorem le_ofDigitChars (digits : List Char) (n : Nat) : n ≤ Nat.ofDigitChars 10 digits n := by
  rw [Nat.ofDigitChars_eq_ofDigitChars_zero]
  exact Nat.le_add_right_of_le (Nat.le_mul_of_pos_left n (Nat.pow_pos (by decide)))

/-- Reading stops where the number is too large for a word, and it would not get smaller. -/
theorem digits?_eq_some {acc n : Nat} {digits : List Char} (hacc : acc ≤ Word.max) :
    digits? acc digits = some n ↔
      (∀ c ∈ digits, c.isDigit = true) ∧ Nat.ofDigitChars 10 digits acc = n ∧ n ≤ Word.max := by
  induction digits generalizing acc with
  | nil =>
    rw [digits?, Nat.ofDigitChars_nil, Option.some.injEq]
    constructor
    · rintro rfl
      exact ⟨List.forall_mem_nil _, rfl, hacc⟩
    · exact fun h => h.2.1
  | cons c rest ih =>
    rw [digits?, Option.bind_eq_some_iff, List.forall_mem_cons, Nat.ofDigitChars_cons,
      Nat.mul_comm 10 acc]
    constructor
    · rintro ⟨d, hd, hrest⟩
      obtain ⟨hc, rfl⟩ := digit?_eq_some.1 hd
      obtain ⟨hfits, hrest⟩ := Option.ite_none_right_eq_some.1 hrest
      obtain ⟨hdigits, hn⟩ := (ih hfits).1 hrest
      exact ⟨⟨hc, hdigits⟩, hn⟩
    · rintro ⟨⟨hc, hdigits⟩, hn, hmax⟩
      have hle := le_ofDigitChars rest (acc * 10 + (c.toNat - '0'.toNat))
      have hfits : acc * 10 + (c.toNat - '0'.toNat) ≤ Word.max :=
        Nat.le_trans hle (hn ▸ hmax)
      exact ⟨_, digit?_eq_some.2 ⟨hc, rfl⟩, Option.ite_none_right_eq_some.2
        ⟨hfits, (ih hfits).2 ⟨hdigits, hn, hmax⟩⟩⟩

theorem dropPlus_eq (text : List Char) : text = '+' :: dropPlus text ∨ text = dropPlus text := by
  unfold dropPlus
  split
  · exact .inl rfl
  · exact .inr rfl

theorem dropPlus_of_digits {digits : List Char} (h : ∀ c ∈ digits, c.isDigit = true) :
    dropPlus digits = digits := by
  unfold dropPlus
  split
  · exact absurd (h '+' List.mem_cons_self) (by decide)
  · rfl

theorem word?_eq (text : List Char) :
    word? text = if dropPlus text = [] then none else digits? 0 (dropPlus text) := by
  unfold word?
  cases dropPlus text with
  | nil => rfl
  | cons c rest => rfl

/-- A text is read as a word just when it is a numeral for it. -/
theorem word?_eq_some {n : Nat} : word? text = some n ↔ Numeral text n := by
  rw [word?_eq, Option.ite_none_left_eq_some, digits?_eq_some (Nat.zero_le _)]
  constructor
  · rintro ⟨hne, hdigits, hn, hmax⟩
    rcases dropPlus_eq text with htext | htext
    · exact ⟨['+'], dropPlus text, htext, .inr rfl, hne, hdigits, hn, hmax⟩
    · exact ⟨[], dropPlus text, htext, .inl rfl, hne, hdigits, hn, hmax⟩
  · rintro ⟨sign, digits, rfl, hsign, hne, hdigits, hn, hmax⟩
    have hdrop : dropPlus (sign ++ digits) = digits := by
      rcases hsign with rfl | rfl
      · exact dropPlus_of_digits hdigits
      · rfl
    rw [hdrop]
    exact ⟨hne, hdigits, hn, hmax⟩

/-! ## Bytes -/

/-- The bytes of a text. -/
def utf8 (text : List Char) : List UInt8 :=
  text.flatMap String.utf8EncodeChar

theorem utf8_append (text text' : List Char) : utf8 (text ++ text') = utf8 text ++ utf8 text' :=
  List.flatMap_append

/-- A byte below 128 is a character of its own, and never a part of another one. -/
theorem eq_of_mem_utf8EncodeChar {c d : Char} {b : UInt8} (hb : b ∈ String.utf8EncodeChar c)
    (hd : d.toNat = b.toNat) (hlow : b.toNat < 128) : c = d := by
  have hval : c.toNat = c.val.toNat := rfl
  apply Char.toNat_inj.1
  revert hb
  -- The bytes of a character that takes more than one are sums with 128 or more.
  fun_cases String.utf8EncodeChar c
  all_goals
    intro hb
    simp only [List.mem_cons, List.not_mem_nil, or_false, ← UInt8.toNat_inj,
      UInt8.toNat_ofNat'] at hb
    omega

theorem lineFeed_mem_utf8 : 10 ∈ utf8 text ↔ '\n' ∈ text := by
  unfold utf8
  rw [List.mem_flatMap]
  constructor
  · rintro ⟨c, hc, hb⟩
    obtain rfl : c = '\n' := eq_of_mem_utf8EncodeChar hb rfl (by decide)
    exact hc
  · intro h
    exact ⟨'\n', h, List.mem_singleton_self _⟩

/-- A text whose last byte is a carriage return ends with that character. -/
theorem eq_concat_of_utf8 {line : List UInt8} (h : line ++ [13] = utf8 text) :
    ∃ rest, text = rest ++ ['\r'] ∧ line = utf8 rest := by
  rcases List.eq_nil_or_concat text with rfl | ⟨rest, c, rfl⟩
  · exact absurd h (List.append_ne_nil_of_right_ne_nil _ (List.cons_ne_nil _ _))
  · have hc : utf8 [c] = String.utf8EncodeChar c := List.append_nil _
    rw [List.concat_eq_append, utf8_append, hc] at h
    have hlast : (String.utf8EncodeChar c).getLast? = some 13 := by
      have hwhole := congrArg List.getLast? h
      rw [List.getLast?_concat, List.getLast?_append_of_ne_nil _ String.utf8EncodeChar_ne_nil]
        at hwhole
      exact hwhole.symm
    have hmem : 13 ∈ String.utf8EncodeChar c := List.mem_of_getLast? hlast
    obtain rfl : c = '\r' := eq_of_mem_utf8EncodeChar hmem rfl (by decide)
    exact ⟨rest, List.concat_eq_append, (List.append_inj' h rfl).1⟩

end Text

namespace Host

theorem decodeLine_eq_some {line : List UInt8} {text : List Char} :
    decodeLine line = some text ↔ line = Text.utf8 text := by
  have hbytes : ∀ text, (Text.utf8 text).toByteArray = (String.ofList text).toByteArray :=
    fun _ => String.toByteArray_ofList.symm
  unfold decodeLine String.fromUTF8?
  constructor
  · intro h
    obtain ⟨s, hs, rfl⟩ := Option.map_eq_some_iff.1 h
    obtain ⟨hvalid, hs⟩ := Option.dite_none_right_eq_some.1 hs
    cases hs
    rw [← List.toByteArray_inj, hbytes, String.ofList_toList]
    rfl
  · rintro rfl
    rw [hbytes, dif_pos (String.ofList text).isValidUTF8]
    exact congrArg some String.toList_ofList

theorem decodeLine_return (line : List UInt8) :
    decodeLine (line ++ [13]) = (decodeLine line).map (· ++ ['\r']) := by
  apply Option.ext
  intro text
  rw [Option.map_eq_some_iff, decodeLine_eq_some]
  constructor
  · intro h
    obtain ⟨rest, htext, hline⟩ := Text.eq_concat_of_utf8 h
    exact ⟨rest, decodeLine_eq_some.2 hline, htext.symm⟩
  · rintro ⟨rest, hline, rfl⟩
    rw [Text.utf8_append, decodeLine_eq_some.1 hline]
    rfl

end Host

end HeapLedger
