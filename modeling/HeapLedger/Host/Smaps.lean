import HeapLedger.Fault
import HeapLedger.Text.Blank
import HeapLedger.Text.Decimal

/-!
# `HeapLedger/Host/Smaps.lean` — adding up a field over every mapping

A report on mappings has lines such as `Rss:   40 kB` among others. `sumField` adds up the counts
of one field and answers in bytes; the sum is held at the largest word.

The report is bytes, and each line is decoded on its own. Reading stops at the first line that is
not valid UTF-8, so lines after it do not count. Turning one count into bytes is a product of
words, and a count too large for it is a fault.
-/

set_option autoImplicit false

namespace HeapLedger.Host

/-- The content of a line read backwards, less the carriage return that may end it. -/
def lineContent : List UInt8 → List UInt8
  | 13 :: rest => rest.reverse
  | line => line.reverse

/-- The lines of the rest of a report, when `line` has been read of the first one, backwards. A
line feed ends a line, together with a carriage return right before it; what follows the last line
feed is a line unless it is empty. -/
def splitLines (line : List UInt8) : List UInt8 → List (List UInt8)
  | [] => if line.isEmpty then [] else [line.reverse]
  | 10 :: rest => lineContent line :: splitLines [] rest
  | b :: rest => splitLines (b :: line) rest

def decodeLine (line : List UInt8) : Option (List Char) :=
  (String.fromUTF8? line.toByteArray).map String.toList

/-- The decoded lines before the first that cannot be decoded. -/
def decodeLines : List (List UInt8) → List (List Char)
  | [] => []
  | line :: rest =>
      match decodeLine line with
      | some chars => chars :: decodeLines rest
      | none => []

/-- The count in a line for `field`, in kilobytes. -/
def fieldCount? (field line : List Char) : Option Nat := do
  let rest ← field.isPrefixOf? line
  let count ← "kB".toList.isSuffixOf? (Text.trim rest)
  Text.word? (Text.trim count)

def kilobytes (count : Nat) : Except Fault Nat :=
  if count * 1024 < Word.limit then .ok (count * 1024) else .error .mulOverflow

/-- The total in bytes of the counts for `field`, added to `total`. -/
def addCounts (field : List Char) (total : Nat) : List (List Char) → Except Fault Nat
  | [] => .ok total
  | line :: rest =>
      match fieldCount? field line with
      | none => addCounts field total rest
      | some count =>
          match kilobytes count with
          | .error fault => .error fault
          | .ok bytes => addCounts field (Word.addSaturating total bytes) rest

/-- The bytes of `field` over all mappings of a report. -/
def sumField (report : List UInt8) (field : List Char) : Except Fault Nat :=
  addCounts field 0 (decodeLines (splitLines [] report))

end HeapLedger.Host
