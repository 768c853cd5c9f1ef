import HeapLedger.Text.Blank
import HeapLedger.Text.Decimal

/-!
# `HeapLedger/Host/Stat.lean` — fields of a process status line

The line reads `pid (command) state ...`. A command may hold blanks and parentheses of its own, so
fields are counted from the last closing parenthesis: the first field after it is number three.
-/

set_option autoImplicit false

namespace HeapLedger.Host

/-- What follows the last `mark`. -/
def afterLast? (mark : Char) : List Char → Option (List Char)
  | [] => none
  | c :: rest => (afterLast? mark rest).or (if c = mark then some rest else none)

/-- The number in field `n` of a status line, counted from one. -/
def statField (line : List Char) (n : Nat) : Option Nat := do
  let rest ← afterLast? ')' line
  if n < 3 then none
  else
    let field ← (Text.fields rest)[n - 3]?
    Text.word? field

end HeapLedger.Host
