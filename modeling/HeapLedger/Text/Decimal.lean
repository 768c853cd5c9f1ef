import HeapLedger.Word

/-!
# `HeapLedger/Text/Decimal.lean` — words written in decimal

A word in a text is an optional plus sign and at least one ASCII digit, and denotes a number that
fits a word. Anything else is no word: a sign alone, a minus sign, a blank, or too many digits.
-/

set_option autoImplicit false

namespace HeapLedger.Text

def digit? (c : Char) : Option Nat :=
  if '0' ≤ c ∧ c ≤ '9' then some (c.toNat - '0'.toNat) else none

/-- The word that the digits spell after those already read as `acc`. -/
def digits? (acc : Nat) : List Char → Option Nat
  | [] => some acc
  | c :: rest =>
      (digit? c).bind fun d =>
        if acc * 10 + d ≤ Word.max then digits? (acc * 10 + d) rest else none

def dropPlus : List Char → List Char
  | '+' :: rest => rest
  | text => text

def word? (text : List Char) : Option Nat :=
  match dropPlus text with
  | [] => none
  | c :: rest => digits? 0 (c :: rest)

end HeapLedger.Text
