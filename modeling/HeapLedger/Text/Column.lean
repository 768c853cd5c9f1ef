/-!
# `HeapLedger/Text/Column.lean` — text in columns

Text that is wider than its column is not cut.
-/

set_option autoImplicit false

namespace HeapLedger.Text

def flushLeft (width : Nat) (text : String) : String :=
  String.ofList (text.toList.rightpad width ' ')

def flushRight (width : Nat) (text : String) : String :=
  String.ofList (text.toList.leftpad width ' ')

end HeapLedger.Text
