import HeapLedger.Word

/-!
# `HeapLedger/Host/Pages.lean` — the whole pages inside a range

Memory goes back to the host by the page. `wholePages` finds the pages that lie wholly inside a
range of addresses: the first page boundary at or after its start, and the bytes of whole pages
from there to its end. It answers nothing when there is no such page, when rounding the start up
would leave the word, and when the page size is not a power of two.
-/

set_option autoImplicit false

namespace HeapLedger.Host

/-- Where the whole pages in the `len` bytes from `address` start, and how many bytes they are. -/
def wholePages (address len page : Nat) : Option (Nat × Nat) :=
  let start := Word.roundUp address page
  let bytes := Word.clearLow (len - (start - address)) page
  if ¬ page.isPowerOfTwo then none
  else if Word.limit ≤ start then none
  else if len < start - address then none
  else if bytes = 0 then none
  else some (start, bytes)

end HeapLedger.Host
