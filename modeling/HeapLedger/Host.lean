import HeapLedger.Event
import HeapLedger.Host.Pages
import HeapLedger.Host.Settings
import HeapLedger.Host.Smaps
import HeapLedger.Host.Stat
import HeapLedger.Memory

/-!
# `HeapLedger/Host.lean` — what the operating system thinks

A host answers questions about a process's memory and takes whole pages back. Every question has
the answer zero where the host cannot tell, which is also what a host without any of this says.

`Machine.host` is a host that reads status files. What it would find there is a value, a `Machine`:
the text of the files or the error of opening them, the counts of pages, and which ranges the
system refuses to take back.
-/

set_option autoImplicit false

namespace HeapLedger

/-- Questions about memory, with what gets logged on the way. -/
structure Host where
  label : String
  residentBytes : Nat × List Event := (0, [])
  physicalBytes : Nat := 0
  /-- Bytes of a field, added up over the mappings of a process (this one, if none is named). -/
  mappedBytes : String → Option Nat → Except Fault (Nat × List Event) := fun _ _ => .ok (0, [])
  pageSize : Nat := 0
  /-- Takes back the whole pages in the `len` bytes from an address: how many bytes that was, and
  the memory afterwards. -/
  releasePages : Nat → Nat → Memory → Nat × Memory × List Event := fun _ _ m => (0, m, [])

namespace Host

/-- The host that can tell nothing. -/
def unsupported : Host where
  label := "Unsupported"

/-- Bytes in private pages of a process that were written to. -/
def privateDirtyBytes (h : Host) (pid : Option Nat) : Except Fault (Nat × List Event) :=
  h.mappedBytes "Private_Dirty:" pid

end Host

/-- What there is to be found out about a system. -/
structure Machine where
  pageSize : Nat
  physicalPages : Nat
  /-- The status line of this process. -/
  stat : Except OsError String
  /-- The mappings of a process (this one, if none is named). -/
  smaps : Option Nat → Except OsError (List UInt8)
  /-- Why the system would not take back a range of pages. -/
  refusesRelease : Nat → Nat → Option OsError

namespace Machine

/-- The number under which a system answers with its page size. -/
def pageSizeName : Nat := 30

/-- The number under which a system answers with its count of physical pages. -/
def physicalPagesName : Nat := 85

/-- The system's answer to a numbered question, zero for one it does not know. -/
def sysconf (m : Machine) (name : Nat) : Nat :=
  if name = pageSizeName then m.pageSize
  else if name = physicalPagesName then m.physicalPages
  else Host.setting name

/-- The field of a status line that counts resident pages. -/
def residentField : Nat := 24

def residentBytes (m : Machine) : Nat × List Event :=
  match m.stat with
  | .error e => (0, [.statUnreadable e])
  | .ok line =>
      match Host.statField line.toList residentField with
      | none => (0, [.statWithoutResident])
      | some pages => (Word.mulSaturating pages m.pageSize, [])

def mappedBytes (m : Machine) (field : String) (pid : Option Nat) :
    Except Fault (Nat × List Event) :=
  match m.smaps pid with
  | .error e => .ok (0, [.smapsUnreadable pid e])
  | .ok report => (Host.sumField report field.toList).map fun bytes => (bytes, [])

/-- Why a range of pages is not taken back. A range that leaves the address space is nothing that a
system could take. -/
def refusal (m : Machine) (start bytes : Nat) : Option OsError :=
  if Word.limit ≤ start + bytes then some .invalidArgument else m.refusesRelease start bytes

/-- Takes back the whole pages of a range. They stay mapped and read as zeros. -/
def releasePages (m : Machine) (ptr len : Nat) (memory : Memory) : Nat × Memory × List Event :=
  match Host.wholePages ptr len m.pageSize with
  | none => (0, memory, [])
  | some (start, bytes) =>
      match m.refusal start bytes with
      | some e => (0, memory, [.releaseRefused bytes e])
      | none => (bytes, memory.fill start bytes 0, [])

def host (m : Machine) : Host where
  label := "Linux"
  residentBytes := m.residentBytes
  physicalBytes := Word.mulSaturating m.physicalPages m.pageSize
  mappedBytes := m.mappedBytes
  pageSize := m.pageSize
  releasePages := m.releasePages

/-! ## Particular machines -/

def smallPid : Nat := 1

/-- A small machine in good order, with one process and no other. -/
def small : Machine where
  pageSize := 4096
  physicalPages := 1 <<< 20
  stat := .ok (toString smallPid ++
    " (ledger) S 0 1 1 0 -1 4194560 100 0 0 0 1 1 0 0 20 0 1 0 100 8388608 512 " ++
    "18446744073709551615 1 1 0 0 0 0 0 0 0 0 0 0 17 0 0 0 0 0 0")
  smaps := fun pid =>
    if pid.getD smallPid = smallPid then
      .ok ("Rss:                2048 kB\nPrivate_Dirty:      1024 kB\n".toUTF8.toList)
    else .error .noSuchFile
  refusesRelease := fun _ _ => none

def withoutFiles (m : Machine) : Machine :=
  { m with stat := .error .tooManyFiles, smaps := fun _ => .error .tooManyFiles }

/-- The machine when nothing is mapped below `limit`. -/
def unmappedBelow (m : Machine) (limit : Nat) : Machine :=
  { m with refusesRelease := fun start _ => if start < limit then some .notMapped else none }

end Machine

end HeapLedger
