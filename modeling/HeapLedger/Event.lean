import HeapLedger.Introspection

/-!
# `HeapLedger/Event.lean` — what gets logged

Allocating and freeing log nothing. What does is rare: a new out-of-memory handler, the default
handler at work, a purge, and questions to the host that it would not answer.
-/

set_option autoImplicit false

namespace HeapLedger

structure OsError where
  code : Nat
  meaning : String
  deriving DecidableEq, Repr

namespace OsError

def noSuchFile : OsError := ⟨2, "No such file or directory"⟩

def notMapped : OsError := ⟨12, "Cannot allocate memory"⟩

def invalidArgument : OsError := ⟨22, "Invalid argument"⟩

def tooManyFiles : OsError := ⟨24, "Too many open files"⟩

def message (e : OsError) : String :=
  e.meaning ++ " (os error " ++ toString e.code ++ ")"

end OsError

inductive Level where
  | debug
  | warn
  | error
  deriving DecidableEq, Repr

def Level.label : Level → String
  | .debug => "DEBUG"
  | .warn => "WARN"
  | .error => "ERROR"

/-- Something worth a log record. -/
inductive Event where
  | handlerReplaced
  | outOfMemory (size : Nat)
  | purged (outcome : PurgeOutcome)
  | statUnreadable (error : OsError)
  | statWithoutResident
  /-- The mappings of a process (this one, if none is named) could not be read. -/
  | smapsUnreadable (pid : Option Nat) (error : OsError)
  | releaseRefused (bytes : Nat) (error : OsError)
  deriving DecidableEq, Repr

namespace Event

def level : Event → Level
  | .handlerReplaced | .purged _ | .smapsUnreadable _ _ => .debug
  | .statUnreadable _ | .statWithoutResident | .releaseRefused _ _ => .warn
  | .outOfMemory _ => .error

def smapsPath : Option Nat → String
  | none => "/proc/self/smaps"
  | some pid => "/proc/" ++ toString pid ++ "/smaps"

def message : Event → String
  | .handlerReplaced => "replacing out of memory handler"
  | .outOfMemory size => "out of memory trying to allocate " ++ toString size ++ " bytes"
  | .purged outcome => "purge: " ++ outcome.label
  | .statUnreadable e => "reading /proc/self/stat failed: " ++ e.message
  | .statWithoutResident => "/proc/self/stat has no rss field"
  | .smapsUnreadable pid e => "reading " ++ smapsPath pid ++ " failed: " ++ e.message
  | .releaseRefused bytes e =>
      "madvise(MADV_DONTNEED) of " ++ toString bytes ++ " bytes failed: " ++ e.message

/-- The part of the program that a log names as the event's origin. -/
def origin : Event → String
  | .handlerReplaced | .outOfMemory _ => "tallyalloc::oom"
  | .purged _ => "tallyalloc::accountant"
  | .statUnreadable _ | .statWithoutResident | .smapsUnreadable _ _ | .releaseRefused _ _ =>
      "tallyalloc::host::linux"

def line (e : Event) : String :=
  e.level.label ++ " " ++ e.message

end Event

end HeapLedger
