/-!
# `HeapLedger/Host/Settings.lean` — what a system says about itself by number

Programs ask a system for its limits and options by number. Most answers are fixed by the standards
that the system keeps and by the C library, and are the same on every 64-bit machine; they are in
this table. An option that the system has is answered with the date of the standard that describes
it. The answers that depend on one machine (its pages, its processors, its caches, the limits set
for a process) are not in the table, and neither are the answers that are not positive.
-/

set_option autoImplicit false

namespace HeapLedger.Host

def standardDate : Nat := 200809

/-- Parts of the standard that the system has: its base, real time, threads, and the shell with its
tools. -/
def standardParts : List Nat :=
  [9, 10, 11, 12, 13, 14, 15, 16, 17, 18, 19, 20, 21, 22, 29, 46, 47, 48, 51, 52, 67, 68, 77, 78,
    79, 80, 81, 82, 95, 96, 132, 133, 137, 138, 139, 149, 153, 154, 159, 164, 235, 236]

/-- Options that are there and have no date. -/
def plainOptions : List Nat :=
  [7, 8, 91, 93, 94, 98, 99, 100, 127, 129, 130, 131, 155, 157, 178, 239]

/-- Limits of the running system: argument bytes, clock ticks, groups, streams, priorities, signals,
semaphores, vectors, names, threads and exit handlers. -/
def systemLimits : List (Nat × Nat) :=
  [(0, 2097152), (2, 100), (3, 65536), (5, 16), (25, 20), (26, 2147483647), (28, 32768), (31, 32),
    (33, 2147483647), (60, 1024), (69, 1024), (70, 1024), (71, 256), (72, 32), (73, 4), (74, 1024),
    (75, 16384), (87, 2147483647), (88, 8192), (89, 700), (90, 4), (109, 20), (180, 64)]

/-- Limits of the shell's tools: numbers, collation, expressions, lines and patterns. -/
def toolLimits : List (Nat × Nat) :=
  [(36, 99), (37, 2048), (38, 99), (39, 1000), (40, 255), (42, 32), (43, 2048), (44, 32767),
    (45, 2048)]

/-- Limits of the C types, and of messages. -/
def typeLimits : List (Nat × Nat) :=
  [(101, 8), (102, 127), (104, 2147483647), (106, 64), (107, 32), (108, 16), (110, 32767),
    (111, 127), (113, 32767), (115, 255), (116, 4294967295), (118, 65535), (119, 4096),
    (120, 2048), (121, 2147483647), (122, 2147483647), (123, 2147483647), (124, 2147483647)]

def settings : List (Nat × Nat) :=
  standardParts.map (·, standardDate) ++ plainOptions.map (·, 1) ++ systemLimits ++ toolLimits ++
    typeLimits

/-- The answer under a number, and zero for a number without one. -/
def setting (name : Nat) : Nat :=
  (settings.lookup name).getD 0

end HeapLedger.Host
