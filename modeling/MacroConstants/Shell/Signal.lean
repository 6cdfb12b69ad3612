import MacroConstants.Shell.Integer

/-!
# Signals

* `Shell.signalNames` — the signals by name.
* `Shell.signal?` — the signal that a name or number denotes.
* `Shell.isHarmless` — the signals that end nothing.
-/

namespace MacroConstants.Shell

/-- The signals by name; zero stands for the end of a script. -/
def signalNames : List (Bytes × Nat) :=
  let low :=
    ["EXIT", "HUP", "INT", "QUIT", "ILL", "TRAP", "ABRT", "BUS", "FPE", "KILL", "USR1", "SEGV",
     "USR2", "PIPE", "ALRM", "TERM", "16", "CHLD", "CONT", "STOP", "TSTP", "TTIN", "TTOU", "URG",
     "XCPU", "XFSZ", "VTALRM", "PROF", "WINCH", "IO", "PWR", "SYS", "32", "33", "RTMIN"].map bytes
  let up := (List.range 15).map fun i => bytes "RTMIN+" ++ Numeral.decimal (i + 1)
  let down := (List.range 14).map fun i => bytes "RTMAX-" ++ Numeral.decimal (14 - i)
  (low ++ up ++ down ++ [bytes "RTMAX"]).zipIdx

/-- The name of a signal. -/
def signalName (n : Nat) : Bytes :=
  match signalNames.find? (·.2 == n) with
  | some (name, _) => name
  | none => Numeral.decimal n

/-- A letter as a capital. -/
def capital (b : UInt8) : UInt8 := if ascii 'a' ≤ b ∧ b ≤ ascii 'z' then b - 32 else b

/-- The signal that a name or number denotes. -/
def signal? (s : Bytes) : Option Nat :=
  if !s.isEmpty && s.all Bytes.isDigit then
    let n := Numeral.value 10 s
    if n < 65 then some n else none
  else signalNames.lookup (s.map capital)

/-- Whether a signal ends nothing. -/
def isHarmless (n : Nat) : Bool := [0, 17, 18, 19, 20, 21, 22, 23, 28].contains n

/-- What is said of a process that a signal has ended. -/
def signalMessage (n : Nat) : Bytes :=
  match [(1, "Hangup"), (3, "Quit"), (4, "Illegal instruction"), (5, "Trace/breakpoint trap"),
      (6, "Aborted"), (7, "Bus error"), (8, "Floating point exception"), (9, "Killed"),
      (10, "User defined signal 1"), (11, "Segmentation fault"), (12, "User defined signal 2"),
      (14, "Alarm clock"), (15, "Terminated"), (16, "Stack fault"), (24, "CPU time limit exceeded"),
      (25, "File size limit exceeded"), (26, "Virtual timer expired"),
      (27, "Profiling timer expired"), (29, "I/O possible"), (30, "Power failure"),
      (31, "Bad system call")].lookup n with
  | some text => bytes text
  | none => bytes "Signal " ++ Numeral.decimal n

end MacroConstants.Shell
