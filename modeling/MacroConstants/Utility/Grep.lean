import MacroConstants.Utility.Basic
import MacroConstants.Utility.Regex.Reader

/-!
# Lines that match

* `Utility.grep` — the lines of files in which an expression matches.
-/

namespace MacroConstants.Utility

/-- What is searched for, and what is shown of it. -/
structure Search where
  expressions : List Regex
  /-- Whether lines without a match are meant. -/
  inverted : Bool
  /-- Whether matches have to be whole lines. -/
  wholeLines : Bool
  /-- Whether matches have to be whole words. -/
  wholeWords : Bool
  onlyMatches : Bool
  numbers : Bool
  names : Bool
  /-- How many lines around a match are shown. -/
  before : Nat
  after : Nat
  /-- After how many lines the search ends. -/
  most : Option Nat

namespace Search

variable (s : Search)

/-- Whether a match counts. -/
def accepts (text : ByteArray) (start stop : Nat) : Bool :=
  (!s.wholeLines || (start == 0 && stop == text.size)) &&
    (!s.wholeWords || (!(start != 0 && Border.wordAt text (start - 1)) && !Border.wordAt text stop))

/-- The first match at a place or after it, of any expression. -/
def first (text : ByteArray) (i : Nat) : Option Match :=
  (s.expressions.filterMap fun p => p.findWith text (s.accepts text) i).foldl
    (fun best m =>
      match best with
      | none => some m
      | some b => if m.start < b.start || (m.start == b.start && b.stop < m.stop) then some m
        else best) none

/-- Whether a line is meant. -/
def selects (line : Bytes) : Bool :=
  s.inverted != (s.first (ByteArray.mk line.toArray) 0).isSome

/-- The matches in a line that are not empty, at most `n`. -/
def pieces (text : ByteArray) : Nat → Nat → List Bytes
  | 0, _ => []
  | n + 1, i =>
    match s.first text i with
    | none => []
    | some m =>
      if m.stop = m.start then pieces text n (m.start + 1)
      else (text.extract m.start m.stop).toList :: pieces text n m.stop

/-- The numbers of the meant lines. -/
def chosen (lines : List Bytes) : List Nat :=
  let all := (lines.zipIdx 1).filterMap fun (line, i) => if s.selects line then some i else none
  match s.most with
  | none => all
  | some n => all.take n

/-- A line as it is shown; `mark` stands after its name and number. -/
def row (name : Bytes) (mark : Bytes) (number : Nat) (text : Bytes) : Bytes :=
  (if s.names then name ++ mark else [])
    ++ (if s.numbers then Numeral.decimal number ++ mark else []) ++ text ++ bytes "\n"

/-- The shown lines of a file. -/
def shown (name : Bytes) (lines : List Bytes) : List Bytes :=
  let chosen := s.chosen lines
  if s.onlyMatches then
    if s.inverted then []
    else
      (lines.zipIdx 1).flatMap fun (line, i) =>
        if !chosen.contains i then []
        else (s.pieces (ByteArray.mk line.toArray) (line.length + 1) 0).map
          (s.row name (bytes ":") i)
  else if s.before = 0 ∧ s.after = 0 then
    (lines.zipIdx 1).filterMap fun (line, i) =>
      if chosen.contains i then some (s.row name (bytes ":") i line) else none
  else
    let near (i : Nat) : Bool := chosen.any fun c => c ≤ i + s.before && i ≤ c + s.after
    let around := (lines.zipIdx 1).filter fun (_, i) => near i
    (around.zip (0 :: around.map (·.2))).map fun ((line, i), last) =>
      (if last != 0 && last + 1 < i then bytes "--\n" else [])
        ++ s.row name (bytes (if chosen.contains i then ":" else "-")) i line

end Search

/-- A text as an expression that matches it alone. -/
def literal (s : Bytes) : Regex := s.foldr (fun b p => .seq (.one ⟨false, [(b, b)]⟩) p) .empty

/-- How a call ends that is not understood. -/
def grepUsage (text : Bytes) : Job Nat := do
  if !text.isEmpty then warn "grep" text
  Job.complain (bytes "Usage: grep [OPTION]... PATTERNS [FILE]...\n")
  Job.complain (bytes "Try 'grep --help' for more information.\n")
  return 2

/-- What is shown of one file, and whether lines were selected in it. -/
def searchFile (o : Options) (s : Search) (operand text : Bytes) : Job Bool := do
  let name := if operand = bytes "-" then bytes "(standard input)" else operand
  let lines := bareLines text
  let count := (s.chosen lines).length
  if o.has "q" then pure ()
  else if o.has "l" || o.has "L" then
    if o.has "l" == (0 < count : Bool) then Job.say (name ++ bytes "\n")
  else if o.has "c" then
    Job.say ((if s.names then name ++ bytes ":" else []) ++ Numeral.decimal count ++ bytes "\n")
  else Job.say (s.shown name lines).flatten
  return 0 < count

/-- Searches files. -/
def searchFiles (o : Options) (s : Search) (operands : List Bytes) : Job Nat := do
  let (found, failed) ← operands.foldlM (fun (found, failed) operand => do
    if o.has "q" && found then return (found, failed)
    match ← input operand with
    | .ok text => return ((← searchFile o s operand text) || found, failed)
    | .error fault =>
      if !o.has "s" then warn "grep" (plainWording operand fault)
      return (found, true)) (false, false)
  return if failed && !(o.has "q" && found) then 2 else if found then 0 else 1

/-- The options that are understood. -/
def grepOptions : OptionTable :=
  table "EFGviIcnqolLhHswxze:f:m:A:B:C:arR" [("extended-regexp", "E", false),
    ("fixed-strings", "F", false), ("basic-regexp", "G", false), ("invert-match", "v", false),
    ("ignore-case", "i", false), ("count", "c", false), ("line-number", "n", false),
    ("quiet", "q", false), ("silent", "q", false), ("only-matching", "o", false),
    ("files-with-matches", "l", false), ("files-without-match", "L", false),
    ("no-filename", "h", false), ("with-filename", "H", false), ("no-messages", "s", false),
    ("word-regexp", "w", false), ("line-regexp", "x", false), ("regexp", "e", true),
    ("file", "f", true), ("max-count", "m", true), ("after-context", "A", true),
    ("before-context", "B", true), ("context", "C", true), ("text", "a", false)]

/-- Prints the lines in which an expression matches. -/
def grep : Utility := fun args => do
  match readOptions grepOptions args with
  | .error fault => grepUsage fault.message
  | .ok o =>
    let files ← (o.all "f").mapM fun path => do return (path, ← input path)
    let given := o.has "e" || o.has "f"
    match given, o.operands, files.find? fun (_, r) => !r.toBool with
    | _, _, some (path, .error fault) =>
      warn "grep" (plainWording path fault)
      return 2
    | false, [], _ => grepUsage []
    | _, operands, _ =>
      let texts := if given then o.all "e" else [operands.headD []]
      let patterns := texts.flatMap Bytes.lines
        ++ files.flatMap fun (_, r) => (r.toOption.map bareLines).getD []
      let operands := if given then operands else operands.tail
      let operands := if operands.isEmpty then [bytes "-"] else operands
      let read (s : Bytes) : Except Regex.Fault Regex :=
        if o.has "F" then .ok (literal s)
        else Regex.read { extended := o.has "E", lenient := true } s
      match patterns.mapM read with
      | .error fault =>
        warn "grep" fault.message
        return 2
      | .ok expressions =>
        let number (name : String) : Option Nat := (o.get? name).bind natural?
        let around := (number "C").getD 0
        searchFiles o
          { expressions := if o.has "i" then expressions.map Regex.caseless else expressions
            inverted := o.has "v", wholeLines := o.has "x", wholeWords := o.has "w"
            onlyMatches := o.has "o", numbers := o.has "n"
            names := o.has "H" || (1 < operands.length && !o.has "h")
            before := (number "B").getD around, after := (number "A").getD around
            most := number "m" } operands

end MacroConstants.Utility
