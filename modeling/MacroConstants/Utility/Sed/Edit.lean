import MacroConstants.Bytes.Numeral
import MacroConstants.Utility.Sed.Script

/-!
# Editing lines

Lines go one by one through a script, each in a cycle of its own.

* `Sed.Editor` — the line at hand and what was printed so far.
* `Sed.perform` — one command.
* `Sed.edit` — the whole input.
-/

namespace MacroConstants.Utility.Sed

/-- A line of the input. -/
structure Line where
  text : Bytes
  /-- Whether it has a newline at its end. -/
  closed : Bool
  /-- The file it comes from. -/
  file : Bytes

/-- The line at hand, what is kept beside it, and what was printed. -/
structure Editor where
  /-- The lines that were not read yet. -/
  input : List Line
  pattern : Bytes := []
  hold : Bytes := []
  /-- The byte at the end of lines. -/
  mark : UInt8 := ascii '\n'
  number : Nat := 0
  /-- Whether the line at hand is printed with its mark at the end, and the kept one. -/
  closed : Bool := true
  holdClosed : Bool := true
  file : Bytes := []
  /-- Whether something was replaced since the last line was read. -/
  replaced : Bool := false
  /-- What is printed at the end of the cycle, last first. -/
  queue : List Bytes := []
  /-- The commands whose ranges are open, with the last line where that is known. -/
  ranges : List (Nat × Option Nat) := []
  expression : Option Regex := none
  /-- What was printed, last first. -/
  out : List Bytes := []
  /-- Whether a newline is still missing in what was printed. -/
  owes : Bool := false
  /-- What was written to files, last first. -/
  written : List (Bytes × Bytes) := []
  /-- Whether an expression was asked for that was never given. -/
  failed : Bool := false

/-- What is done with an editor. -/
abbrev Editing := StateM Editor

/-- How a command goes on. -/
inductive Outcome where
  | goto (command : Nat)
  | endCycle
  | dropCycle
  /-- A new cycle with what is left of the line at hand. -/
  | restart
  | stop (status : Nat) (prints : Bool)
  deriving DecidableEq, Repr

/-! ### Printing -/

/-- Prints a text with a newline, unless that is missing in the input. -/
def emit (text : Bytes) (closed : Bool) : Editing Unit :=
  modify fun e =>
    let text := if e.owes then e.mark :: text else text
    { e with out := (if closed then text ++ [e.mark] else text) :: e.out, owes := !closed }

/-- Prints a text as it is. -/
def emitText (text : Bytes) : Editing Unit :=
  modify fun e =>
    { e with out := (if e.owes then e.mark :: text else text) :: e.out, owes := false }

/-- Prints the line at hand. -/
def emitPattern : Editing Unit := do emit (← get).pattern (← get).closed

/-- Writes a line to a file. -/
def writeTo (path text : Bytes) : Editing Unit :=
  modify fun e =>
    let text := if e.closed then text ++ [e.mark] else text
    if path = bytes "/dev/stdout" then { e with out := text :: e.out }
    else { e with written := (path, text) :: e.written }

/-- Prints what was put off to the end of the cycle. -/
def flush : Editing Unit := do
  (← get).queue.reverse.forM emitText
  modify ({ · with queue := [] })

/-- Reads the next line; whether there is one. -/
def advance : Editing Bool := do
  let e ← get
  match e.input with
  | [] => return false
  | line :: input =>
    set { e with
      input, pattern := line.text, closed := line.closed, file := line.file
      number := e.number + 1 }
    return true

/-! ### Selecting -/

/-- The expression that is meant; an empty one is the one used last. -/
def resolved (p : Expression) : Editing Regex := do
  match p, (← get).expression with
  | some p, _ =>
    modify ({ · with expression := some p })
    return p
  | none, some p => return p
  | none, none =>
    modify ({ · with failed := true })
    return .one ⟨false, []⟩

/-- Whether the line at hand has an address. -/
def hasAddress : Address → Editing Bool
  | .line n => return (← get).number == n
  | .last => return (← get).input.isEmpty
  | .contains p => return (← resolved p).isMatch (ByteArray.mk (← get).pattern.toArray)
  | .every first step => do
    let n := (← get).number
    return if step = 0 then n == first else first ≤ n && (n - first) % step == 0

/-- Opens the range of a command; `stop` is its last line where that is known. -/
def openRange (i : Nat) (stop : Option Nat) : Editing Unit :=
  modify fun e => { e with ranges := (i, stop) :: e.ranges }

/-- Closes the range of a command. -/
def closeRange (i : Nat) : Editing Unit :=
  modify fun e => { e with ranges := e.ranges.filter (·.1 != i) }

/-- Whether the line at hand starts a range. -/
def startsRange (i : Nat) (start : Address) (stop : Reach) : Editing Bool := do
  if !(← hasAddress start) then return false
  let n := (← get).number
  let last := match stop with
    | .address (.line m) => some m
    | .further m => some (n + m)
    | .multiple m => some (if m = 0 then n else (n + m - 1) / m * m)
    | .address _ => none
  match last with
  | some m => if n < m then openRange i last
  | none =>
    let atLast := stop == .address .last && (← get).input.isEmpty
    if !atLast then openRange i none
  return true

/-- Whether the line at hand is in an open range. -/
def staysInRange (i : Nat) (stop : Reach) (last : Option Nat) : Editing Bool := do
  let n := (← get).number
  match last, stop with
  | some m, _ =>
    if m ≤ n then closeRange i
    return n ≤ m
  | none, .address a =>
    if ← hasAddress a then closeRange i
    return true
  | none, _ => return true

/-- Whether the line at hand is selected by a command. -/
def selects (i : Nat) (s : Selection) : Editing Bool := do
  let inside ← match s.start, s.stop with
    | none, _ => pure true
    | some a, none => hasAddress a
    | some a, some stop =>
      match (← get).ranges.lookup i with
      | none => startsRange i a stop
      | some last => staysInRange i stop last
  return inside != s.negated

/-! ### Replacing -/

/-- A byte with its case changed. -/
def changeCase (toUpper : Bool) (b : UInt8) : UInt8 :=
  if Bytes.isLetter b then (if toUpper then b &&& 0xdf else b ||| 0x20) else b

/-- A text under the changes of case in force; a change of the next byte is used up. -/
def applyCase (lasting next : Option Bool) (s : Bytes) : Bytes × Option Bool :=
  let change (c : Option Bool) (b : UInt8) : UInt8 := (c.map fun u => changeCase u b).getD b
  match s with
  | [] => ([], next)
  | b :: rest => (change (next <|> lasting) b :: rest.map (change lasting), none)

/-- The text that replaces a match. -/
def expand (text : ByteArray) (m : Match) :
    List Part → Option Bool → Option Bool → Bytes
  | [], _, _ => []
  | .change c :: parts, lasting, _ =>
    match c with
    | .upper => expand text m parts (some true) none
    | .lower => expand text m parts (some false) none
    | .upperNext => expand text m parts lasting (some true)
    | .lowerNext => expand text m parts lasting (some false)
    | .none => expand text m parts none none
  | .text b :: parts, lasting, next =>
    let (s, next) := applyCase lasting next [b]
    s ++ expand text m parts lasting next
  | .group n :: parts, lasting, next =>
    let piece := if n = 0 then text.extract m.start m.stop
      else (m.groups.lookup n).elim .empty fun (start, stop) => text.extract start stop
    let (s, next) := applyCase lasting next piece.toList
    s ++ expand text m parts lasting next

/-- Replaces matches from a place on.  `count` matches were found before, the last one of which
ended at `last`; an empty match there does not count. -/
def replaceFrom (p : Regex) (s : Substitution) (text : ByteArray) :
    Nat → Nat → Nat → Option Nat → Bytes × Bool
  | 0, i, _, _ => ((text.extract i text.size).toList, false)
  | n + 1, i, count, last =>
    let rest := (text.extract i text.size).toList
    if text.size < i then ([], false)
    else
      match p.find text i with
      | none => (rest, false)
      | some m =>
        let skipped := (text.extract i m.start).toList
        let one := (text.extract m.stop (m.stop + 1)).toList
        if m.start = m.stop && last == some m.start then
          let (more, replaced) := replaceFrom p s text n (m.stop + 1) count none
          (skipped ++ one ++ more, replaced)
        else
          let hits := s.first ≤ count + 1
          let new := if hits then expand text m s.replacement none none
            else (text.extract m.start m.stop).toList
          if hits && !s.all then
            (skipped ++ new ++ (text.extract m.stop text.size).toList, true)
          else
            let isEmpty := m.start == m.stop
            let (more, replaced) := replaceFrom p s text n (if isEmpty then m.stop + 1 else m.stop)
              (count + 1) (if isEmpty then none else some m.stop)
            (skipped ++ new ++ (if isEmpty then one else []) ++ more, hits || replaced)

/-- Does a substitution on the line at hand. -/
def substitute (s : Substitution) : Editing Unit := do
  let p ← resolved s.expression
  let text := ByteArray.mk (← get).pattern.toArray
  let (new, replaced) := replaceFrom p s text (text.size + 2) 0 0 none
  if replaced then
    modify fun e => { e with pattern := new, replaced := true }
    if s.prints then emitPattern
    match s.file with
    | some path => writeTo path new
    | none => pure ()

/-! ### Commands -/

/-- The first line of a text. -/
def firstLine (mark : UInt8) (s : Bytes) : Bytes := s.takeWhile (· != mark)

/-- A byte as it is listed. -/
def listedByte (b : UInt8) : Bytes :=
  let marks := [(ascii '\\', '\\'), (7, 'a'), (8, 'b'), (12, 'f'), (10, 'n'), (13, 'r'), (9, 't'),
    (11, 'v')]
  match marks.lookup b with
  | some c => [ascii '\\', ascii c]
  | none =>
    if 32 ≤ b ∧ b < 127 then [b]
    else
      let n := b.toNat
      [ascii '\\', (48 + n / 64).toUInt8, (48 + n / 8 % 8).toUInt8, (48 + n % 8).toUInt8]

/-- Listed bytes on lines of at most 69 columns, with a backslash where a line is broken. -/
def wrapped : Nat → List Bytes → Bytes
  | _, [] => bytes "$\n"
  | column, t :: ts =>
    if 69 < column + t.length then bytes "\\\n" ++ t ++ wrapped t.length ts
    else t ++ wrapped (column + t.length) ts

/-- Does what a command does; `i` is its number, and `read` gives what files hold. -/
def act (read : Bytes → Option Bytes) (quiet : Bool) (i : Nat) (c : Command) :
    Editing Outcome := do
  let e ← get
  let following := Outcome.goto (i + 1)
  match c.action with
  | .block _ | .nothing => return following
  | .substitute s => substitute s; return following
  | .translate pairs =>
    set { e with pattern := e.pattern.map fun b => (pairs.lookup b).getD b }
    return following
  | .print => emitPattern; return following
  | .printFirst => emit (firstLine e.mark e.pattern) true; return following
  | .delete => return .dropCycle
  | .deleteFirst =>
    if e.pattern.contains e.mark then
      set { e with pattern := e.pattern.drop ((firstLine e.mark e.pattern).length + 1) }
      return .restart
    else return .dropCycle
  | .next =>
    if e.input.isEmpty then return .stop 0 true
    if !quiet then emitPattern
    flush
    let _ ← advance
    return following
  | .appendNext =>
    if e.input.isEmpty then return .stop 0 true
    flush
    let _ ← advance
    modify fun f => { f with pattern := e.pattern ++ [e.mark] ++ f.pattern }
    return following
  | .copy => set { e with hold := e.pattern, holdClosed := e.closed }; return following
  | .copyAppend =>
    set { e with
      hold := e.hold ++ [e.mark] ++ e.pattern, holdClosed := e.holdClosed || e.closed }
    return following
  | .fetch => set { e with pattern := e.hold, closed := e.holdClosed }; return following
  | .fetchAppend =>
    set { e with pattern := e.pattern ++ [e.mark] ++ e.hold, closed := e.closed || e.holdClosed }
    return following
  | .exchange =>
    set { e with
      pattern := e.hold, closed := e.holdClosed, hold := e.pattern, holdClosed := e.closed }
    return following
  | .append text => set { e with queue := text :: e.queue }; return following
  | .insert text => emitText text; return following
  | .change text =>
    if c.selection.negated || (e.ranges.lookup i).isNone then emitText text
    return .dropCycle
  | .quit status => return .stop status true
  | .quitSilently status => return .stop status false
  | .number => emitText (Numeral.decimal e.number ++ bytes "\n"); return following
  | .list => emitText (wrapped 0 (e.pattern.map listedByte)); return following
  | .readFile path =>
    set { e with queue := (read path).getD [] :: e.queue }
    return following
  | .writeFile path => writeTo path e.pattern; return following
  | .writeFirst path => writeTo path (firstLine e.mark e.pattern); return following
  | .branch target => return .goto target
  | .branchIfReplaced target =>
    if e.replaced then
      set { e with replaced := false }
      return .goto target
    else return following
  | .branchUnlessReplaced target =>
    if e.replaced then
      set { e with replaced := false }
      return following
    else return .goto target
  | .empty => set { e with pattern := [] }; return following
  | .fileName => emitText (e.file ++ bytes "\n"); return following

/-- Does a command, if the line at hand is selected by it. -/
def perform (read : Bytes → Option Bytes) (quiet : Bool) (i : Nat) (c : Command) :
    Editing Outcome := do
  if ← selects i c.selection then act read quiet i c
  else
    match c.action with
    | .block stop => return .goto stop
    | _ => return .goto (i + 1)

/-- Does commands from a number on, until a cycle ends; `n` bounds how many. -/
def performFrom (read : Bytes → Option Bytes) (s : Script) : Nat → Nat → Editing Outcome
  | 0, _ => return .stop 1 false
  | n + 1, i => do
    match s.commands[i]? with
    | none => return .endCycle
    | some c =>
      let outcome ← perform read s.quiet i c
      if (← get).failed then return .stop 1 false
      match outcome with
      | .goto j => performFrom read s n j
      | outcome => return outcome

/-- How many commands are done in a cycle at most. -/
def stepLimit : Nat := 2 ^ 40

/-- Does cycles until the input ends, at most `n` of them; `fresh` asks for a new line. -/
def cycles (read : Bytes → Option Bytes) (s : Script) : Nat → Bool → Editing Nat
  | 0, _ => return 0
  | n + 1, fresh => do
    let isThere ← if fresh then advance else pure true
    if !isThere then return 0
    modify ({ · with replaced := false })
    match ← performFrom read s stepLimit 0 with
    | .stop status prints =>
      if prints && !s.quiet then emitPattern
      if prints then flush
      return status
    | .restart =>
      flush
      cycles read s n false
    | outcome =>
      if outcome == .endCycle && !s.quiet then emitPattern
      flush
      cycles read s n true

/-- What came of an edit. -/
structure Edited where
  out : Bytes
  /-- What was written to files, in order. -/
  written : List (Bytes × Bytes)
  status : Nat
  failed : Bool

/-- Edits lines. -/
def edit (read : Bytes → Option Bytes) (s : Script) (input : List Line) : Edited :=
  let early := (s.commands.toList.zipIdx).filterMap fun (c, i) =>
    if c.selection.start == some (.line 0) then some (i, none) else none
  let (status, e) := (cycles read s stepLimit true).run { input, mark := s.mark, ranges := early }
  { out := e.out.reverse.flatten, written := e.written.reverse, status, failed := e.failed }

end MacroConstants.Utility.Sed
