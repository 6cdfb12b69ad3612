import MacroConstants.Utility.Basic
import MacroConstants.Utility.Sed.Script

/-!
# Reading editing scripts

* `Sed.Fault` — what is wrong with a script.
* `Sed.readScript` — the script that texts denote.
-/

namespace MacroConstants.Utility.Sed

/-- What is wrong with a script. -/
inductive Fault where
  | unknownCommand (c : UInt8)
  | missingCommand
  | extraCharacters
  | unterminatedAddress
  | unterminated (command : Char)
  | unknownFlag
  | repeatedFlag (flag : String)
  | zeroFlag
  | differentLengths
  | unexpectedComma
  | unexpectedClose
  | noAddresses (what : String)
  | oneAddress
  | missingText
  | missingFile
  | missingLabel
  | repeatedNegation
  | zeroLine
  | unknownReference (n : Nat)
  | expression (fault : Regex.Fault)
  | unclosedBlock
  | unknownLabel (label : Bytes)
  deriving DecidableEq, Repr

/-- The wording of a fault. -/
def Fault.message : Fault → Bytes
  | unknownCommand c => bytes "unknown command: `" ++ [c] ++ bytes "'"
  | missingCommand => bytes "missing command"
  | extraCharacters => bytes "extra characters after command"
  | unterminatedAddress => bytes "unterminated address regex"
  | unterminated c => bytes "unterminated `" ++ [ascii c] ++ bytes "' command"
  | unknownFlag => bytes "unknown option to `s'"
  | repeatedFlag flag => bytes ("multiple " ++ flag ++ " options to `s' command")
  | zeroFlag => bytes "number option to `s' command may not be zero"
  | differentLengths => bytes "strings for `y' command are different lengths"
  | unexpectedComma => bytes "unexpected `,'"
  | unexpectedClose => bytes "unexpected `\x7d'"
  | noAddresses what => bytes what
  | oneAddress => bytes "command only uses one address"
  | missingText => bytes "expected \\ after `a', `c' or `i'"
  | missingFile => bytes "missing filename in r/R/w/W commands"
  | missingLabel => bytes "\":\" lacks a label"
  | repeatedNegation => bytes "multiple `!'s"
  | zeroLine => bytes "invalid usage of line address 0"
  | unknownReference n =>
    bytes "invalid reference \\" ++ Numeral.decimal n ++ bytes " on `s' command's RHS"
  | expression fault => fault.message
  | unclosedBlock => bytes "unmatched `\x7b'"
  | unknownLabel label => bytes "can't find label for jump to `" ++ label ++ bytes "'"

/-- The text that is left of a script. -/
structure Cursor where
  rest : Bytes
  extended : Bool

/-- Reading a script; a fault comes with the text that is left. -/
abbrev Reader := StateT Cursor (Except (Fault × Bytes))

/-- Gives up. -/
def refuse {α : Type} (fault : Fault) : Reader α := do throw (fault, (← get).rest)

/-- The next byte, which stays. -/
def peek? : Reader (Option UInt8) := return (← get).rest.head?

/-- Goes on by a number of bytes. -/
def skip (n : Nat) : Reader Unit := modify fun c => { c with rest := c.rest.drop n }

/-- Takes the bytes of a class. -/
def takeWhile (p : UInt8 → Bool) : Reader Bytes := do
  let found := (← get).rest.takeWhile p
  skip found.length
  return found

/-- Takes one byte, if it is this one. -/
def take? (c : Char) : Reader Bool := do
  if (← peek?) = some (ascii c) then
    skip 1
    return true
  else return false

/-- Takes white space within a line. -/
def blanks : Reader Unit := do
  let _ ← takeWhile fun b => Bytes.isSpace b && b != ascii '\n'

/-- Takes a number. -/
def number : Reader Nat := return Numeral.value 10 (← takeWhile Bytes.isDigit)

/-! ### Texts between delimiters -/

/-- A text up to its delimiter, and what follows it.  An escaped delimiter loses its backslash, and
with `controls` an escaped `n` is a newline.  In an expression a delimiter between brackets is no
end. -/
def delimited (mark : UInt8) (regular : Bool) : Bool → Bytes → Option (Bytes × Bytes)
  | _, [] => none
  | inSet, b :: rest =>
    if b = mark ∧ !inSet then some ([], rest)
    else if b = ascii '\n' ∧ regular ∧ !inSet then none
    else
      match b, rest with
      | 0x5c, [] => none
      | 0x5c, c :: tail =>
        let kept := if c = mark && !inSet then [c] else [b, c]
        (delimited mark regular inSet tail).map fun (s, rest) => (kept ++ s, rest)
      | b, rest =>
        let opens := regular && b == ascii '[' && !inSet
        let stays := inSet && b != ascii ']'
        match opens, rest with
        | true, 0x5e :: 0x5d :: tail =>
          (delimited mark regular true tail).map fun (s, rest) => (b :: 0x5e :: 0x5d :: s, rest)
        | true, 0x5d :: tail =>
          (delimited mark regular true tail).map fun (s, rest) => (b :: 0x5d :: s, rest)
        | opens, rest =>
          (delimited mark regular (opens || stays) rest).map fun (s, rest) => (b :: s, rest)

/-- Takes a text up to its delimiter. -/
def takeDelimited (mark : UInt8) (regular : Bool) (fault : Fault) : Reader Bytes := do
  match delimited mark regular false (← get).rest with
  | some (s, rest) =>
    modify ({ · with rest })
    return s
  | none =>
    skip (← get).rest.length
    refuse fault

/-- The expression a text denotes; an empty text stands for the last one used. -/
def expression (s : Bytes) (ignoresCase : Bool) : Reader Expression := do
  if s.isEmpty then return none
  let form : Regex.Spelling := { extended := (← get).extended, controls := true }
  match Regex.read form (Regex.spellOutBytes s) with
  | .ok p => return some (if ignoresCase then p.caseless else p)
  | .error fault => refuse (.expression fault)

/-- The parts of a replacement. -/
def replacement : Bytes → List Part
  | 0x5c :: c :: s =>
    let changes := [(ascii 'U', CaseChange.upper), (ascii 'L', .lower), (ascii 'u', .upperNext),
      (ascii 'l', .lowerNext), (ascii 'E', .none)]
    let part := match changes.lookup c with
      | some change => .change change
      | none =>
        if Bytes.isDigit c then .group (c - ascii '0').toNat
        else .text ((Regex.control? c).getD c)
    part :: replacement s
  | b :: s => (if b = ascii '&' then .group 0 else .text b) :: replacement s
  | [] => []

/-- The bytes of a text with escapes carried out. -/
def plain : Bytes → Bytes
  | 0x5c :: c :: s =>
    if c = ascii '\\' then c :: plain s
    else
      match Regex.control? c with
      | some control => control :: plain s
      | none => 0x5c :: c :: plain s
  | b :: s => b :: plain s
  | [] => []

/-! ### Addresses -/

/-- Takes an address, if there is one. -/
def address? : Reader (Option Address) := do
  match ← peek? with
  | none => return none
  | some b =>
    if Bytes.isDigit b then
      let n ← number
      if ← take? '~' then return some (.every n (← number)) else return some (.line n)
    else if b = ascii '$' then
      skip 1
      return some .last
    else if b = ascii '/' ∨ b = ascii '\\' then
      skip 1
      let mark ← if b = ascii '/' then pure b else do
        let mark := (← peek?).getD 0
        skip 1
        pure mark
      let s ← takeDelimited mark true .unterminatedAddress
      let flags ← takeWhile fun c => c == ascii 'I' || c == ascii 'M'
      return some (.contains (← expression s (flags.contains (ascii 'I'))))
    else return none

/-- Takes the end of a range. -/
def reach : Reader Reach := do
  if ← take? '+' then return .further (← number)
  else if ← take? '~' then return .multiple (← number)
  else
    match ← address? with
    | some a => return .address a
    | none =>
      skip 1
      refuse .unexpectedComma

/-- Takes the lines a command is for. -/
def selection : Reader Selection := do
  let start ← address?
  blanks
  let isRange ← if start.isSome then take? ',' else pure false
  let stop ← if isRange then do
      blanks
      pure (some (← reach))
    else pure none
  let startsLate := match stop with
    | some (.address (.contains _)) => false
    | _ => true
  if start == some (.line 0) && startsLate then
    skip 1
    refuse .zeroLine
  blanks
  let negated ← take? '!'
  if negated then
    blanks
    if ← take? '!' then refuse .repeatedNegation
  return { start, stop, negated }

/-! ### Commands -/

/-- A command whose jumps still go to labels and blocks. -/
inductive Draft where
  | command (action : Action)
  | blockStart
  | blockStop
  | label (name : Bytes)
  /-- A jump that is made of the number of a command. -/
  | jump (name : Bytes) (action : Nat → Action)

/-- Looks for the end of a command. -/
def endCommand : Reader Unit := do
  blanks
  match ← peek? with
  | none => return ()
  | some b =>
    if b = ascii '\x7d' ∨ b = ascii '#' then return ()
    else
      skip 1
      if b = ascii '\n' ∨ b = ascii ';' then return () else refuse .extraCharacters

/-- The text of a command up to a newline without a backslash, and what follows it. -/
def textLines : Bytes → Bytes × Bytes
  | 0x5c :: c :: s =>
    let (more, rest) := textLines s
    let kept := if c = ascii '\n' then [c] else [(Regex.control? c).getD c]
    (kept ++ more, rest)
  | b :: s =>
    if b = ascii '\n' then ([], s)
    else
      let (more, rest) := textLines s
      (b :: more, rest)
  | [] => ([], [])

/-- Takes the text of a command. -/
def takeText : Reader Bytes := do
  blanks
  if (← peek?).isNone then refuse .missingText
  else
    if ← take? '\\' then
      let rest := (← get).rest.dropWhile Bytes.isBlank
      if rest.head? = some (ascii '\n') then modify ({ · with rest := rest.tail })
      else if rest.isEmpty then modify ({ · with rest })
    if (← peek?).isNone then return []
    let (s, rest) := textLines (← get).rest
    modify ({ · with rest })
    return s ++ bytes "\n"

/-- Takes the name of a file, up to the end of the line. -/
def takeFile : Reader Bytes := do
  blanks
  let path ← takeWhile (· != ascii '\n')
  if path.isEmpty then refuse .missingFile else return path

/-- Takes a label. -/
def takeLabel : Reader Bytes := do
  blanks
  takeWhile fun b => !Bytes.isSpace b && b != ascii ';' && b != ascii '\x7d'

/-- Takes a status. -/
def takeStatus : Reader Nat := do
  blanks
  let n ← number
  endCommand
  return n % 256

/-- Takes the flags of a substitution; `n` bounds their number. -/
def flags : Nat → Substitution → Bool → Bool → Reader (Substitution × Bool)
  | 0, s, _, ignoresCase => return (s, ignoresCase)
  | n + 1, s, counted, ignoresCase => do
    match ← peek? with
    | none => return (s, ignoresCase)
    | some b =>
      if b = ascii 'g' then
        skip 1
        if s.all then refuse (.repeatedFlag "`g'")
        flags n { s with all := true } counted ignoresCase
      else if b = ascii 'p' then
        skip 1
        if s.prints then refuse (.repeatedFlag "`p'")
        flags n { s with prints := true } counted ignoresCase
      else if b = ascii 'i' ∨ b = ascii 'I' then
        skip 1
        flags n s counted true
      else if b = ascii 'm' ∨ b = ascii 'M' ∨ b = ascii 'e' then
        skip 1
        flags n s counted ignoresCase
      else if b = ascii 'w' then
        skip 1
        return ({ s with file := some (← takeFile) }, ignoresCase)
      else if Bytes.isDigit b then
        let first ← number
        if counted then refuse (.repeatedFlag "number")
        if first = 0 then refuse .zeroFlag
        flags n { s with first } true ignoresCase
      else if b = ascii '\x7d' ∨ b = ascii '#' ∨ b = ascii '\n' ∨ b = ascii ';' then
        return (s, ignoresCase)
      else if Bytes.isSpace b then
        skip 1
        flags n s counted ignoresCase
      else
        skip 1
        refuse .unknownFlag

/-- Takes a substitution. -/
def substitution : Reader Action := do
  let mark := (← peek?).getD 0
  skip 1
  let text ← takeDelimited mark true (.unterminated 's')
  let new ← takeDelimited mark false (.unterminated 's')
  let parts := replacement (Regex.spellOutBytes new)
  let (s, ignoresCase) ← flags ((← get).rest.length + 1)
    { expression := none, replacement := parts } false false
  endCommand
  let p ← expression text ignoresCase
  let largest := (parts.map fun
    | .group n => n
    | _ => 0).foldl max 0
  match p with
  | some q => if q.groupCount < largest then refuse (.unknownReference largest)
  | none => pure ()
  return .substitute { s with expression := p }

/-- Takes a replacement of bytes. -/
def translation : Reader Action := do
  let mark := (← peek?).getD 0
  skip 1
  let old := plain (← takeDelimited mark false (.unterminated 'y'))
  let new := plain (← takeDelimited mark false (.unterminated 'y'))
  if old.length ≠ new.length then refuse .differentLengths
  endCommand
  return .translate (old.zip new)

/-- The commands without arguments. -/
def simpleActions : List (Char × Action) :=
  [('p', .print), ('P', .printFirst), ('d', .delete), ('D', .deleteFirst), ('n', .next),
   ('N', .appendNext), ('h', .copy), ('H', .copyAppend), ('g', .fetch), ('G', .fetchAppend),
   ('x', .exchange), ('=', .number), ('z', .empty), ('F', .fileName)]

/-- Takes a command by its letter; `depth` blocks are open. -/
def draft (depth : Nat) (s : Selection) (c : UInt8) : Reader Draft := do
  let letter := Char.ofUInt8 c
  match simpleActions.lookup letter with
  | some action =>
    endCommand
    return .command action
  | none =>
    match letter with
    | '\x7b' => return .blockStart
    | '\x7d' =>
      if s.start.isSome || depth == 0 then refuse .unexpectedClose
      endCommand
      return .blockStop
    | ':' =>
      if s.start.isSome then refuse (.noAddresses ": doesn't want any addresses")
      let label ← takeLabel
      if label.isEmpty then refuse .missingLabel
      endCommand
      return .label label
    | 'b' | 't' | 'T' =>
      let label ← takeLabel
      endCommand
      return .jump label
        (if letter = 'b' then .branch else if letter = 't' then .branchIfReplaced
          else .branchUnlessReplaced)
    | 'a' => return .command (.append (← takeText))
    | 'i' => return .command (.insert (← takeText))
    | 'c' => return .command (.change (← takeText))
    | 'r' => return .command (.readFile (← takeFile))
    | 'w' => return .command (.writeFile (← takeFile))
    | 'W' => return .command (.writeFirst (← takeFile))
    | 'q' | 'Q' =>
      if s.stop.isSome then refuse .oneAddress
      let n ← takeStatus
      return .command (if letter = 'q' then .quit n else .quitSilently n)
    | 'l' =>
      let _ ← takeStatus
      return .command .list
    | 's' => return .command (← substitution)
    | 'y' => return .command (← translation)
    | _ => refuse (.unknownCommand c)

/-- Takes commands; `n` bounds their number, and `depth` blocks are open.  The second result is how
many are open at the end. -/
def drafts : Nat → Nat → Reader (List (Selection × Draft) × Nat)
  | 0, depth => return ([], depth)
  | n + 1, depth => do
    let _ ← takeWhile fun b => Bytes.isSpace b || b == ascii ';'
    match ← peek? with
    | none => return ([], depth)
    | some _ =>
      let s ← selection
      blanks
      match ← peek? with
      | none => refuse .missingCommand
      | some c =>
        skip 1
        if c = ascii '#' then
          if s.start.isSome then refuse (.noAddresses "comments don't accept any addresses")
          let _ ← takeWhile (· != ascii '\n')
          drafts n depth
        else if c = ascii ',' ∧ s.start.isNone then refuse .unexpectedComma
        else
          let d ← draft depth s c
          let depth := match d with
            | .blockStart => depth + 1
            | .blockStop => depth - 1
            | _ => depth
          let (more, depth) ← drafts n depth
          return ((s, d) :: more, depth)

/-! ### Jumps -/

/-- The end of the block that is open at the front, counted from `i`. -/
def blockEnd : Nat → Nat → List (Selection × Draft) → Option Nat
  | _, _, [] => none
  | depth, i, (_, .blockStart) :: rest => blockEnd (depth + 1) (i + 1) rest
  | 0, i, (_, .blockStop) :: _ => some i
  | depth + 1, i, (_, .blockStop) :: rest => blockEnd depth (i + 1) rest
  | depth, i, _ :: rest => blockEnd depth (i + 1) rest

/-- The number of the command after a label. -/
def labelled (name : Bytes) (all : List (Selection × Draft)) : Option Nat :=
  all.findIdx? fun (_, d) =>
    match d with
    | .label n => n == name
    | _ => false

/-- A command with its jumps resolved, and the commands after it; it has the number `i`. -/
def resolve (all : List (Selection × Draft)) :
    Nat → List (Selection × Draft) → Except Fault (List Command)
  | _, [] => .ok []
  | i, (selection, d) :: rest => do
    let action ← match d with
      | .command action => pure action
      | .blockStart => pure (.block ((blockEnd 0 (i + 1) rest).getD all.length))
      | .blockStop | .label _ => pure .nothing
      | .jump name action =>
        if name.isEmpty then pure (action all.length)
        else
          match labelled name all with
          | none => .error (.unknownLabel name)
          | some target => pure (action target)
    return { selection, action } :: (← resolve all (i + 1) rest)

/-! ### Scripts -/

/-- A piece of a script, and how it is called in messages. -/
structure Source where
  title : Bytes
  text : Bytes

/-- Whether the text of a command at the end of a piece goes on in the next one. -/
def Source.goesOn (s : Source) : Bool :=
  (s.text.reverse.takeWhile (· == ascii '\\')).length % 2 == 1

/-- The pieces, those that go on joined with the next one. -/
def joinSources : List Source → List Source
  | s :: t :: rest =>
    match joinSources (t :: rest) with
    | next :: others =>
      if s.goesOn then { s with text := s.text ++ bytes "\n" ++ next.text } :: others
      else s :: next :: others
    | [] => [s]
  | pieces => pieces

/-- The commands of pieces; `depth` blocks are open before them. -/
def readSources (extended : Bool) :
    Nat → List Source → Except Bytes (List (Selection × Draft) × Nat)
  | depth, [] => .ok ([], depth)
  | depth, s :: rest =>
    match (drafts (s.text.length + 1) depth).run { rest := s.text, extended } with
    | .error (fault, left) =>
      .error (s.title ++ bytes ", char " ++ Numeral.decimal (s.text.length - left.length)
        ++ bytes ": " ++ fault.message)
    | .ok ((found, depth), _) => do
      let (more, depth) ← readSources extended depth rest
      return (found ++ more, depth)

/-- The script that pieces denote together, or what is said about a fault and the status of it. -/
def readScript (sources : List Source) (extended : Bool) : Except (Bytes × Nat) Script :=
  match readSources extended 0 (joinSources sources) with
  | .error text => .error (text, 1)
  | .ok (found, depth) =>
    if depth ≠ 0 then
      .error (((sources.head?.map Source.title).getD []) ++ bytes ", char 0: "
        ++ Fault.unclosedBlock.message, 1)
    else
      match resolve found 0 found with
      | .ok commands =>
        let first := (sources.head?.map Source.text).getD []
        let quiet := first == bytes "#n" || (bytes "#n\n").isPrefixOf first
        .ok { commands := commands.toArray, quiet }
      | .error fault => .error (fault.message, 4)

end MacroConstants.Utility.Sed
