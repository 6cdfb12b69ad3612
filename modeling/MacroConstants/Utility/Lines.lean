import MacroConstants.Utility.Basic

/-!
# Utilities on whole lines

* `Utility.cat`, `Utility.tac`, `Utility.rev`, `Utility.nl` — lines shown, turned round, numbered.
* `Utility.head`, `Utility.tail` — the first and the last lines.
* `Utility.wc` — counts.
* `Utility.tee` — a copy into files.
-/

namespace MacroConstants.Utility

/-! ### Showing lines -/

/-- What is shown of lines. -/
structure LineStyle where
  numbers : Bool := false
  /-- Numbers stand only before lines that are not empty. -/
  skipsEmpty : Bool := false
  squeezes : Bool := false
  ends : Bool := false
  tabs : Bool := false
  controls : Bool := false

/-- Where a listing is. -/
structure Listing where
  /-- The number of the last numbered line. -/
  count : Nat := 0
  /-- Whether the next byte starts a line. -/
  atStart : Bool := true
  /-- Whether the last line was empty. -/
  afterEmpty : Bool := false

/-- A byte below 128 with its control characters made visible. -/
def visibleAscii (b : UInt8) : Bytes :=
  if b = 127 then bytes "^?" else if b < 32 then [ascii '^', b + 64] else [b]

/-- A byte made visible. -/
def visible (style : LineStyle) (b : UInt8) : Bytes :=
  if b = ascii '\t' then (if style.tabs then bytes "^I" else [b])
  else if !style.controls || b = ascii '\n' then [b]
  else if b < 128 then visibleAscii b
  else bytes "M-" ++ visibleAscii (b - 128)

/-- A line as it is shown. -/
def showLine (style : LineStyle) (place : Listing) (line : Bytes) : Listing × Bytes :=
  let isEmpty := place.atStart && line == bytes "\n"
  if style.squeezes && isEmpty && place.afterEmpty then (place, [])
  else
    let isNumbered := place.atStart && style.numbers && !(style.skipsEmpty && isEmpty)
    let count := if isNumbered then place.count + 1 else place.count
    let number := if isNumbered then padded 6 count ++ bytes "\t" else []
    let body := if line.getLast? = some (ascii '\n') then line.dropLast else line
    let closes := body.length < line.length
    ({ count, atStart := closes, afterEmpty := isEmpty },
      number ++ body.flatMap (visible style)
        ++ (if closes then (if style.ends then bytes "$\n" else bytes "\n") else []))

/-- A text as it is shown. -/
def showText (style : LineStyle) (place : Listing) (text : Bytes) : Listing × Bytes :=
  let (place, shown) := (linesOf text).foldl (fun (place, shown) line =>
    let (place, t) := showLine style place line
    (place, t :: shown)) (place, [])
  (place, shown.reverse.flatten)

/-- Shows files one after the other. -/
def showFiles (style : LineStyle) : List Bytes → Listing → Nat → Job Nat
  | [], _, status => return status
  | operand :: operands, place, status => do
    match ← input operand with
    | .error fault =>
      warn "cat" (plainWording operand fault)
      showFiles style operands place 1
    | .ok text =>
      let (place, shown) := showText style place text
      Job.say shown
      showFiles style operands place status

/-- Shows files one after the other. -/
def cat : Utility := fun args =>
  let long := [("show-all", "A", false), ("number-nonblank", "b", false), ("show-ends", "E", false),
    ("number", "n", false), ("squeeze-blank", "s", false), ("show-tabs", "T", false),
    ("show-nonprinting", "v", false)]
  withOptions "cat" (table "AbeEnstTuv" long) 1 args fun o =>
    let has (names : List String) : Bool := names.any o.has
    showFiles
      { numbers := has ["n", "b"], skipsEmpty := has ["b"], squeezes := has ["s"]
        ends := has ["A", "e", "E"], tabs := has ["A", "t", "T"]
        controls := has ["A", "e", "t", "v"] }
      (if o.operands.isEmpty then [bytes "-"] else o.operands) {} 0

/-- The lines of files, the last one first. -/
def tac : Utility := fun args =>
  withOptions "tac" (table "" []) 1 args fun o => do
    let wording (operand : Bytes) : PathFault → Bytes
      | .isDirectory => operand ++ bytes ": read error: Invalid argument"
      | fault => bytes "failed to open '" ++ operand ++ bytes "' for reading: " ++ fault.message
    let (texts, ok) ← inputs "tac" wording o.operands
    texts.forM fun (_, text) => Job.say (linesOf text).reverse.flatten
    return if ok then 0 else 1

/-- The lines of files, each from its end to its start. -/
def rev : Utility := fun args =>
  withOptions "rev" (table "" []) 1 args fun o => do
    let wording (operand : Bytes) (fault : PathFault) : Bytes :=
      bytes "cannot open " ++ operand ++ bytes ": " ++ fault.message
    let (texts, ok) ← inputs "rev" wording o.operands
    texts.forM fun (_, text) => Job.say ((linesOf text).flatMap turned)
    return if ok then 0 else 1
where
  /-- A line turned round; its newline stays where it is. -/
  turned (line : Bytes) : Bytes :=
    if line.getLast? = some (ascii '\n') then line.dropLast.reverse ++ bytes "\n" else line.reverse

/-- The lines of files with numbers; an empty line has one only if that is asked for. -/
def nl : Utility := fun args =>
  withOptions "nl" (table "b:w:s:v:i:n:" []) 1 args fun o => do
    let (texts, ok) ← inputs "nl" plainWording o.operands
    let width := ((o.get? "w").bind natural?).getD 6
    let separator := (o.get? "s").getD (bytes "\t")
    let first := ((o.get? "v").bind natural?).getD 1
    let all := o.get? "b" == some (bytes "a")
    let none := o.get? "b" == some (bytes "n")
    let shown (state : Nat × List Bytes) (line : Bytes) : Nat × List Bytes :=
      let (n, found) := state
      if none || (line.isEmpty && !all) then
        (n, (List.replicate (width + separator.length) (ascii ' ') ++ line ++ bytes "\n") :: found)
      else (n + 1, (padded width n ++ separator ++ line ++ bytes "\n") :: found)
    let (_, found) := (texts.flatMap fun (_, text) => bareLines text).foldl shown (first, [])
    Job.say found.reverse.flatten
    return if ok then 0 else 1

/-! ### First and last lines -/

/-- Which part of a text is meant. -/
inductive Part where
  | first (n : Nat)
  | allButLast (n : Nat)
  | last (n : Nat)
  | startingAt (n : Nat)

/-- That part of a list. -/
def Part.of {α : Type} (units : List α) : Part → List α
  | first n => units.take n
  | allButLast n => units.take (units.length - n)
  | last n => units.drop (units.length - n)
  | startingAt n => units.drop (n - 1)

/-- Options in an old spelling: a number of lines by itself. -/
def spellOut : List Bytes → List Bytes
  | (0x2d :: d :: ds) :: args =>
    if Bytes.isDigit d && ds.all Bytes.isDigit then bytes "-n" :: (d :: ds) :: args
    else (0x2d :: d :: ds) :: args
  | args => args

/-- A number with a sign in front, or without one. -/
def signedNumber? (s : Bytes) : Option (Option UInt8 × Nat) :=
  match s with
  | [] => none
  | b :: rest =>
    if b = ascii '-' ∨ b = ascii '+' then (natural? rest).map (some b, ·)
    else (natural? (b :: rest)).map (none, ·)

/-- Prints parts of files, with the names of the files over them where that is asked for. -/
def excerpts (name : String) (part : Bytes → Bytes) (o : Options) : Job Nat := do
  let operands := if o.operands.isEmpty then [bytes "-"] else o.operands
  let named := o.has "v" || (operands.length > 1 && !o.has "q")
  let step (state : Bool × Nat) (operand : Bytes) : Job (Bool × Nat) := do
    let (isFirst, status) := state
    let title := if operand = bytes "-" then bytes "standard input" else operand
    let heading :=
      (if isFirst then [] else bytes "\n") ++ bytes "==> " ++ title ++ bytes " <==\n"
    match ← input operand with
    | .ok text =>
      Job.say ((if named then heading else []) ++ part text)
      return (false, status)
    | .error .isDirectory =>
      if named then Job.say heading
      warn name (bytes "error reading '" ++ operand ++ bytes "': Is a directory")
      return (false, 1)
    | .error fault =>
      warn name (bytes "cannot open '" ++ operand ++ bytes "' for reading: " ++ fault.message)
      return (isFirst, 1)
  return (← operands.foldlM step (true, 0)).2

/-- A program that prints parts of files; `choose` says which part a number with a sign means. -/
def excerpt (name : String) (choose : Option UInt8 × Nat → Part) : Utility := fun args =>
  let long := [("lines", "n", true), ("bytes", "c", true), ("quiet", "q", false),
    ("silent", "q", false), ("verbose", "v", false)]
  withOptions name (table "n:c:qvf" long) 1 (spellOut args) fun o => do
    let last := o.given.reverse.find? fun g => g.1 == bytes "n" || g.1 == bytes "c"
    match last with
    | none => excerpts name (fun text => ((choose (none, 10)).of (linesOf text)).flatten) o
    | some (unit, number) =>
      let inBytes := unit == bytes "c"
      match signedNumber? number with
      | none =>
        let what := bytes (if inBytes then "bytes" else "lines")
        warn name (bytes "invalid number of " ++ what ++ bytes ": '" ++ number ++ bytes "'")
        return 1
      | some n =>
        if inBytes then excerpts name (choose n).of o
        else excerpts name (fun text => ((choose n).of (linesOf text)).flatten) o

/-- The first lines or bytes of files. -/
def head : Utility := excerpt "head" fun
  | (some 0x2d, n) => .allButLast n
  | (_, n) => .first n

/-- The last lines or bytes of files. -/
def tail : Utility := excerpt "tail" fun
  | (some 0x2b, n) => .startingAt n
  | (_, n) => .last n

/-! ### Counting -/

/-- The numbers of lines, words and bytes. -/
structure Counts where
  lines : Nat := 0
  words : Nat := 0
  characters : Nat := 0
  bytes : Nat := 0
  longest : Nat := 0

/-- The column after a text; a tab goes on to the next multiple of eight. -/
def columnAfter (s : Bytes) : Nat :=
  s.foldl (fun n b => if b = ascii '\t' then n / 8 * 8 + 8 else n + 1) 0

/-- The counts of a text. -/
def Counts.of (text : Bytes) : Counts :=
  let starts := (text.foldl (fun (n, inside) b =>
    let space := Bytes.isSpace b
    (if !space && !inside then n + 1 else n, !space)) (0, false)).1
  { lines := text.count (ascii '\n'), words := starts, characters := text.length
    bytes := text.length
    longest := ((bareLines text).map columnAfter).foldl max 0 }

/-- The counts of two texts together. -/
def Counts.add (a b : Counts) : Counts :=
  ⟨a.lines + b.lines, a.words + b.words, a.characters + b.characters, a.bytes + b.bytes,
    max a.longest b.longest⟩

/-- Whether standard input is a file that has a name. -/
def inputIsNamed : Job Bool := do
  match (← Job.opened? 0).bind ((← get).opened[·]?) with
  | some { channel := .file number, .. } => return (← get).isNamed number
  | _ => return false

/-- Counts lines, words and bytes. -/
def wc : Utility := fun args =>
  let long := [("lines", "l", false), ("words", "w", false), ("chars", "m", false),
    ("bytes", "c", false), ("max-line-length", "L", false)]
  withOptions "wc" (table "lwcmL" long) 1 args fun o => do
    let asked (names : List String) : Bool := names.any o.has
    let usual := !asked ["l", "w", "m", "c", "L"]
    let columns (c : Counts) : List Nat :=
      (if usual || asked ["l"] then [c.lines] else [])
        ++ (if usual || asked ["w"] then [c.words] else [])
        ++ (if asked ["m"] then [c.characters] else [])
        ++ (if usual || asked ["c"] then [c.bytes] else [])
        ++ (if asked ["L"] then [c.longest] else [])
    let operands := if o.operands.isEmpty then [bytes "-"] else o.operands
    let isNamed ← inputIsNamed
    let found ← operands.mapM fun operand => do return (operand, ← input operand)
    let size := found.foldl (fun n (_, r) => n + (r.toOption.map List.length).getD 0) 0
    let regular (entry : Bytes × Except PathFault Bytes) : Bool :=
      match entry with
      | (operand, .ok _) => operand != bytes "-" || isNamed
      | (_, .error fault) => fault != .isDirectory
    let single := operands.length == 1 && (columns {}).length == 1
    let least := if found.all regular then 1 else 7
    let width := if single then 1 else max least (Numeral.decimal size).length
    let row (c : Counts) (name : Bytes) : Bytes :=
      (bytes " ").intercalate ((columns c).map (padded width))
        ++ (if name.isEmpty then [] else bytes " " ++ name) ++ bytes "\n"
    let title (operand : Bytes) : Bytes := if o.operands.isEmpty then [] else operand
    found.forM fun (operand, result) => do
      match result with
      | .ok text => Job.say (row (.of text) (title operand))
      | .error fault =>
        warn "wc" (plainWording operand fault)
        if fault = .isDirectory then Job.say (row {} (title operand))
    if 1 < operands.length then
      let all := found.filterMap fun (_, r) => r.toOption.map Counts.of
      Job.say (row (all.foldl Counts.add {}) (bytes "total"))
    return if found.all (·.2.toBool) then 0 else 1

/-! ### Copying -/

/-- Copies standard input to standard output and into files. -/
def tee : Utility := fun args =>
  withOptions "tee" (table "ai" [("append", "a", false)]) 1 args fun o => do
    let text := (← Job.takeAll 0).getD []
    let mode := if o.has "a" then OpenMode.append else .write
    let faults ← o.operands.filterMapM fun operand => do
      return (← Job.writePath operand text mode).map fun fault => plainWording operand fault
    faults.forM (warn "tee")
    Job.say text
    return if faults.isEmpty then 0 else 1

end MacroConstants.Utility
