import MacroConstants.Shell.Wildcard

/-!
# Fields

How an expanded word falls into fields.  Only what comes from an expansion outside quotes is cut at
separators; all arguments in quotes are cut at the NULs between them.

* `Shell.Part` — a part of an expanded word.
* `Shell.fields` — the fields of a word.
* `Shell.lineFields` — the fields of a line that is read into a number of variables.
-/

namespace MacroConstants.Shell

/-- A part of an expanded word. -/
inductive Part where
  /-- A pair of quotes, which makes a field even of nothing. -/
  | quotes
  | text (quoted : Bool) (t : Bytes)
  /-- A text that is cut at separators. -/
  | split (t : Bytes)
  /-- Arguments with NULs between them. -/
  | each (t : Bytes)
  deriving DecidableEq, Repr

/-- A part as text with its mark. -/
def Part.marked : Part → Bool × Bytes
  | quotes => (true, [])
  | text q t => (q, t)
  | split t => (false, t)
  | each t => (true, t)

/-- An expanded word as marked text, without cutting it. -/
def marked (parts : List Part) : Marked := parts.map Part.marked

/-- An expanded word as text. -/
def flat (parts : List Part) : Bytes := parts.flatMap fun p => p.marked.2

/-- The separators that are white space come in runs. -/
def isBlankSeparator (b : UInt8) : Bool := b == 0 || Bytes.isBlank b || b == ascii '\n'

/-- The state of the cutting. -/
structure Cut where
  /-- The field that has been started, in reverse. -/
  current : Option Marked := none
  /-- The fields that are finished, last first. -/
  done : List Marked := []
  /-- Whether the last part were arguments, of which the last one counts even if it is empty. -/
  arguments : Bool := false

namespace Cut

/-- Adds to the current field. -/
def add (quoted : Bool) (t : Bytes) (c : Cut) : Cut :=
  match c.current with
  | some ((q, s) :: rest) =>
    if q = quoted then { c with current := some ((q, s ++ t) :: rest) }
    else { c with current := some ((quoted, t) :: (q, s) :: rest) }
  | _ => { c with current := some [(quoted, t)] }

/-- Ends the current field. -/
def finish (c : Cut) : Cut :=
  { c with current := none, done := (c.current.getD []).reverse :: c.done }

/-- Cuts a text at separators; `afterBlank` after a separator that is white space, which belongs
together with another separator after it. -/
def split (separators : Bytes) : Nat → Bool → Bytes → Cut → Cut
  | 0, _, _, c => c
  | _ + 1, _, [], c => c
  | n + 1, afterBlank, b :: rest, c =>
    if separators.contains b || b == 0 then
      let blank := isBlankSeparator b
      if afterBlank then split separators n blank rest c
      else if blank && c.current.isNone then split separators n false rest c
      else split separators n blank rest c.finish
    else
      let isSeparator (b : UInt8) : Bool := separators.contains b || b == 0
      let plain := rest.takeWhile (!isSeparator ·)
      split separators n false (rest.drop plain.length) (c.add false (b :: plain))

/-- Adds a text that may be empty, which starts no field. -/
def addSome (quoted : Bool) (t : Bytes) (c : Cut) : Cut := if t.isEmpty then c else c.add quoted t

/-- Cuts arguments at the NULs between them. -/
def each (t : Bytes) (c : Cut) : Cut :=
  match t.splitOn 0 with
  | [] => c
  | first :: more =>
    more.foldl (fun c argument => c.finish.addSome true argument) (c.addSome true first)

/-- Takes the next part. -/
def part (separators : Bytes) (c : Cut) : Part → Cut
  | .quotes => c.add true []
  | .text q t => c.addSome q t
  | .split t => { split separators (t.length + 1) false t c with arguments := false }
  | .each t => { c.each t with arguments := true }

/-- All fields, at the end. -/
def fields (c : Cut) : List Marked :=
  match c.current with
  | some m => (m.reverse :: c.done).reverse
  | none => (if c.arguments then [] :: c.done else c.done).reverse

end Cut

/-- The fields of an expanded word. -/
def fields (separators : Bytes) (parts : List Part) : List Marked :=
  (parts.foldl (Cut.part separators) {}).fields

/-! ### Lines -/

/-- A byte of a line, and whether a backslash protects it. -/
abbrev LineByte := Bool × UInt8

/-- Whether a byte separates fields. -/
def separates (separators : Bytes) (b : LineByte) : Bool := !b.1 && separators.contains b.2

/-- Whether a byte is white space that separates fields. -/
def blankSeparates (separators : Bytes) (b : LineByte) : Bool :=
  separates separators b && isBlankSeparator b.2

/-- The first field of a line and what follows its separator. -/
def firstField (separators : Bytes) (line : List LineByte) : Bytes × List LineByte :=
  let field := line.takeWhile (!separates separators ·)
  let rest := line.drop field.length
  let text := field.map (·.2)
  match rest with
  | [] => (text, [])
  | b :: tail =>
    if isBlankSeparator b.2 then
      let tail := tail.dropWhile (blankSeparates separators)
      match tail with
      | c :: more =>
        if separates separators c then (text, more.dropWhile (blankSeparates separators))
        else (text, tail)
      | [] => (text, [])
    else (text, tail.dropWhile (blankSeparates separators))

/-- What the last variable gets: everything left, without white space at its end, and without the
separator of the one field it may be. -/
def lastField (separators : Bytes) (line : List LineByte) : Bytes :=
  let trimmed := (line.reverse.dropWhile (blankSeparates separators)).reverse
  let (first, rest) := firstField separators trimmed
  if rest.isEmpty && !trimmed.isEmpty then first else trimmed.map (·.2)

/-- The fields of a line for `n` variables. -/
def lineFields (separators : Bytes) (n : Nat) (line : List LineByte) : List Bytes :=
  go n (line.dropWhile (blankSeparates separators))
where
  /-- The fields, once white space at the front is dropped. -/
  go : Nat → List LineByte → List Bytes
  | 0, _ => []
  | 1, line => [lastField separators line]
  | n + 1, line =>
    let (first, rest) := firstField separators line
    first :: go n rest

end MacroConstants.Shell
