import MacroConstants.ByteSet

/-!
# Wildcards

* `Shell.Wildcard` — a part of a wildcard pattern.
* `Shell.Wildcard.ofText` — a pattern from text of which some bytes are quoted.
* `Shell.Wildcard.covers` — whether a pattern covers a text.
* `Shell.Trim` — what is cut off at one end of a text.
-/

namespace MacroConstants.Shell

/-- A text with the parts of it that are quoted. -/
abbrev Marked := List (Bool × Bytes)

/-- The bytes of a marked text. -/
def Marked.text (m : Marked) : Bytes := m.flatMap (·.2)

/-- The bytes of a marked text, each with its mark. -/
def Marked.cells (m : Marked) : List (Bool × UInt8) := m.flatMap fun (q, t) => t.map fun b => (q, b)

/-- A part of a wildcard pattern. -/
inductive Wildcard where
  | byte (b : UInt8)
  | any
  | anyRun
  | set (members : ByteSet)
  deriving DecidableEq, Repr

namespace Wildcard

/-- An item of a bracket expression without a class: its first byte and what follows it. -/
def bracketByte : List (Bool × UInt8) → Option (UInt8 × List (Bool × UInt8))
  | (false, 0x5c) :: (_, b) :: rest => some (b, rest)
  | (_, b) :: rest => some (b, rest)
  | [] => none

/-- The class at the front of a text, between a colon and a colon with a bracket. -/
def bracketClass (s : List (Bool × UInt8)) : Option (List (UInt8 × UInt8) × List (Bool × UInt8)) :=
  match s with
  | (false, 0x3a) :: rest =>
    let name := (rest.takeWhile fun c => Bytes.isLetter c.2).map (·.2)
    match rest.drop name.length, ByteSet.class? name with
    | (_, 0x3a) :: (_, 0x5d) :: tail, some ranges => some (ranges, tail)
    | _, _ => none
  | _ => none

/-- The items of a bracket expression up to its closing bracket, which cannot be the first. -/
def bracketItems : Nat → Bool → List (Bool × UInt8) →
    Option (List (UInt8 × UInt8) × List (Bool × UInt8))
  | 0, _, _ => none
  | _ + 1, _, [] => none
  | n + 1, first, (q, b) :: rest =>
    if !first && !q && b == ascii ']' then some ([], rest)
    else
      match if !q && b == ascii '[' then bracketClass rest else none with
      | some (ranges, tail) =>
        (bracketItems n false tail).map fun (more, tail) => (ranges ++ more, tail)
      | none =>
        match bracketByte ((q, b) :: rest) with
        | none => none
        | some (low, rest) =>
          match rest with
          | (false, 0x2d) :: next :: tail =>
            if next = (false, ascii ']') then
              (bracketItems n false rest).map fun (more, tail) => ((low, low) :: more, tail)
            else
              match bracketByte (next :: tail) with
              | none => none
              | some (high, tail) =>
                (bracketItems n false tail).map fun (more, tail) => ((low, high) :: more, tail)
          | rest => (bracketItems n false rest).map fun (more, tail) => ((low, low) :: more, tail)

/-- A bracket expression after its opening bracket. -/
def bracket (s : List (Bool × UInt8)) : Option (ByteSet × List (Bool × UInt8)) :=
  let (complemented, rest) := match s with
    | (false, b) :: rest => if b = ascii '!' then (true, rest) else (false, s)
    | s => (false, s)
  (bracketItems (rest.length + 1) true rest).map fun (ranges, tail) =>
    (⟨complemented, ranges⟩, tail)

/-- The pattern of marked bytes: outside quotes stars, question marks and brackets are special, and
a backslash protects the byte after it. -/
def ofCells : Nat → List (Bool × UInt8) → List Wildcard
  | 0, _ => []
  | _ + 1, [] => []
  | n + 1, (true, b) :: rest => .byte b :: ofCells n rest
  | n + 1, (false, b) :: rest =>
    if b = ascii '*' then .anyRun :: ofCells n rest
    else if b = ascii '?' then .any :: ofCells n rest
    else if b = ascii '[' then
      match bracket rest with
      | some (s, tail) => .set s :: ofCells n tail
      | none => .byte b :: ofCells n rest
    else if b = ascii '\\' then
      match rest with
      | (_, c) :: tail => .byte c :: ofCells n tail
      | [] => [.byte b]
    else .byte b :: ofCells n rest

/-- The pattern of a marked text. -/
def ofText (m : Marked) : List Wildcard :=
  let cells := m.cells
  ofCells (cells.length + 1) cells

/-- Whether a part is no plain byte. -/
def isSpecial : Wildcard → Bool
  | byte _ => false
  | _ => true

/-- Whether a pattern covers a text. -/
def covers : List Wildcard → Bytes → Bool
  | [], s => s.isEmpty
  | .byte b :: ps, c :: s => b == c && covers ps s
  | .any :: ps, _ :: s => covers ps s
  | .set members :: ps, c :: s => members.contains c && covers ps s
  | [.anyRun], _ => true
  | .anyRun :: ps, [] => covers ps []
  | .anyRun :: ps, c :: s => covers ps (c :: s) || covers (.anyRun :: ps) s
  | _, [] => false
termination_by ps s => ps.length + s.length

end Wildcard

/-- A text without the part at one end that a pattern covers, the shortest or the longest such
part. -/
def trim (atEnd longest : Bool) (pattern : List Wildcard) (s : Bytes) : Bytes :=
  let counts := List.range (s.length + 1)
  let counts := if longest then counts.reverse else counts
  if atEnd then
    match counts.find? fun n => Wildcard.covers pattern (s.drop (s.length - n)) with
    | some n => s.take (s.length - n)
    | none => s
  else
    match counts.find? fun n => Wildcard.covers pattern (s.take n) with
    | some n => s.drop n
    | none => s

end MacroConstants.Shell
