import MacroConstants.Bytes

/-!
# Sets of bytes

* `ByteSet` — the sets that bracket expressions and classes name.
* `ByteSet.class?` — the classes, by name.
* `ByteSet.parseBracket` — reads a bracket expression.
-/

namespace MacroConstants

/-- A set of bytes: inclusive ranges, perhaps complemented. -/
structure ByteSet where
  complemented : Bool := false
  ranges : List (UInt8 × UInt8)
  deriving DecidableEq, Repr

/-- Membership of a byte. -/
def ByteSet.contains (s : ByteSet) (b : UInt8) : Bool :=
  s.complemented != s.ranges.any fun (lo, hi) => lo ≤ b && b ≤ hi

/-- The ranges of a class of bytes by its name. -/
def ByteSet.class? (name : Bytes) : Option (List (UInt8 × UInt8)) :=
  let digits := [(ascii '0', ascii '9')]
  let lower := [(ascii 'a', ascii 'z')]
  let upper := [(ascii 'A', ascii 'Z')]
  let marks := [(ascii '!', ascii '/'), (ascii ':', ascii '@'), (ascii '[', 0x60), (0x7b, 0x7e)]
  [(bytes "alpha", upper ++ lower), (bytes "digit", digits),
   (bytes "alnum", digits ++ upper ++ lower), (bytes "upper", upper), (bytes "lower", lower),
   (bytes "space", [(9, 13), (32, 32)]), (bytes "blank", [(9, 9), (32, 32)]),
   (bytes "punct", marks), (bytes "print", [(32, 126)]), (bytes "graph", [(33, 126)]),
   (bytes "cntrl", [(0, 31), (127, 127)]),
   (bytes "xdigit", digits ++ [(ascii 'a', ascii 'f'), (ascii 'A', ascii 'F')])].lookup name

namespace ByteSet

/-! ### Bracket expressions -/

/-- Every byte. -/
def any : ByteSet := ⟨true, []⟩

/-- The class, or the single byte, between an opening bracket with a mark and the same mark with a
closing bracket: the ranges and what follows. -/
def parseClass (mark : UInt8) (s : Bytes) : Option (List (UInt8 × UInt8) × Bytes) :=
  let name := s.takeWhile (· != mark)
  match s.drop name.length with
  | _ :: close :: rest =>
    if close ≠ ascii ']' then none
    else if mark = ascii ':' then (class? name).map fun ranges => (ranges, rest)
    else
      match name with
      | [b] => some ([(b, b)], rest)
      | _ => none
  | _ => none

/-- Whether a byte after an opening bracket marks a class. -/
def isClassMark (b : UInt8) : Bool := b == ascii ':' || b == ascii '.' || b == ascii '='

/-- A member of a bracket expression: a class, or a single byte. -/
def parseMember (s : Bytes) : Option (List (UInt8 × UInt8) × Bytes) :=
  match s with
  | [] => none
  | [b] => some ([(b, b)], [])
  | b :: mark :: rest =>
    if b = ascii '[' ∧ isClassMark mark then parseClass mark rest
    else some ([(b, b)], mark :: rest)

/-- The inside of a bracket expression up to its closing bracket: classes, single bytes and ranges.
A closing bracket in the first place is a member, and so is a hyphen in the first or last place.
A range must not be empty. -/
def parseRanges : Nat → Bool → Bytes → Option (List (UInt8 × UInt8) × Bytes)
  | 0, _, _ => none
  | _ + 1, _, [] => none
  | fuel + 1, first, b :: rest =>
    if b = ascii ']' ∧ !first then some ([], rest)
    else if b = ascii '-' ∧ !first ∧ rest.head? ≠ some (ascii ']') then none
    else
      match parseMember (b :: rest) with
      | none => none
      | some (low, tail) =>
        match tail with
        | dash :: next :: more =>
          if dash ≠ ascii '-' ∨ next = ascii ']' then
            (parseRanges fuel false tail).map fun (ranges, tail) => (low ++ ranges, tail)
          else
            match low, parseMember (next :: more) with
            | [(lo, _)], some ([(hi, _)], tail) =>
              if hi < lo then none
              else
                (parseRanges fuel false tail).map fun (ranges, tail) => ((lo, hi) :: ranges, tail)
            | _, _ => none
        | tail => (parseRanges fuel false tail).map fun (ranges, tail) => (low ++ ranges, tail)

/-- A bracket expression after its opening bracket. -/
def parseBracket (s : Bytes) : Option (ByteSet × Bytes) :=
  let (complemented, s) := match s with
    | b :: rest => if b = ascii '^' then (true, rest) else (false, s)
    | [] => (false, s)
  (parseRanges (s.length + 1) true s).map fun (ranges, tail) => (⟨complemented, ranges⟩, tail)

end ByteSet

end MacroConstants
