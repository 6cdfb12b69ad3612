import MacroConstants.Bytes.Numeral
import MacroConstants.Shell.Integer
import MacroConstants.Utility.Regex

/-!
# Reading regular expressions

The basic notation writes groups, bounds and alternatives with a backslash, the extended one
without.  Both are first cut into tokens, and the tokens are then collected group by group.

* `Regex.Spelling` — which notation a text is in.
* `Regex.tokens` — the parts of a text.
* `Regex.read` — the expression a text denotes.
-/

namespace MacroConstants.Utility.Regex

/-- How a text is to be read. -/
structure Spelling where
  extended : Bool := false
  /-- Whether letters after a backslash stand for control characters. -/
  controls : Bool := false
  /-- Whether marks of the extended notation that have no use stand for themselves. -/
  lenient : Bool := false
  deriving DecidableEq, Repr

/-- What is wrong with a text. -/
inductive Fault where
  | unclosedGroup
  | unopenedGroup
  | unclosedSet
  | unknownClass
  | emptyRange
  | noSet
  | unclosedBounds
  | badBounds
  | tooBig
  | nothingToRepeat
  | trailingBackslash
  | unknownGroup
  deriving DecidableEq, Repr

/-- The wording of a fault. -/
def Fault.message : Fault → Bytes
  | unclosedGroup => bytes "Unmatched ( or \\("
  | unopenedGroup => bytes "Unmatched ) or \\)"
  | unclosedSet => bytes "Unmatched [, [^, [:, [., or [="
  | unknownClass => bytes "Invalid character class name"
  | emptyRange => bytes "Invalid range end"
  | noSet => bytes "Invalid regular expression"
  | unclosedBounds => bytes "Unmatched \\\x7b"
  | badBounds => bytes "Invalid content of \\\x7b\\\x7d"
  | tooBig => bytes "Regular expression too big"
  | nothingToRepeat => bytes "Invalid preceding regular expression"
  | trailingBackslash => bytes "Trailing backslash"
  | unknownGroup => bytes "Invalid back reference"

/-- A part of an expression. -/
inductive Token where
  | atom (p : Regex)
  | mark (least : Nat) (most : Option Nat)
  | groupStart
  | groupStop
  | bar
  deriving DecidableEq, Repr

/-- One byte. -/
def byte (b : UInt8) : Token := .atom (.one ⟨false, [(b, b)]⟩)

/-- The bytes of words, perhaps complemented. -/
def wordSet (complemented : Bool) : ByteSet :=
  ⟨complemented, (ascii '_', ascii '_') :: ((ByteSet.class? (bytes "alnum")).getD [])⟩

/-- The bytes of white space, perhaps complemented. -/
def spaceSet (complemented : Bool) : ByteSet := ⟨complemented, [(9, 13), (32, 32)]⟩

/-- The control character of a letter. -/
def control? (b : UInt8) : Option UInt8 :=
  [(ascii 'n', 10), (ascii 't', 9), (ascii 'r', 13), (ascii 'a', 7), (ascii 'f', 12),
   (ascii 'v', 11)].lookup b

/-- A text with bytes in place of their two hexadecimal digits after a backslash and an `x`; a byte
that could be a mark keeps a backslash. -/
def spellOutBytes : Bytes → Bytes
  | 0x5c :: 0x78 :: h :: l :: s =>
    if Shell.isHexDigit h && Shell.isHexDigit l then
      let b := (Shell.hexadecimalValue [h, l]).toUInt8
      (if (bytes "&*.[]^$/\\").contains b then [ascii '\\', b] else [b]) ++ spellOutBytes s
    else 0x5c :: 0x78 :: spellOutBytes (h :: l :: s)
  | 0x5c :: c :: s => 0x5c :: c :: spellOutBytes s
  | b :: s => b :: spellOutBytes s
  | [] => []

/-- The token of a byte after a backslash that is the same in both notations. -/
def escapedToken (form : Spelling) (b : UInt8) : Token :=
  let borders := [(ascii '<', Border.wordStart), (ascii '>', .wordStop), (ascii 'b', .wordEdge),
    (ascii 'B', .noWordEdge), (0x60, .start), (ascii '\'', .stop)]
  let sets := [(ascii 'w', wordSet false), (ascii 'W', wordSet true), (ascii 's', spaceSet false),
    (ascii 'S', spaceSet true)]
  if ascii '1' ≤ b ∧ b ≤ ascii '9' then .atom (.again (b - ascii '0').toNat)
  else
    match borders.lookup b, sets.lookup b, if form.controls then control? b else none with
    | some edge, _, _ => .atom (.border edge)
    | _, some set, _ => .atom (.one set)
    | _, _, some c => byte c
    | none, none, none => byte b

/-- The most often that a bounded repetition may ask for. -/
def repeatLimit : Nat := 32767

/-- Bounds that can be asked for: in order and not too large. -/
def checkBounds (least : Nat) (most : Option Nat) : Option (Nat × Option Nat) :=
  let largest := max least (most.getD 0)
  if repeatLimit < largest then none
  else
    match most with
    | none => some (least, none)
    | some m => if m < least then none else some (least, some m)

/-- The bounds of a repetition between braces, and the text after the closing brace. -/
def parseBounds (s : Bytes) : Option (Nat × Option Nat × Bytes) :=
  let digits := s.takeWhile Bytes.isDigit
  let least := Numeral.value 10 digits
  match s.drop digits.length with
  | [] => none
  | b :: rest =>
    if b = ascii '}' ∧ !digits.isEmpty then
      (checkBounds least (some least)).map fun (least, most) => (least, most, rest)
    else if b = ascii ',' then
      let more := rest.takeWhile Bytes.isDigit
      let most := if more.isEmpty then none else some (Numeral.value 10 more)
      match rest.drop more.length with
      | [] => none
      | c :: tail =>
        if c = ascii '}' then
          (checkBounds least most).map fun (least, most) => (least, most, tail)
        else none
    else none

/-- The bounds of a repetition up to their closing mark, and what follows. -/
def bounds (extended : Bool) (s : Bytes) : Except Fault (Token × Bytes) :=
  let inside := s.takeWhile fun b => Bytes.isDigit b || b == ascii ','
  let close := bytes (if extended then "\x7d" else "\\\x7d")
  match close.isPrefixOf? (s.drop inside.length) with
  | none => .error (if s.length = inside.length then .unclosedBounds else .badBounds)
  | some rest =>
    match parseBounds (inside ++ bytes "\x7d") with
    | some (least, most, _) => .ok (.mark least most, rest)
    | none => .error (if 5 ≤ inside.length then .tooBig else .badBounds)

/-- The bytes between brackets, with escapes carried out where letters stand for control
characters. -/
def insideSet (form : Spelling) : Bytes → Bytes
  | [] => []
  | b :: c :: s =>
    match if form.controls ∧ b = ascii '\\' then control? c else none with
    | some control => control :: insideSet form s
    | none => b :: insideSet form (c :: s)
  | s => s

/-- What is wrong with the text after an opening bracket. -/
def setFault (s : Bytes) : Fault :=
  let members := if s.head? = some (ascii '^') then s.tail else s
  if members.isEmpty then .noSet
  else if !members.tail.contains (ascii ']') then .unclosedSet
  else if (members.zip members.tail).contains (ascii '[', ascii ':') then .unknownClass
  else .emptyRange

/-- The token of a byte that stands for itself unless it is a mark of the extended notation. -/
def markToken? (b : UInt8) : Option Token :=
  [(ascii '(', Token.groupStart), (ascii ')', .groupStop), (ascii '|', .bar),
   (ascii '+', .mark 1 none), (ascii '?', .mark 0 (some 1))].lookup b

/-- Whether an expression can start after a token. -/
def opens : Option Token → Bool
  | none | some .groupStart | some .bar => true
  | _ => false

/-- Whether an expression can stop before a text. -/
def closes (extended : Bool) (s : Bytes) : Bool :=
  let marks := if extended then [bytes ")", bytes "|"] else [bytes "\\)", bytes "\\|"]
  s.isEmpty || marks.any (·.isPrefixOf s)

/-- The token at the front of a text, and what follows it; `last` is the token before it. -/
def nextToken (form : Spelling) (last : Option Token) (b : UInt8) (rest : Bytes) :
    Except Fault (Token × Bytes) :=
  let afterStart := last == some (.atom (.border .start))
  if b = ascii '\\' then
    match rest with
    | [] => .error .trailingBackslash
    | c :: rest =>
      if form.extended then .ok (escapedToken form c, rest)
      else if c = ascii '\x7b' then bounds false rest
      else .ok ((markToken? c).getD (escapedToken form c), rest)
  else if b = ascii '[' then
    match ByteSet.parseBracket (insideSet form rest) with
    | some (set, tail) => .ok (.atom (.one set), tail)
    | none => .error (setFault rest)
  else if b = ascii '.' then .ok (.atom (.one ByteSet.any), rest)
  else if b = ascii '*' then
    .ok (if (opens last || afterStart) && !form.extended then byte b else .mark 0 none, rest)
  else if b = ascii '^' ∧ (form.extended ∨ opens last) then .ok (.atom (.border .start), rest)
  else if b = ascii '$' ∧ (form.extended ∨ closes false rest) then
    .ok (.atom (.border .stop), rest)
  else if form.extended then
    if b = ascii '\x7b' then
      match bounds true rest with
      | .ok found => .ok found
      | .error fault =>
        if form.lenient && fault != .tooBig then .ok (byte b, rest) else .error fault
    else .ok ((markToken? b).getD (byte b), rest)
  else .ok (byte b, rest)

/-- The tokens of a text, at most `n`. -/
def tokens (form : Spelling) : Nat → Option Token → Bytes → Except Fault (List Token)
  | 0, _, _ | _, _, [] => .ok []
  | n + 1, last, b :: rest => do
    let (t, rest) ← nextToken form last b rest
    return t :: (← tokens form n (some t) rest)

/-! ### Collecting tokens -/

/-- A group that is being read: its number, the alternatives before the last bar, and the parts
after it, last first. -/
structure Frame where
  number : Nat
  before : Option Regex := none
  parts : List Regex := []

/-- What a group holds. -/
def Frame.content (f : Frame) : Regex :=
  let branch := match f.parts with
    | [] => .empty
    | last :: parts => parts.foldl (fun p q => .seq q p) last
  match f.before with
  | none => branch
  | some p => .alt p branch

/-- One more part. -/
def Frame.add (f : Frame) (p : Regex) : Frame := { f with parts := p :: f.parts }

/-- A closing parenthesis that closes nothing. -/
def closing : Regex := .one ⟨false, [(ascii ')', ascii ')')]⟩

/-- Collects tokens; `lenient` accepts marks that have no use, `count` groups were opened so far,
and `outer` are the groups around the current one. -/
def collect (lenient : Bool) : List Token → Nat → Frame → List Frame → Except Fault Regex
  | [], _, f, [] => .ok f.content
  | [], _, _, _ :: _ => .error .unclosedGroup
  | .atom (.again n) :: ts, count, f, outer =>
    if n ≤ count then collect lenient ts count (f.add (.again n)) outer else .error .unknownGroup
  | .atom p :: ts, count, f, outer => collect lenient ts count (f.add p) outer
  | .mark least most :: ts, count, f, outer =>
    match f.parts with
    | [] | .border .start :: _ =>
      if lenient then collect lenient ts count f outer else .error .nothingToRepeat
    | p :: parts => collect lenient ts count { f with parts := .repeat p least most :: parts } outer
  | .groupStart :: ts, count, f, outer =>
    collect lenient ts (count + 1) { number := count + 1 } (f :: outer)
  | .groupStop :: ts, count, f, [] =>
    if lenient then collect lenient ts count (f.add closing) [] else .error .unopenedGroup
  | .groupStop :: ts, count, f, g :: outer =>
    collect lenient ts count (g.add (.group f.number f.content)) outer
  | .bar :: ts, count, f, outer =>
    collect lenient ts count { number := f.number, before := some f.content } outer

/-- The expression a text denotes. -/
def read (form : Spelling) (s : Bytes) : Except Fault Regex := do
  collect (form.lenient && form.extended) (← tokens form s.length none s) 0 { number := 0 } []

end MacroConstants.Utility.Regex
