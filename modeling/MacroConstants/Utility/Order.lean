import MacroConstants.Utility.Basic

/-!
# Utilities that order lines

* `Utility.sort` — lines in order.
* `Utility.uniq` — lines that repeat the line before them, counted or left out.
-/

namespace MacroConstants.Utility

/-! ### Keys -/

/-- How texts are compared. -/
structure Comparison where
  numeric : Bool := false
  reversed : Bool := false
  foldsCase : Bool := false
  skipsBlanks : Bool := false
  onlyWords : Bool := false
  deriving DecidableEq, Repr

/-- A place in a line: a field and a byte in it, both from one; no byte means the field's end. -/
structure KeyPlace where
  field : Nat
  byte : Nat := 0
  deriving DecidableEq, Repr

/-- A key: the part of a line between two places. -/
structure Key where
  start : KeyPlace
  stop : Option KeyPlace := none
  comparison : Option Comparison := none
  deriving DecidableEq, Repr

/-- An uppercase letter for a lowercase one. -/
def upper (b : UInt8) : UInt8 := if ascii 'a' ≤ b && b ≤ ascii 'z' then b - 32 else b

/-- The number at the front of a text: whether it is negative, its whole digits and the digits after
its point. -/
def numberOf (s : Bytes) : Bool × Bytes × Bytes :=
  let s := s.dropWhile Bytes.isBlank
  let negative := s.head? == some (ascii '-')
  let s := if negative then s.tail else s
  let whole := s.takeWhile Bytes.isDigit
  match s.drop whole.length with
  | 0x2e :: rest => (negative, whole, rest.takeWhile Bytes.isDigit)
  | _ => (negative, whole, [])

/-- The order of two byte strings. -/
def compareBytes (a b : Bytes) : Ordering :=
  if a = b then .eq else if FileSystem.before a b then .lt else .gt

/-- The order of the numbers at the front of two texts. -/
def compareNumbers (a b : Bytes) : Ordering :=
  let (negative, whole, fraction) := numberOf a
  let (negative', whole', fraction') := numberOf b
  let width := max fraction.length fraction'.length
  let scaled (negative : Bool) (whole fraction : Bytes) : Int :=
    let zeros := List.replicate (width - fraction.length) (ascii '0')
    let n : Int := Numeral.value 10 (whole ++ fraction ++ zeros)
    if negative then -n else n
  compare (scaled negative whole fraction) (scaled negative' whole' fraction')

/-- The order of two texts. -/
def Comparison.compare (c : Comparison) (a b : Bytes) : Ordering :=
  let prepared (s : Bytes) : Bytes :=
    let s := if c.skipsBlanks then s.dropWhile Bytes.isBlank else s
    let s :=
      if c.onlyWords then
        s.filter fun b => Bytes.isLetter b || Bytes.isDigit b || Bytes.isBlank b
      else s
    if c.foldsCase then s.map upper else s
  let order := if c.numeric then compareNumbers a b else compareBytes (prepared a) (prepared b)
  if c.reversed then order.swap else order

/-- Where each field of a line starts and ends.  Without a separator a field has the blanks in front
of it. -/
def fieldBounds (separator : Option UInt8) : Nat → Nat → Bytes → List (Nat × Nat)
  | 0, _, _ => []
  | n + 1, i, s =>
    match separator with
    | some b =>
      let field := s.takeWhile (· != b)
      let stop := i + field.length
      match s.drop field.length with
      | [] => [(i, stop)]
      | _ :: rest => (i, stop) :: fieldBounds separator n (stop + 1) rest
    | none =>
      let blanks := s.takeWhile Bytes.isBlank
      let word := (s.drop blanks.length).takeWhile (!Bytes.isBlank ·)
      let stop := i + blanks.length + word.length
      match s.drop (blanks.length + word.length) with
      | [] => [(i, stop)]
      | rest => (i, stop) :: fieldBounds separator n stop rest

/-- The part of a line that a key means. -/
def Key.of (k : Key) (separator : Option UInt8) (skipsBlanks : Bool) (line : Bytes) : Bytes :=
  let fields := fieldBounds separator (line.length + 1) 0 line
  let inField (p : KeyPlace) : Nat :=
    match fields[p.field - 1]? with
    | none => line.length
    | some (start, _) =>
      start + (if skipsBlanks then ((line.drop start).takeWhile Bytes.isBlank).length else 0)
  let start := min line.length (inField k.start + (k.start.byte - 1))
  let stop := match k.stop with
    | none => line.length
    | some p =>
      if p.byte = 0 then ((fields[p.field - 1]?).map (·.2)).getD line.length
      else min line.length (inField p + p.byte)
  (line.drop start).take (stop - start)

/-- The letters of comparisons. -/
def readComparison (letters : Bytes) : Option Comparison :=
  if letters.all (bytes "nrfbdgh").contains then
    let has (c : Char) : Bool := letters.contains (ascii c)
    some { numeric := has 'n' || has 'g' || has 'h', reversed := has 'r', foldsCase := has 'f'
           skipsBlanks := has 'b', onlyWords := has 'd' }
  else none

/-- A place and the letters after it. -/
def readKeyPlace (s : Bytes) : Option (KeyPlace × Bytes) :=
  let field := s.takeWhile Bytes.isDigit
  if field.isEmpty then none
  else
    match s.drop field.length with
    | 0x2e :: rest =>
      let byte := rest.takeWhile Bytes.isDigit
      some (⟨Numeral.value 10 field, Numeral.value 10 byte⟩, rest.drop byte.length)
    | letters => some (⟨Numeral.value 10 field, 0⟩, letters)

/-- A key as it is written. -/
def readKey (s : Bytes) : Option Key :=
  match s.splitOn (ascii ',') with
  | [start] => do
    let (start, letters) ← readKeyPlace start
    let c ← readComparison letters
    return { start, comparison := if letters.isEmpty then none else some c }
  | [start, stop] => do
    let (start, letters) ← readKeyPlace start
    let (stop, more) ← readKeyPlace stop
    let c ← readComparison (letters ++ more)
    return { start, stop, comparison := if (letters ++ more).isEmpty then none else some c }
  | _ => none

/-! ### Ordering -/

/-- What lines are ordered by. -/
structure Sorting where
  keys : List Key
  separator : Option UInt8
  comparison : Comparison
  /-- Whether lines that compare as equal keep their order. -/
  stable : Bool

/-- The order of two lines by the keys alone. -/
def Sorting.byKeys (s : Sorting) (a b : Bytes) : Ordering :=
  if s.keys.isEmpty then s.comparison.compare a b
  else
    s.keys.foldl (fun order k =>
      order.then
        (let c := k.comparison.getD s.comparison
         c.compare (k.of s.separator c.skipsBlanks a) (k.of s.separator c.skipsBlanks b))) .eq

/-- The order of two lines; the whole lines decide last. -/
def Sorting.compare (s : Sorting) (a b : Bytes) : Ordering :=
  if s.stable then s.byKeys a b
  else
    (s.byKeys a b).then (if s.comparison.reversed then compareBytes b a else compareBytes a b)

/-- Without lines that are equal to the line before them. -/
def withoutEqual (order : Bytes → Bytes → Ordering) : List Bytes → List Bytes
  | a :: b :: rest =>
    match withoutEqual order (b :: rest) with
    | first :: others => if order a b = .eq then a :: others else a :: first :: others
    | [] => [a]
  | lines => lines

/-- Puts lines in order. -/
def sort : Utility := fun args =>
  let long := [("reverse", "r", false), ("numeric-sort", "n", false), ("unique", "u", false),
    ("key", "k", true), ("field-separator", "t", true), ("ignore-case", "f", false),
    ("ignore-leading-blanks", "b", false), ("check", "c", false), ("output", "o", true),
    ("stable", "s", false), ("dictionary-order", "d", false)]
  withOptions "sort" (table "rnuk:t:fbco:sdghVm" long) 2 args fun o => do
    let has (c : Char) : Bool := o.given.any (·.1 == [ascii c])
    let comparison : Comparison :=
      { numeric := has 'n' || has 'g' || has 'h', reversed := has 'r', foldsCase := has 'f'
        skipsBlanks := has 'b', onlyWords := has 'd' }
    match (o.all "k").find? fun k => (readKey k).isNone with
    | some k =>
      warn "sort" (bytes "invalid number at field start: invalid count at start of '" ++ k
        ++ bytes "'")
      return 2
    | none =>
      let keys := (o.all "k").filterMap readKey
      let sorting : Sorting :=
        { keys, separator := (o.get? "t").bind List.head?, comparison
          stable := has 's' || has 'u' }
      let wording (operand : Bytes) (fault : PathFault) : Bytes :=
        match fault with
        | .isDirectory => bytes "read failed: " ++ operand ++ bytes ": Is a directory"
        | fault => bytes "cannot read: " ++ operand ++ bytes ": " ++ fault.message
      let (texts, ok) ← inputs "sort" wording o.operands
      if !ok then return 2
      let lines := texts.flatMap fun (_, text) => bareLines text
      if has 'c' then
        let disorder := ((lines.zip lines.tail).zipIdx 2).find? fun ((a, b), _) =>
          let order := sorting.compare a b
          order == .gt || (has 'u' && order == .eq)
        match disorder with
        | none => return 0
        | some ((_, line), i) =>
          let title := (o.operands.head?).getD (bytes "-")
          warn "sort" (title ++ bytes ":" ++ Numeral.decimal i ++ bytes ": disorder: " ++ line)
          return 1
      else
        let ordered := lines.mergeSort fun a b => sorting.compare a b != .gt
        let ordered := if has 'u' then withoutEqual sorting.byKeys ordered else ordered
        let text := ordered.flatMap (· ++ bytes "\n")
        match o.get? "o" with
        | none =>
          Job.say text
          return 0
        | some path =>
          match ← Job.writePath path text .write with
          | none => return 0
          | some fault =>
            warn "sort" (bytes "open failed: " ++ path ++ bytes ": " ++ fault.message)
            return 2

/-! ### Repetition -/

/-- The groups of lines next to each other that have the same key. -/
def grouped (key : Bytes → Bytes) : List Bytes → List (List Bytes)
  | [] => []
  | a :: rest =>
    match grouped key rest with
    | (b :: more) :: groups =>
      if key a == key b then (a :: b :: more) :: groups else [a] :: (b :: more) :: groups
    | groups => [a] :: groups

/-- Leaves out lines that repeat the line before them. -/
def uniq : Utility := fun args =>
  let long := [("count", "c", false), ("repeated", "d", false), ("unique", "u", false),
    ("ignore-case", "i", false), ("skip-fields", "f", true), ("skip-chars", "s", true),
    ("check-chars", "w", true)]
  withOptions "uniq" (table "cduif:s:w:" long) 1 args fun o => do
    let number (name : String) : Option Nat := (o.get? name).bind natural?
    let key (line : Bytes) : Bytes :=
      let bounds := fieldBounds none (line.length + 1) 0 line
      let start := match number "f" with
        | some (n + 1) => ((bounds[n]?).map (·.2)).getD line.length
        | _ => 0
      let rest := (line.drop start).drop ((number "s").getD 0)
      let rest := match number "w" with
        | some n => rest.take n
        | none => rest
      if o.has "i" then rest.map upper else rest
    let (texts, ok) ← inputs "uniq" plainWording (o.operands.take 1)
    if !ok then return 1
    let groups := grouped key (texts.flatMap fun (_, text) => bareLines text)
    let shown := groups.flatMap fun group =>
      let isRepeated := 1 < group.length
      if (o.has "d" && !isRepeated) || (o.has "u" && isRepeated) then []
      else
        (if o.has "c" then padded 7 group.length ++ bytes " " else [])
          ++ group.headD [] ++ bytes "\n"
    match o.operands[1]? with
    | none => Job.say shown
    | some path => let _ ← Job.writePath path shown .write
    return 0

end MacroConstants.Utility
