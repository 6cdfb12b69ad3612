import MacroConstants.ByteSet
import MacroConstants.Utility.Basic

/-!
# Utilities on parts of lines

* `Utility.cut` — chosen bytes or fields of every line.
* `Utility.paste` — lines side by side.
* `Utility.tr` — bytes replaced by others, left out, or not repeated.
-/

namespace MacroConstants.Utility

/-! ### Cutting -/

/-- Numbers from a first one, perhaps up to a last one. -/
structure Span where
  low : Nat
  high : Option Nat
  deriving DecidableEq, Repr

/-- Whether a number is among them. -/
def Span.contains (s : Span) (n : Nat) : Bool := s.low ≤ n && s.high.all (n ≤ ·)

/-- Why a list of spans is not understood. -/
inductive SpanFault where
  | zero
  | decreasing
  | noEndpoint
  | invalid (text : Bytes)

/-- The numbers an item of a list stands for. -/
def readSpan (item : Bytes) : Except SpanFault Span :=
  let number (s : Bytes) : Except SpanFault Nat :=
    match natural? s with
    | none => .error (.invalid item)
    | some 0 => .error .zero
    | some n => .ok n
  match item.splitOn (ascii '-') with
  | [[]] => .error .zero
  | [one] => do
    let n ← number one
    return ⟨n, some n⟩
  | [[], []] => .error .noEndpoint
  | [[], last] => return ⟨1, some (← number last)⟩
  | [first, []] => return ⟨← number first, none⟩
  | [first, last] => do
    let low ← number first
    let high ← number last
    if high < low then .error .decreasing else return ⟨low, some high⟩
  | _ => .error (.invalid item)

/-- The spans of a list. -/
def readSpans (s : Bytes) : Except SpanFault (List Span) :=
  ((s.map fun b => if Bytes.isBlank b then ascii ',' else b).splitOn (ascii ',')).mapM readSpan

/-- The wording of a fault; `fields` says whether fields are counted. -/
def SpanFault.message (fields : Bool) : SpanFault → Bytes
  | zero =>
    if fields then bytes "fields are numbered from 1"
    else bytes "byte/character positions are numbered from 1"
  | decreasing => bytes "invalid decreasing range"
  | noEndpoint => bytes "invalid range with no endpoint: -"
  | invalid text =>
    bytes (if fields then "invalid field value '" else "invalid byte/character position '")
      ++ text ++ bytes "'"

/-- The runs of chosen members of a list that is numbered from one. -/
def runs {α : Type} (chosen : Nat → Bool) : Nat → List α → List (List α)
  | _, [] => []
  | n, a :: rest =>
    let others := runs chosen (n + 1) rest
    if !chosen n then others
    else if chosen (n + 1) && !rest.isEmpty then
      match others with
      | run :: others => (a :: run) :: others
      | [] => [[a]]
    else [a] :: others

/-- What is cut out of lines. -/
structure Cutting where
  fields : Bool
  chosen : Nat → Bool
  delimiter : UInt8
  /-- What stands between the parts. -/
  joint : Option Bytes
  /-- Whether lines without a delimiter are left out. -/
  onlyDelimited : Bool

/-- What is cut out of a line. -/
def Cutting.apply (c : Cutting) (line : Bytes) : Option Bytes :=
  if c.fields then
    let parts := line.splitOn c.delimiter
    if parts.length = 1 then if c.onlyDelimited then none else some line
    else
      let found := (parts.zipIdx 1).filterMap fun (p, i) => if c.chosen i then some p else none
      some ((c.joint.getD [c.delimiter]).intercalate found)
  else
    match c.joint with
    | none => some ((line.zipIdx 1).filterMap fun (b, i) => if c.chosen i then some b else none)
    | some joint => some (joint.intercalate (runs c.chosen 1 line))

/-- Cuts chosen bytes or fields out of every line. -/
def cut : Utility := fun args =>
  let long := [("bytes", "b", true), ("characters", "c", true), ("fields", "f", true),
    ("delimiter", "d", true), ("only-delimited", "s", false), ("complement", "C", false),
    ("output-delimiter", "o", true)]
  withOptions "cut" (table "b:c:f:d:sn" long) 1 args fun o => do
    let lists := o.given.filter fun g => [bytes "b", bytes "c", bytes "f"].contains g.1
    match lists with
    | [] => refuse "cut" (bytes "you must specify a list of bytes, characters, or fields")
    | _ :: _ :: _ => refuse "cut" (bytes "only one list may be specified")
    | [(unit, list)] =>
      let fields := unit == bytes "f"
      let delimiter := (o.get? "d").getD (bytes "\t")
      match readSpans list with
      | .error fault => refuse "cut" (fault.message fields)
      | .ok spans =>
        if 1 < delimiter.length then refuse "cut" (bytes "the delimiter must be a single character")
        else if !fields && o.has "d" then
          refuse "cut" (bytes "an input delimiter may be specified only when operating on fields")
        else if !fields && o.has "s" then
          refuse "cut" (bytes ("suppressing non-delimited lines makes sense\n\t"
            ++ "only when operating on fields"))
        else
          let cutting : Cutting :=
            { fields, chosen := fun n => o.has "C" != spans.any (·.contains n)
              delimiter := delimiter.headD 0, joint := o.get? "o", onlyDelimited := o.has "s" }
          let (texts, ok) ← inputs "cut" plainWording o.operands
          texts.forM fun (_, text) =>
            Job.say (((bareLines text).filterMap cutting.apply).flatMap (· ++ bytes "\n"))
          return if ok then 0 else 1

/-! ### Side by side -/

/-- Texts joined by delimiters that take turns. -/
def joinInTurn (delimiters : List Bytes) : Nat → List Bytes → Bytes
  | _, [] => []
  | _, [last] => last
  | n, t :: ts =>
    let delimiter := (delimiters[n % max 1 delimiters.length]?).getD []
    t ++ delimiter ++ joinInTurn delimiters (n + 1) ts

/-- The delimiters that a text lists. -/
def readDelimiters : Bytes → List Bytes
  | 0x5c :: c :: rest =>
    let delimiter := if c = ascii 'n' then bytes "\n" else if c = ascii 't' then bytes "\t"
      else if c = ascii '0' then [] else [c]
    delimiter :: readDelimiters rest
  | b :: rest => [b] :: readDelimiters rest
  | [] => []

/-- Every `n`-th member of a list, from the `i`-th on. -/
def everyNth {α : Type} (n i : Nat) (xs : List α) : List α :=
  xs.zipIdx.filterMap fun (x, j) => if j % n = i then some x else none

/-- The columns of inputs; standard input that is named more than once is dealt out in turn. -/
def columnsOf (texts : List (Bytes × Bytes)) : List (List Bytes) :=
  let shared (entry : Bytes × Bytes) : Bool := entry.1 == bytes "-"
  let dealt := (texts.filter shared).flatMap fun (_, text) => bareLines text
  let count := texts.countP shared
  texts.zipIdx.map fun (entry, i) =>
    if shared entry then everyNth count ((texts.take i).countP shared) dealt
    else bareLines entry.2

/-- Puts the lines of files side by side, or the lines of each file on one line. -/
def paste : Utility := fun args =>
  withOptions "paste" (table "d:s" [("delimiters", "d", true), ("serial", "s", false)]) 1 args
    fun o => do
      let delimiters := readDelimiters ((o.get? "d").getD (bytes "\t"))
      let (texts, ok) ← inputs "paste" plainWording o.operands
      if !ok then return 1
      if o.has "s" then
        texts.forM fun (_, text) =>
          Job.say (joinInTurn delimiters 0 (bareLines text) ++ bytes "\n")
      else
        let columns := columnsOf texts
        let height := (columns.map List.length).foldl max 0
        let row (i : Nat) : Bytes :=
          joinInTurn delimiters 0 (columns.map fun lines => (lines[i]?).getD []) ++ bytes "\n"
        Job.say ((List.range height).flatMap row)
      return 0

/-! ### Bytes -/

/-- A member of a set of bytes in order. -/
inductive Letters where
  | some (bs : Bytes)
  /-- A byte that fills the set up to a length. -/
  | filler (b : UInt8)

/-- The byte at the front of a text, perhaps behind a backslash, and what follows. -/
def letter : Bytes → Option (UInt8 × Bytes)
  | [] => none
  | b :: rest =>
    if b ≠ ascii '\\' then .some (b, rest)
    else
      match rest with
      | [] => .some (b, [])
      | c :: tail =>
        if Bytes.isOctal c then
          let digits := (rest.take 3).takeWhile Bytes.isOctal
          .some ((Numeral.value 8 digits).toUInt8, rest.drop digits.length)
        else
          let controls := [(ascii 'n', 10), (ascii 't', 9), (ascii 'r', 13), (ascii 'a', 7),
            (ascii 'b', 8), (ascii 'f', 12), (ascii 'v', 11)]
          .some ((controls.lookup c).getD c, tail)

/-- A class, a single byte or a repeated byte after an opening bracket, and what follows. -/
def bracketed (s : Bytes) : Option (Letters × Bytes) :=
  match s with
  | 0x3a :: rest =>
    let name := rest.takeWhile (· != ascii ':')
    match (rest.drop name.length), ByteSet.class? name with
    | 0x3a :: 0x5d :: tail, .some ranges =>
      let members := ((List.range 256).map Nat.toUInt8).filter (ByteSet.mk false ranges).contains
      .some (.some members, tail)
    | _, _ => none
  | 0x3d :: b :: 0x3d :: 0x5d :: tail => .some (.some [b], tail)
  | s =>
    match letter s with
    | .some (b, 0x2a :: rest) =>
      let digits := rest.takeWhile Bytes.isDigit
      match rest.drop digits.length with
      | 0x5d :: tail =>
        let base := if digits.head? = .some (ascii '0') then 8 else 10
        let n := Numeral.value base digits
        .some (if n = 0 then .filler b else .some (List.replicate n b), tail)
      | _ => none
    | _ => none

/-- The members a text lists. -/
def readMembers : Nat → Bytes → Except Bytes (List Letters)
  | 0, _ | _, [] => .ok []
  | n + 1, b :: rest => do
    match if b = ascii '[' then bracketed rest else none with
    | .some (found, tail) => return found :: (← readMembers n tail)
    | none =>
      match letter (b :: rest) with
      | none => return []
      | .some (low, tail) =>
        match tail with
        | 0x2d :: next :: more =>
          match letter (next :: more) with
          | none => return [.some [low]]
          | .some (high, tail) =>
            if high < low then
              .error (bytes "range-endpoints of '" ++ [low] ++ bytes "-" ++ [high]
                ++ bytes "' are in reverse collating sequence order")
            else
              let members := (List.range (high.toNat + 1 - low.toNat)).map fun i =>
                (low.toNat + i).toUInt8
              return .some members :: (← readMembers n tail)
        | tail => return .some [low] :: (← readMembers n tail)

/-- The bytes in order, filled up to a length where that is asked for. -/
def fillTo (length : Nat) (set : List Letters) : Bytes :=
  let known := set.flatMap fun
    | .some bs => bs
    | .filler _ => []
  set.flatMap fun
    | .some bs => bs
    | .filler b => List.replicate (length - known.length) b

/-- Without bytes of a class that repeat the byte before them. -/
def squeezed (p : UInt8 → Bool) : Bytes → Bytes
  | a :: b :: s => if a == b && p a then squeezed p (b :: s) else a :: squeezed p (b :: s)
  | s => s

/-- Replaces bytes, leaves them out, or does not repeat them. -/
def translate (o : Options) (complements : Bool) (first second : Bytes) : Job Nat := do
  let input := (← Job.takeAll 0).getD []
  let isFirst (b : UInt8) : Bool := complements != first.contains b
  let members := if complements then ((List.range 256).map Nat.toUInt8).filter isFirst else first
  let replaced (s : Bytes) : Bytes :=
    let length := if o.has "t" then min members.length second.length else members.length
    let pairs := (members.take length).zip
      (second ++ List.replicate (length - second.length) (second.getLast?.getD 0))
    s.map fun b => (pairs.reverse.lookup b).getD b
  let result :=
    if o.has "d" then
      let kept := input.filter (!isFirst ·)
      if o.has "s" then squeezed second.contains kept else kept
    else if o.operands.length = 1 then squeezed isFirst input
    else if o.has "s" then squeezed second.contains (replaced input)
    else replaced input
  Job.say result
  return 0

/-- Replaces bytes, leaves them out, or does not repeat them. -/
def tr : Utility := fun args =>
  let long := [("complement", "c", false), ("delete", "d", false), ("squeeze-repeats", "s", false),
    ("truncate-set1", "t", false)]
  withOptions "tr" (table "cCdst" long) 1 args fun o => do
    let complements := o.has "c" || o.has "C"
    let least := if o.has "d" == o.has "s" then 2 else 1
    let most := if o.has "d" && !o.has "s" then 1 else 2
    let hint := bytes "Try 'tr --help' for more information.\n"
    match o.operands with
    | [] => refuse "tr" (bytes "missing operand")
    | operands =>
      if operands.length < least then
        warn "tr" (bytes "missing operand after '" ++ operands.getLastD [] ++ bytes "'")
        Job.complain (bytes (if o.has "d" then
          "Two strings must be given when both deleting and squeezing repeats.\n"
          else "Two strings must be given when translating.\n") ++ hint)
        return 1
      else
        match operands[most]? with
        | .some extra =>
          warn "tr" (bytes "extra operand '" ++ extra ++ bytes "'")
          if operands.length = 2 then
            Job.complain
              (bytes "Only one string may be given when deleting without squeezing repeats.\n")
          Job.complain hint
          return 1
        | none =>
          let read (s : Bytes) : Except Bytes (List Letters) := readMembers (s.length + 1) s
          match read (operands.headD []), read ((operands[1]?).getD []) with
          | .error text, _ | _, .error text =>
            warn "tr" text
            return 1
          | .ok first, .ok second =>
            let first := fillTo 0 first
            let length := if complements then 256 - first.eraseDups.length else first.length
            let second := fillTo length second
            if operands.length = 2 && second.isEmpty && !o.has "d" && !o.has "t" then
              warn "tr" (bytes "when not truncating set1, string2 must be non-empty")
              return 1
            else translate o complements first second

end MacroConstants.Utility
