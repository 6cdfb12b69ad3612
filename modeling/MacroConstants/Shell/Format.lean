import MacroConstants.Decimal.General
import MacroConstants.Shell.Integer

/-!
# Formatted printing

* `Shell.escaped` — a text with its escapes carried out.
* `Shell.Conversion` — how one argument is shown.
* `Shell.format` — a format with escapes and conversions, used as often as there are arguments.
-/

namespace MacroConstants.Shell

/-! ### Escapes -/

/-- The byte a letter after a backslash stands for. -/
def escapeByte? (b : UInt8) : Option UInt8 :=
  [(ascii 'n', 10), (ascii 't', 9), (ascii 'r', 13), (ascii 'a', 7), (ascii 'b', 8),
   (ascii 'f', 12), (ascii 'v', 11), (ascii 'e', 27), (ascii '\\', ascii '\\')].lookup b

/-- The byte that at most `most` octal digits stand for, and what follows them. -/
def octalEscape (most : Nat) (s : Bytes) : UInt8 × Bytes :=
  let digits := (s.take most).takeWhile Bytes.isOctal
  ((Numeral.value 8 digits).toUInt8, s.drop digits.length)

/-- The byte an escape stands for, given the text after the backslash, and what follows it; a
backslash that starts no escape stands for itself. -/
def escapeOf (s : Bytes) : UInt8 × Bytes :=
  match s with
  | [] => (ascii '\\', [])
  | b :: rest =>
    if Bytes.isOctal b then octalEscape 3 s
    else
      match escapeByte? b with
      | some e => (e, rest)
      | none => (ascii '\\', s)

/-- A text with its escapes carried out, and whether it went to its end; an escaped `c` ends the
text at once, and an octal escape may have a zero in front. -/
def escaped : Nat → Bytes → Bytes × Bool
  | 0, s => (s, true)
  | _ + 1, [] => ([], true)
  | fuel + 1, b :: rest =>
    if b ≠ ascii '\\' then
      let (more, ends) := escaped fuel rest
      (b :: more, ends)
    else
      match rest with
      | 0x63 :: _ => ([], false)
      | 0x30 :: tail =>
        let (e, tail) := octalEscape 3 tail
        let (more, ends) := escaped fuel tail
        (e :: more, ends)
      | rest =>
        let (e, tail) := escapeOf rest
        let (more, ends) := escaped fuel tail
        (e :: more, ends)

/-! ### Conversions -/

/-- A conversion: its flags, its width, its precision and its kind. -/
structure Conversion where
  left : Bool := false
  zeros : Bool := false
  plus : Bool := false
  space : Bool := false
  alternate : Bool := false
  width : Nat := 0
  precision : Option Nat := none
  kind : UInt8
  deriving DecidableEq, Repr

namespace Conversion

/-- A text filled up to the width; `lead` is what zeros go after. -/
def fill (c : Conversion) (zeros : Bool) (lead body : Bytes) : Bytes :=
  let missing := c.width - (lead.length + body.length)
  if c.left then lead ++ body ++ List.replicate missing (ascii ' ')
  else if c.zeros && zeros then lead ++ List.replicate missing (ascii '0') ++ body
  else List.replicate missing (ascii ' ') ++ lead ++ body

/-- The sign of a number. -/
def sign (c : Conversion) (negative : Bool) : Bytes :=
  if negative then bytes "-" else if c.plus then bytes "+" else if c.space then bytes " " else []

/-- Digits filled up to the precision; a zero of no digits is empty. -/
def digits (c : Conversion) (n : Nat) (text : Bytes) : Bytes :=
  match c.precision with
  | none => text
  | some p =>
    if p = 0 ∧ n = 0 then [] else List.replicate (p - text.length) (ascii '0') ++ text

/-- A text, cut off at the precision. -/
def text (c : Conversion) (s : Bytes) : Bytes :=
  { c with zeros := false }.fill false []
    (match c.precision with
      | some p => s.take p
      | none => s)

/-- A signed integer. -/
def signed (c : Conversion) (n : Int) : Bytes :=
  c.fill c.precision.isNone (c.sign (n < 0)) (c.digits n.natAbs (Numeral.decimal n.natAbs))

/-- Hexadecimal digits with capital letters. -/
def capitals (s : Bytes) : Bytes :=
  s.map fun b => if ascii 'a' ≤ b ∧ b ≤ ascii 'z' then b - 32 else b

/-- An unsigned integer in the base of its kind. -/
def unsigned (c : Conversion) (n : Nat) : Bytes :=
  let plain := c.precision.isNone
  if c.kind = ascii 'o' then
    let text := c.digits n ((Nat.toDigits 8 n).map Char.toUInt8)
    let text := if c.alternate ∧ text.head? ≠ some (ascii '0') then ascii '0' :: text else text
    c.fill plain [] text
  else if c.kind = ascii 'x' then
    c.fill plain (if c.alternate ∧ n ≠ 0 then bytes "0x" else [])
      (c.digits n (Numeral.hexadecimal n))
  else if c.kind = ascii 'X' then
    c.fill plain (if c.alternate ∧ n ≠ 0 then bytes "0X" else [])
      (c.digits n (capitals (Numeral.hexadecimal n)))
  else c.fill plain [] (c.digits n (Numeral.decimal n))

/-- A magnitude with a fixed number of decimal places. -/
def fixed (c : Conversion) (places num den : Nat) : Bytes :=
  let n := Decimal.roundDiv (num * 10 ^ places) den
  let text := Numeral.decimal n
  let text := List.replicate (places + 1 - text.length) (ascii '0') ++ text
  let whole := text.take (text.length - places)
  if places = 0 then whole ++ (if c.alternate then bytes "." else [])
  else whole ++ bytes "." ++ text.drop (text.length - places)

/-- A magnitude with one digit before the point and an exponent. -/
def scientific (c : Conversion) (places num den : Nat) : Bytes :=
  let (n, exponent) : Nat × Int :=
    if num = 0 then (0, 0) else Decimal.significant (places + 1) num den
  let text := Numeral.decimal n
  let text := text ++ List.replicate (places + 1 - text.length) (ascii '0')
  let point := if places = 0 then (if c.alternate then bytes "." else []) else bytes "."
  text.take 1 ++ point ++ text.drop 1 ++ Decimal.exponentText exponent

/-- A magnitude with a number of significant digits, positional or with an exponent. -/
def general (c : Conversion) (precision num den : Nat) : Bytes :=
  let precision := if precision = 0 then 1 else precision
  let (_, exponent) : Nat × Int :=
    if num = 0 then (0, 0) else Decimal.significant precision num den
  let trimmed (s : Bytes) : Bytes :=
    if c.alternate ∨ ¬s.contains (ascii '.') then s
    else
      let s := Bytes.trimEnd (· == ascii '0') s
      Bytes.trimEnd (· == ascii '.') s
  if exponent < -4 ∨ (precision : Int) ≤ exponent then
    let s := c.scientific (precision - 1) num den
    let mantissa := s.takeWhile (· != ascii 'e')
    trimmed mantissa ++ s.drop mantissa.length
  else trimmed (c.fixed (precision - 1 - exponent).toNat num den)

/-- A real number that is a quotient. -/
def real (c : Conversion) (negative : Bool) (num den : Nat) : Bytes :=
  let precision := c.precision.getD 6
  let kind := if ascii 'a' ≤ c.kind then c.kind else c.kind + 32
  let body :=
    if kind = ascii 'f' then c.fixed precision num den
    else if kind = ascii 'e' then c.scientific precision num den
    else c.general precision num den
  c.fill true (c.sign negative) (if c.kind = kind then body else capitals body)

end Conversion

/-! ### Arguments -/

/-- A real number as written: its sign, and its magnitude as a quotient. -/
def readReal (s : Bytes) : Option ((Bool × Nat × Nat) × Bytes) :=
  let s := s.dropWhile Bytes.isSpace
  let (negative, s) := match s with
    | 0x2d :: rest => (true, rest)
    | 0x2b :: rest => (false, rest)
    | s => (false, s)
  let whole := s.takeWhile Bytes.isDigit
  let rest := s.dropWhile Bytes.isDigit
  let (fraction, rest) := match rest with
    | 0x2e :: more => (more.takeWhile Bytes.isDigit, more.dropWhile Bytes.isDigit)
    | rest => ([], rest)
  if whole.isEmpty && fraction.isEmpty then none
  else
    let (exponent, rest) : Int × Bytes := match rest with
      | e :: more =>
        if e = ascii 'e' ∨ e = ascii 'E' then
          match readInteger false more with
          | some (n, tail) =>
            if (more.head?.map Bytes.isSpace).getD true then (0, rest) else (n, tail)
          | none => (0, rest)
        else (0, rest)
      | [] => (0, rest)
    let n := Numeral.value 10 (whole ++ fraction)
    let scale := exponent - fraction.length
    some ((negative, n * 10 ^ scale.toNat, 10 ^ (-scale).toNat), rest)

/-- What a format was used on so far. -/
structure Formatting where
  arguments : List Bytes
  /-- What was printed, last first. -/
  printed : List Bytes := []
  /-- What is to be said about the arguments, last first. -/
  warnings : List Bytes := []
  /-- Whether an escape ended the output. -/
  ended : Bool := false

namespace Formatting

/-- Prints. -/
def print (t : Bytes) (f : Formatting) : Formatting := { f with printed := t :: f.printed }

/-- Takes the next argument. -/
def take (f : Formatting) : Option Bytes × Formatting :=
  (f.arguments.head?, { f with arguments := f.arguments.tail })

/-- Adds a warning about an argument that was read up to `rest`. -/
def judge (argument : Bytes) (rest : Option Bytes) (outside : Bool) (f : Formatting) : Formatting :=
  let warn (text : String) : Formatting :=
    { f with warnings := (argument ++ bytes ": " ++ bytes text) :: f.warnings }
  match rest with
  | none => if argument.isEmpty then f else warn "expected numeric value"
  | some [] => if outside then warn "Numerical result out of range" else f
  | some (_ :: _) => warn "not completely converted"

/-- The next argument as an integer.  After a quote it is the value of a byte. -/
def takeInteger (isSigned : Bool) (f : Formatting) : Int × Formatting :=
  match f.take with
  | (none, f) => (0, f)
  | (some a, f) =>
    match a with
    | q :: rest =>
      if q = ascii '"' ∨ q = ascii '\'' then (((rest.head?.map UInt8.toNat).getD 0 : Nat), f)
      else
        match readInteger true a with
        | none => (0, f.judge a none false)
        | some (n, rest) =>
          let low : Int := if isSigned then -(2 ^ 63) else -(2 ^ 64 - 1)
          let high : Int := if isSigned then 2 ^ 63 - 1 else 2 ^ 64 - 1
          let m := max low (min high n)
          let m := if isSigned then m else m % 2 ^ 64
          (m, f.judge a (some rest) (n < low || high < n))
    | [] => (0, f)

/-- The next argument as a real number. -/
def takeReal (f : Formatting) : (Bool × Nat × Nat) × Formatting :=
  match f.take with
  | (none, f) => ((false, 0, 1), f)
  | (some a, f) =>
    match a with
    | q :: rest =>
      if q = ascii '"' ∨ q = ascii '\'' then ((false, (rest.head?.map UInt8.toNat).getD 0, 1), f)
      else
        match readReal a with
        | none => ((false, 0, 1), f.judge a none false)
        | some (x, rest) => (x, f.judge a (some rest) false)
    | [] => ((false, 0, 1), f)

end Formatting

/-- A width or precision: digits, or a star for the next argument. -/
def readSize (s : Bytes) (f : Formatting) : Option Int × Bytes × Formatting :=
  match s with
  | 0x2a :: rest =>
    let (n, f) := f.takeInteger true
    (some n, rest, f)
  | s =>
    let digits := s.takeWhile Bytes.isDigit
    (if digits.isEmpty then none else some (Numeral.value 10 digits), s.dropWhile Bytes.isDigit, f)

/-- The conversion after a percent sign, and what follows it. -/
def readConversion (s : Bytes) (f : Formatting) : Option (Conversion × Bytes) × Formatting :=
  let isFlag (b : UInt8) : Bool := (bytes "-0+ #").contains b
  let flags := s.takeWhile isFlag
  let (width, rest, f) := readSize (s.dropWhile isFlag) f
  let width := width.getD 0
  let (precision, rest, f) : Option Int × Bytes × Formatting := match rest with
    | 0x2e :: more =>
      let (p, rest, f) := readSize more f
      (some (p.getD 0), rest, f)
    | rest => (none, rest, f)
  match rest with
  | [] => (none, f)
  | kind :: rest =>
    (some ({
      left := flags.contains (ascii '-') || width < 0
      zeros := flags.contains (ascii '0')
      plus := flags.contains (ascii '+')
      space := flags.contains (ascii ' ')
      alternate := flags.contains (ascii '#')
      width := width.natAbs
      precision := (precision.filter (0 ≤ ·)).map Int.toNat
      kind }, rest), f)

/-- Prints the next argument by a conversion; nothing if there is no such conversion. -/
def convert (c : Conversion) (f : Formatting) : Option Formatting :=
  if c.kind = ascii 's' then
    let (a, f) := f.take
    some (f.print (c.text (a.getD [])))
  else if c.kind = ascii 'b' then
    let (a, f) := f.take
    let a := a.getD []
    let (t, ends) := escaped (a.length + 1) a
    some { f.print (c.text t) with ended := !ends }
  else if c.kind = ascii 'c' then
    let (a, f) := f.take
    let t := match a with
      | some (b :: _) => [b]
      | _ => [0]
    some (f.print ({ c with precision := none }.text t))
  else if c.kind = ascii 'd' ∨ c.kind = ascii 'i' then
    let (n, f) := f.takeInteger true
    some (f.print (c.signed n))
  else if (bytes "ouxX").contains c.kind then
    let (n, f) := f.takeInteger false
    some (f.print (c.unsigned n.toNat))
  else if (bytes "eEfFgG").contains c.kind then
    let ((negative, num, den), f) := f.takeReal
    some (f.print (c.real negative num den))
  else none

/-- One use of a format; the failure is what is wrong with the format. -/
def formatOnce : Nat → Bytes → Formatting → Formatting × Option Bytes
  | 0, _, f => (f, none)
  | _ + 1, [], f => (f, none)
  | n + 1, b :: rest, f =>
    if b = ascii '\\' then
      match rest with
      | 0x63 :: _ => formatOnce n rest (f.print [b])
      | rest =>
        let (e, tail) := escapeOf rest
        formatOnce n tail (f.print [e])
    else if b ≠ ascii '%' then
      let plain := rest.takeWhile fun b => b != ascii '\\' && b != ascii '%'
      formatOnce n (rest.drop plain.length) (f.print (b :: plain))
    else if rest.head? = some b then formatOnce n rest.tail (f.print [b])
    else
      match readConversion rest f with
      | (none, f) => (f, some (bytes "missing format character"))
      | (some (c, tail), f) =>
        match convert c f with
        | none =>
          (f, some (b :: rest.take (rest.length - tail.length) ++ bytes ": invalid directive"))
        | some f => if f.ended then (f, none) else formatOnce n tail f

/-- Uses a format until no argument is left, at least once; `n` bounds the further uses. -/
def formatAll : Nat → Bytes → Formatting → Formatting × Option Bytes
  | 0, s, f => formatOnce (s.length + 1) s f
  | n + 1, s, f =>
    match formatOnce (s.length + 1) s f with
    | (g, none) =>
      if g.ended || g.arguments.isEmpty || g.arguments.length == f.arguments.length then (g, none)
      else formatAll n s g
    | failed => failed

/-- What a format prints for its arguments. -/
structure Formatted where
  out : Bytes
  warnings : List Bytes
  /-- What is wrong with the format. -/
  fault : Option Bytes

/-- A format with its arguments. -/
def format (s : Bytes) (args : List Bytes) : Formatted :=
  let (f, fault) := formatAll args.length s { arguments := args }
  ⟨f.printed.reverse.flatten, f.warnings.reverse, fault⟩

end MacroConstants.Shell
