import MacroConstants.Shell.Format
import MacroConstants.Utility.Basic

/-!
# Utilities on their arguments

* `Utility.echo`, `Utility.printf` — arguments printed.
* `Utility.basename`, `Utility.dirname` — parts of paths.
* `Utility.seq` — numbers in steps.
* `Utility.sleep` — nothing, after a look at the arguments.
-/

namespace MacroConstants.Utility

/-! ### Printing -/

/-- Whether an argument is a group of options of `echo`. -/
def isEchoOption : Bytes → Bool
  | 0x2d :: c :: cs => (c :: cs).all (bytes "neE").contains
  | _ => false

/-- The texts of arguments with their escapes carried out, up to one that ends the output. -/
def escapedWords : List Bytes → Bytes × Bool
  | [] => ([], true)
  | a :: rest =>
    let (t, ends) := Shell.escaped (a.length + 1) a
    match ends, rest with
    | false, _ => (t, false)
    | true, [] => (t, true)
    | true, rest =>
      let (more, ends) := escapedWords rest
      (t ++ bytes " " ++ more, ends)

/-- Prints its arguments. -/
def echo : Utility := fun args => do
  let options := args.takeWhile isEchoOption
  let words := args.drop options.length
  let letters := options.flatten
  let carriesOut := ((letters.filter fun c => c == ascii 'e' || c == ascii 'E').getLast?) ==
    some (ascii 'e')
  let newline := if letters.contains (ascii 'n') then [] else bytes "\n"
  if carriesOut then
    let (t, ends) := escapedWords words
    Job.say (if ends then t ++ newline else t)
  else Job.say ((bytes " ").intercalate words ++ newline)
  return 0

/-- Prints by a format. -/
def printf : Utility := fun args => do
  match args with
  | [] => refuse "printf" (bytes "missing operand")
  | f :: args =>
    let formatted := Shell.format f args
    formatted.warnings.forM (warn "printf")
    Job.say formatted.out
    match formatted.fault with
    | some text => warn "printf" text
    | none => pure ()
    return if formatted.warnings.isEmpty && formatted.fault.isNone then 0 else 1

/-! ### Paths -/

/-- A path without the slashes at its end. -/
def withoutSlashes (path : Bytes) : Bytes := Bytes.trimEnd (· == ascii '/') path

/-- The last name of a path. -/
def lastName (path : Bytes) : Bytes :=
  let names := withoutSlashes path
  if names.isEmpty && !path.isEmpty then bytes "/"
  else (names.reverse.takeWhile (· != ascii '/')).reverse

/-- A name without an ending, unless that is all of it. -/
def withoutSuffix (suffix name : Bytes) : Bytes :=
  if suffix.isSuffixOf name && suffix != name then name.take (name.length - suffix.length) else name

/-- A path without its last name. -/
def directoryName (path : Bytes) : Bytes :=
  let names := withoutSlashes path
  if names.isEmpty then (if path.isEmpty then bytes "." else bytes "/")
  else if !names.contains (ascii '/') then bytes "."
  else
    let above := withoutSlashes (names.reverse.dropWhile (· != ascii '/')).reverse
    if above.isEmpty then bytes "/" else above

/-- The last names of paths. -/
def basename : Utility := fun args =>
  let long := [("multiple", "a", false), ("suffix", "s", true), ("zero", "z", false)]
  withLeadingOptions "basename" (table "as:z" long) (fun _ => false) 1 args fun o => do
    let close := if o.has "z" then [0] else bytes "\n"
    if o.operands.isEmpty then refuse "basename" (bytes "missing operand")
    else if o.has "a" || o.has "s" then
      let suffix := (o.get? "s").getD []
      o.operands.forM fun path => Job.say (withoutSuffix suffix (lastName path) ++ close)
      return 0
    else
      match o.operands with
      | _ :: _ :: extra :: _ =>
        refuse "basename" (bytes "extra operand '" ++ extra ++ bytes "'")
      | operands =>
        Job.say (withoutSuffix ((operands[1]?).getD []) (lastName (operands.headD [])) ++ close)
        return 0

/-- Paths without their last names. -/
def dirname : Utility := fun args =>
  withOptions "dirname" (table "z" [("zero", "z", false)]) 1 args fun o => do
    if o.operands.isEmpty then refuse "dirname" (bytes "missing operand")
    else
      let close := if o.has "z" then [0] else bytes "\n"
      o.operands.forM fun path => Job.say (directoryName path ++ close)
      return 0

/-! ### Numbers -/

/-- A decimal fraction: its digits as an integer, and how many of them stand after the point. -/
structure Fraction where
  digits : Int
  places : Nat
  deriving DecidableEq, Repr

/-- The fraction a text denotes. -/
def Fraction.read (s : Bytes) : Option Fraction :=
  let (negative, s) := match s with
    | 0x2d :: rest => (true, rest)
    | 0x2b :: rest => (false, rest)
    | s => (false, s)
  let whole := s.takeWhile Bytes.isDigit
  let rest := s.drop whole.length
  let places := if rest.head? = some (ascii '.') then rest.tail else []
  if (whole ++ places).isEmpty || !places.all Bytes.isDigit then none
  else if !rest.isEmpty && rest.head? != some (ascii '.') then none
  else
    let n : Int := Numeral.value 10 (whole ++ places)
    some ⟨if negative then -n else n, places.length⟩

/-- The digits of a fraction with that many places after the point. -/
def Fraction.scaled (f : Fraction) (places : Nat) : Int := f.digits * 10 ^ (places - f.places)

/-- An integer with the last digits after a point. -/
def pointed (places : Nat) (n : Int) : Bytes :=
  let digits := Numeral.decimal n.natAbs
  let digits := List.replicate (places + 1 - digits.length) (ascii '0') ++ digits
  let whole := digits.take (digits.length - places)
  (if n < 0 then bytes "-" else []) ++ whole
    ++ (if places = 0 then [] else bytes "." ++ digits.drop whole.length)

/-- A number filled up with zeros after its sign. -/
def zeroFilled (width : Nat) (s : Bytes) : Bytes :=
  let zeros := List.replicate (width - s.length) (ascii '0')
  match s with
  | 0x2d :: rest => 0x2d :: zeros ++ rest
  | s => zeros ++ s

/-- Numbers from a first one in steps up to a last one. -/
def steps (first step last : Int) : List Int :=
  if 0 < step then
    (List.range ((last - first) / step + 1).toNat).map fun (i : Nat) => first + step * i
  else if step < 0 then
    (List.range ((first - last) / -step + 1).toNat).map fun (i : Nat) => first + step * i
  else []

/-- Whether an argument is a number with a minus sign. -/
def isNegative : Bytes → Bool
  | 0x2d :: c :: _ => Bytes.isDigit c || c == ascii '.'
  | _ => false

/-- Prints numbers in steps. -/
def seq : Utility := fun args =>
  let long := [("separator", "s", true), ("equal-width", "w", false), ("format", "f", true)]
  withLeadingOptions "seq" (table "s:wf:" long) isNegative 1 args fun o => do
    let operands := o.operands
    match operands.find? fun a => (Fraction.read a).isNone, operands.filterMap Fraction.read with
    | some a, _ => refuse "seq" (bytes "invalid floating point argument: '" ++ a ++ bytes "'")
    | none, [last] => print o ⟨1, 0⟩ ⟨1, 0⟩ last
    | none, [first, last] => print o first ⟨1, 0⟩ last
    | none, [first, step, last] =>
      if step.digits = 0 then
        refuse "seq"
          (bytes "invalid Zero increment value: '" ++ (operands[1]?).getD [] ++ bytes "'")
      else print o first step last
    | none, [] => refuse "seq" (bytes "missing operand")
    | none, _ => refuse "seq" (bytes "extra operand '" ++ (operands[3]?).getD [] ++ bytes "'")
where
  /-- Prints the numbers. -/
  print (o : Options) (first step last : Fraction) : Job Nat := do
    let places := max first.places step.places
    let finest := max places last.places
    let limit := last.scaled finest / 10 ^ (finest - places)
    let numbers := (steps (first.scaled places) (step.scaled places) limit).map (pointed places)
    let width := if o.has "w" then (numbers.map List.length).foldl max 0 else 0
    let shown := match o.get? "f" with
      | some f => numbers.map fun n => (Shell.format f [n]).out
      | none => numbers.map (zeroFilled width)
    if !shown.isEmpty then
      Job.say (((o.get? "s").getD (bytes "\n")).intercalate shown ++ bytes "\n")
    return 0

/-! ### Time -/

/-- Looks at a time to wait for; nothing is waited for. -/
def sleep : Utility := fun args =>
  withOptions "sleep" (table "" []) 1 args fun o => do
    let isTime (a : Bytes) : Bool :=
      let unit := (bytes "smhd").contains (a.getLast?.getD 0)
      ((Fraction.read (if unit then a.dropLast else a)).filter (0 ≤ ·.digits)).isSome
    if o.operands.isEmpty then refuse "sleep" (bytes "missing operand")
    else
      match o.operands.filter (!isTime ·) with
      | [] => return 0
      | wrong =>
        wrong.forM fun a => warn "sleep" (bytes "invalid time interval '" ++ a ++ bytes "'")
        Job.complain (bytes "Try 'sleep --help' for more information.\n")
        return 1

end MacroConstants.Utility
