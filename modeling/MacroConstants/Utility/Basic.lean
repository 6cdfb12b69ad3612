import MacroConstants.Bytes.Numeral
import MacroConstants.Machine.Program

/-!
# Utilities

The small programs that scripts call.

* `Utility` — a program as what it does with its arguments.
* `Utility.readOptions` — the options among the arguments, wherever they stand.
* `Utility.input`, `Utility.inputs` — what is read from operands, or from standard input.
-/

namespace MacroConstants

/-- A program: from its arguments to its status. -/
abbrev Utility := List Bytes → Job Nat

namespace Utility

/-- The options that were given, in order, each with its argument. -/
structure Options where
  given : List (Bytes × Bytes) := []
  operands : List Bytes := []
  deriving Repr

namespace Options

/-- Whether an option was given. -/
def has (o : Options) (name : String) : Bool := o.given.any (·.1 == bytes name)

/-- The argument of an option that was given, the last time. -/
def get? (o : Options) (name : String) : Option Bytes :=
  (o.given.reverse.find? (·.1 == bytes name)).map (·.2)

/-- The arguments of an option that was given, in order. -/
def all (o : Options) (name : String) : List Bytes :=
  (o.given.filter (·.1 == bytes name)).map (·.2)

end Options

/-- What a program understands: letters, each with a colon after it if it takes an argument, and
long names with the letters they stand for and whether they take one. -/
structure OptionTable where
  letters : Bytes
  long : List (Bytes × Bytes × Bool)

/-- A table from letters, and long names with letters. -/
def table (letters : String) (long : List (String × String × Bool)) : OptionTable :=
  { letters := bytes letters
    long := long.map fun (name, short, takes) => (bytes name, bytes short, takes) }

/-- Why arguments are not understood. -/
inductive OptionFault where
  | unknownLetter (c : UInt8)
  | unknownName (name : Bytes)
  | missingArgument (c : UInt8)
  deriving DecidableEq, Repr

/-- The wording of a fault. -/
def OptionFault.message : OptionFault → Bytes
  | unknownLetter c => bytes "invalid option -- '" ++ [c] ++ bytes "'"
  | unknownName name => bytes "unrecognized option '--" ++ name ++ bytes "'"
  | missingArgument c => bytes "option requires an argument -- '" ++ [c] ++ bytes "'"

/-- The options in a group of letters. -/
def readLetters (t : OptionTable) : Bytes → List Bytes → Options →
    Except OptionFault (Options × List Bytes)
  | [], args, o => .ok (o, args)
  | c :: rest, args, o =>
    match if c = ascii ':' then none else t.letters.idxOf? c with
    | none => .error (.unknownLetter c)
    | some i =>
      if t.letters[i + 1]? = some (ascii ':') then
        match rest, args with
        | [], [] => .error (.missingArgument c)
        | [], a :: args => .ok ({ o with given := o.given ++ [([c], a)] }, args)
        | rest, args => .ok ({ o with given := o.given ++ [([c], rest)] }, args)
      else readLetters t rest args { o with given := o.given ++ [([c], [])] }

/-- Reads arguments; options may stand after operands, up to a double hyphen. -/
def readFrom (t : OptionTable) : Nat → List Bytes → Options → Except OptionFault Options
  | 0, args, o => .ok { o with operands := o.operands ++ args }
  | _ + 1, [], o => .ok o
  | n + 1, a :: args, o =>
    match a with
    | 0x2d :: 0x2d :: name =>
      if name.isEmpty then .ok { o with operands := o.operands ++ args }
      else
        let key := name.takeWhile (· != ascii '=')
        match t.long.find? fun entry => key.isPrefixOf entry.1 with
        | none => .error (.unknownName name)
        | some (_, short, takes) =>
          match takes, name.drop key.length, args with
          | false, _, args => readFrom t n args { o with given := o.given ++ [(short, [])] }
          | true, _ :: value, args =>
            readFrom t n args { o with given := o.given ++ [(short, value)] }
          | true, [], value :: args =>
            readFrom t n args { o with given := o.given ++ [(short, value)] }
          | true, [], [] => .error (.missingArgument (short.headD 0))
    | 0x2d :: c :: rest =>
      match readLetters t (c :: rest) args o with
      | .error fault => .error fault
      | .ok (o, args) => readFrom t n args o
    | a => readFrom t n args { o with operands := o.operands ++ [a] }

/-- Reads arguments. -/
def readOptions (t : OptionTable) (args : List Bytes) : Except OptionFault Options :=
  readFrom t (args.length + 1) args {}

/-- Says something in the name of a program. -/
def warn (name : String) (text : Bytes) : Job Unit :=
  Job.complain (bytes name ++ bytes ": " ++ text ++ bytes "\n")

/-- Complains, with a hint where help is found. -/
def refuse (name : String) (text : Bytes) : Job Nat := do
  warn name text
  Job.complain (bytes "Try '" ++ bytes name ++ bytes " --help' for more information.\n")
  return 1

/-- Runs a body with the options of the arguments; arguments that are not understood give a
status. -/
def withOptions (name : String) (t : OptionTable) (status : Nat) (args : List Bytes)
    (body : Options → Job Nat) : Job Nat := do
  match readOptions t args with
  | .ok o => body o
  | .error fault =>
    let _ ← refuse name fault.message
    return status

/-- The arguments up to the first operand, and the rest.  An
argument is an operand also if it starts with a hyphen and is taken for one by `isOperand`. -/
def untilOperand (t : OptionTable) (isOperand : Bytes → Bool) : List Bytes → List Bytes × List Bytes
  | [] => ([], [])
  | a :: rest =>
    if a = bytes "--" then ([], rest)
    else if isOperand a then ([], a :: rest)
    else
      match a with
      | 0x2d :: 0x2d :: _ =>
        let (options, operands) := untilOperand t isOperand rest
        (a :: options, operands)
      | 0x2d :: c :: letters =>
        let takes (c : UInt8) : Bool :=
          ((t.letters.idxOf? c).bind fun i => t.letters[i + 1]?) == some (ascii ':')
        let waits := (c :: letters).findIdx? takes == some letters.length
        match waits, rest with
        | true, value :: rest =>
          let (options, operands) := untilOperand t isOperand rest
          (a :: value :: options, operands)
        | _, rest =>
          let (options, operands) := untilOperand t isOperand rest
          (a :: options, operands)
      | _ => ([], a :: rest)

/-- Runs a body with the options in front of the first operand. -/
def withLeadingOptions (name : String) (t : OptionTable) (isOperand : Bytes → Bool)
    (status : Nat) (args : List Bytes) (body : Options → Job Nat) : Job Nat :=
  let (options, operands) := untilOperand t isOperand args
  withOptions name t status options fun o =>
    body { o with operands := o.operands ++ operands }

/-- What an operand holds; a hyphen stands for standard input. -/
def input (operand : Bytes) : Job (Except PathFault Bytes) := do
  if operand = bytes "-" then return ((← Job.takeAll 0).map .ok).getD (.error .missing)
  else Job.readPath operand

/-- What the operands hold, or standard input without any; a fault is reported for each operand that
cannot be read.  The second result says whether all could be. -/
def inputs (name : String) (wording : Bytes → PathFault → Bytes) (operands : List Bytes) :
    Job (List (Bytes × Bytes) × Bool) := do
  let operands := if operands.isEmpty then [bytes "-"] else operands
  let found ← operands.mapM fun operand => do
    match ← input operand with
    | .ok text => return some (operand, text)
    | .error fault =>
      warn name (wording operand fault)
      return none
  return (found.filterMap id, found.all Option.isSome)

/-- The common wording of a fault: the operand, then the fault. -/
def plainWording (operand : Bytes) (fault : PathFault) : Bytes :=
  operand ++ bytes ": " ++ fault.message

/-- The lines of a text, each with its newline, if it has one. -/
def linesOf (s : Bytes) : List Bytes :=
  let parts := s.splitOn (ascii '\n')
  match parts.reverse with
  | [] => []
  | last :: before =>
    before.reverse.map (· ++ bytes "\n") ++ (if last.isEmpty then [] else [last])

/-- The lines of a text without their newlines. -/
def bareLines (s : Bytes) : List Bytes :=
  let parts := s.splitOn (ascii '\n')
  if parts.getLast? = some [] then parts.dropLast else parts

/-- A number in decimal, filled up with blanks in front. -/
def padded (width n : Nat) : Bytes :=
  let digits := Numeral.decimal n
  List.replicate (width - digits.length) (ascii ' ') ++ digits

/-- The natural number that a text denotes. -/
def natural? (s : Bytes) : Option Nat :=
  if !s.isEmpty && s.all Bytes.isDigit then some (Numeral.value 10 s) else none

end Utility

end MacroConstants
