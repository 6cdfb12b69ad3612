import MacroConstants.Shell.Condition
import MacroConstants.Shell.Format
import MacroConstants.Shell.State

/-!
# Built-in commands that print, and conditions

* `Shell.options` — the options in front of the arguments of a command.
* `Shell.echo`, `Shell.printf` — words and formats.
* `Shell.test` — conditions.
-/

namespace MacroConstants.Shell

/-- A built-in command: from its arguments to its status. -/
abbrev Builtin := List Bytes → Action Nat

/-- An option and its argument. -/
abbrev Flag := UInt8 × Bytes

/-- The options in a group of letters, with what is left of the arguments.  Letters with a colon
after them take an argument. -/
def optionGroup (allowed : Bytes) : Bytes → List Bytes → List Flag →
    Action (List Flag × List Bytes)
  | [], args, found => return (found, args)
  | c :: rest, args, found => do
    match allowed.idxOf? c with
    | none => fail (bytes "Illegal option -" ++ [c])
    | some i =>
      if c = ascii ':' then fail (bytes "Illegal option -" ++ [c])
      else if allowed[i + 1]? = some (ascii ':') then
        match rest, args with
        | [], [] => fail (bytes "No arg for -" ++ [c] ++ bytes " option")
        | [], a :: args => return ((c, a) :: found, args)
        | rest, args => return ((c, rest) :: found, args)
      else optionGroup allowed rest args ((c, []) :: found)

/-- The options in front of arguments, and the arguments after them. -/
def optionsFrom (allowed : Bytes) : Nat → List Bytes → List Flag →
    Action (List Flag × List Bytes)
  | 0, args, found => return (found.reverse, args)
  | n + 1, args, found => do
    match args with
    | (0x2d :: c :: letters) :: rest =>
      if c = ascii '-' ∧ letters.isEmpty then return (found.reverse, rest)
      else
        let (found, rest) ← optionGroup allowed (c :: letters) rest found
        optionsFrom allowed n rest found
    | args => return (found.reverse, args)

/-- The options in front of arguments, and the arguments after them; `--` ends the options. -/
def options (allowed : String) (args : List Bytes) : Action (List Flag × List Bytes) :=
  optionsFrom (bytes allowed) args.length args []

/-- The number an argument has to be. -/
def numberArgument (s : Bytes) : Action Nat := do
  match count? s with
  | some n => return n
  | none => fail (bytes "Illegal number: " ++ s)

/-! ### Printing -/

/-- The texts of arguments with blanks between them and a newline at the end.  The newline is left
out after `marks`, which are the option for that and escapes that end an argument; at the second
mark the output ends. -/
def echoed : Nat → List Bytes → Bytes
  | _, [] => []
  | marks, a :: args =>
    let (t, ends) := escaped (a.length + 1) a
    let marks := if ends then marks else marks + 1
    match args with
    | [] => t ++ (if marks = 0 then bytes "\n" else [])
    | args => t ++ (if marks ≤ 1 then bytes " " ++ echoed marks args else [])

/-- Prints its arguments. -/
def echo : Builtin := fun args => do
  match args with
  | [] => say (bytes "\n")
  | first :: rest =>
    if first = bytes "-n" then say (echoed 1 rest) else say (echoed 0 (first :: rest))
  return 0

/-- Prints by a format. -/
def printf : Builtin := fun args => do
  let (_, args) ← options "" args
  match args with
  | [] => fail (bytes "usage: printf format [arg ...]")
  | f :: args =>
    let formatted := format f args
    formatted.warnings.forM complain
    match formatted.fault with
    | some text =>
      complain text
      say formatted.out
      setStatus 2
      throw .failure
    | none =>
      say formatted.out
      return if formatted.warnings.isEmpty then 0 else 1

/-! ### Conditions -/

/-- Tests a condition; in brackets the last argument closes them. -/
def test (brackets : Bool) : Builtin := fun args => do
  if brackets && args.getLast? != some (bytes "]") then fail (bytes "missing ]")
  else
    let args := if brackets then args.dropLast else args
    let s ← get
    let files : Condition.Files :=
      { node? := fun path => (s.files.find s.directory path).toOption.map (·.2)
        size := fun path => ((s.files.readPath s.directory path).toOption.map List.length).getD 0 }
    match Condition.evaluate files (args.length + 1) args with
    | .ok holds => return if holds then 0 else 1
    | .error text => fail text

end MacroConstants.Shell
