import MacroConstants.Machine.Program
import MacroConstants.Utility.Words

/-!
# Utilities that run other programs

* `Utility.env`, `Utility.printenv` — the environment, changed for a program, or printed.
* `Utility.xargs` — a program with arguments from standard input.
* `Utility.pwd` — the working directory.
-/

namespace MacroConstants.Utility

/-- The path of a place. -/
def pathOf (p : Path) : Bytes := if p.isEmpty then bytes "/" else p.flatMap (bytes "/" ++ ·)

/-- Prints the working directory. -/
def pwd : Utility := fun _ => do
  Job.say (pathOf (← read).directory ++ bytes "\n")
  return 0

/-- A variable as it is printed. -/
def variableLine (v : Bytes × Bytes) : Bytes := v.1 ++ bytes "=" ++ v.2 ++ bytes "\n"

/-- Prints the values of variables, or the whole environment. -/
def printenv : Utility := fun args =>
  withOptions "printenv" (table "0" []) 2 args fun o => do
    let environment := (← read).environment
    if o.operands.isEmpty then
      environment.forM fun v => Job.say (variableLine v)
      return 0
    else
      let values := o.operands.map fun name => environment.lookup name
      values.forM fun value => value.forM fun v => Job.say (v ++ bytes "\n")
      return if values.all Option.isSome then 0 else 1

/-- A name and a value around an equals sign. -/
def assignment? (s : Bytes) : Option (Bytes × Bytes) :=
  let name := s.takeWhile (· != ascii '=')
  match s.drop name.length with
  | _ :: value => some (name, value)
  | [] => none

/-- An environment with one more variable. -/
def withVariable (environment : List (Bytes × Bytes)) (v : Bytes × Bytes) : List (Bytes × Bytes) :=
  if environment.any (·.1 == v.1) then environment.map fun w => if w.1 == v.1 then v else w
  else environment ++ [v]

/-- Runs a program in a changed environment, or prints that environment. -/
def env (launch : Launcher) (args : List Bytes) : Job ExitStatus := do
  let t := table "iu:0v" [("ignore-environment", "i", false), ("unset", "u", true)]
  let (options, operands) := untilOperand t (fun _ => false) args
  let emptied := operands.head? == some (bytes "-")
  let operands := if emptied then operands.tail else operands
  match readOptions t options with
  | .error fault =>
    let _ ← refuse "env" fault.message
    return .status 125
  | .ok o =>
    let operands := o.operands ++ operands
    let assignments := operands.takeWhile fun a => (assignment? a).isSome
    let whole := (← read).environment
    let base := if o.has "i" || emptied then [] else whole
    let base := base.filter fun v => !(o.all "u").contains v.1
    let environment := (assignments.filterMap assignment?).foldl withVariable base
    match operands.drop assignments.length with
    | [] =>
      environment.forM fun v => Job.say (variableLine v)
      return .status 0
    | name :: args =>
      withReader (fun p => { p with environment }) do
        match ← startCommand launch name args with
        | .ok ended => return ended
        | .error fault =>
          warn "env" (bytes "'" ++ name ++ bytes "': " ++ fault.message)
          return .status (if fault == .missing || fault == .notDirectory then 127 else 126)

/-! ### Arguments from standard input -/

/-- The items of a text: words between white space, with quotes and backslashes.  A quote that is
not closed ends them. -/
def items : Nat → Bytes → Option Bytes → List Bytes × Option UInt8
  | 0, _, word | _, [], word => (word.toList, none)
  | n + 1, b :: rest, word =>
    if b = ascii '\'' ∨ b = ascii '"' then
      let inside := rest.takeWhile fun c => c != b && c != ascii '\n'
      match rest.drop inside.length with
      | c :: rest =>
        if c = b then items n rest (some (word.getD [] ++ inside)) else ([], some b)
      | [] => ([], some b)
    else if b = ascii '\\' then
      match rest with
      | c :: rest => items n rest (some (word.getD [] ++ [c]))
      | [] => (word.toList, none)
    else if Bytes.isSpace b then
      let (more, quote) := items n rest none
      (word.toList ++ more, quote)
    else items n rest (some (word.getD [] ++ [b]))

/-- The items that options ask for, and a quote that is not closed. -/
def itemsFor (o : Options) (text : Bytes) : List Bytes × Option UInt8 :=
  let delimiter := if o.has "0" then some 0
    else (o.get? "d").bind fun d => if d = bytes "\\n" then some (ascii '\n') else d.head?
  match delimiter, o.has "I" with
  | some b, _ =>
    let parts := text.splitOn b
    (if parts.getLast? = some [] then parts.dropLast else parts, none)
  | none, true =>
    let lines := (bareLines text).map (Bytes.trimStart Bytes.isBlank)
    (lines.filter (!·.isEmpty), none)
  | none, false => items (text.length + 1) text none

/-- A list cut into pieces of a length. -/
def chunks {α : Type} (size : Nat) : Nat → List α → List (List α)
  | 0, _ | _, [] => []
  | n + 1, xs => xs.take size :: chunks size n (xs.drop size)

/-- A text with a word replaced by another wherever it stands. -/
def replaceAll (word value : Bytes) : Nat → Bytes → Bytes
  | 0, s => s
  | _, [] => []
  | n + 1, b :: s =>
    if word.isEmpty then b :: s
    else
      match word.isPrefixOf? (b :: s) with
      | some rest => value ++ replaceAll word value n rest
      | none => b :: replaceAll word value n s

/-- Runs command lines until one of them ends all. -/
def runLines (launch : Launcher) (name : Bytes) : List (List Bytes) → Nat → Job Nat
  | [], status => return status
  | args :: more, status => do
    match ← startCommand launch name args with
    | .ok (.status 0) => runLines launch name more status
    | .ok (.status 255) =>
      warn "xargs" (name ++ bytes ": exited with status 255; aborting")
      return 124
    | .ok (.status _) => runLines launch name more 123
    | .ok (.signal n) =>
      warn "xargs" (name ++ bytes ": terminated by signal " ++ Numeral.decimal n)
      return 125
    | .error fault =>
      warn "xargs" (name ++ bytes ": " ++ fault.message)
      return if fault == .missing || fault == .notDirectory then 127 else 126

/-- Runs a program with items from standard input as its arguments. -/
def xargs (launch : Launcher) : Utility := fun args =>
  let t := table "0n:I:L:rtd:P:s:x" [("null", "0", false), ("max-args", "n", true),
    ("no-run-if-empty", "r", false), ("delimiter", "d", true), ("verbose", "t", false)]
  withLeadingOptions "xargs" t (fun _ => false) 1 args fun o => do
    let text := (← Job.takeAll 0).getD []
    let (found, quote) := itemsFor o text
    let name := o.operands.headD (bytes "echo")
    let first := o.operands.tail
    let lines := match o.get? "I" with
      | some word => found.map fun item => first.map fun a => replaceAll word item a.length a
      | none =>
        let size := ((o.get? "n").bind natural?).getD (max 1 found.length)
        let groups := chunks size found.length found
        let groups := if groups.isEmpty && !o.has "r" then [[]] else groups
        groups.map (first ++ ·)
    match quote with
    | some q =>
      let kind := if q = ascii '"' then "double" else "single"
      warn "xargs" (bytes ("unmatched " ++ kind ++ " quote; by default quotes are special to xargs "
        ++ "unless you use the -0 option"))
    | none => pure ()
    if o.has "t" then
      lines.forM fun args => Job.complain ((bytes " ").intercalate (name :: args) ++ bytes "\n")
    let (nothing, files) := (← get).addOpen { channel := .null, reads := true }
    set files
    let status ← withReader (fun p =>
      { p with descriptors := (0, nothing) :: p.descriptors.filter (·.1 != 0) })
      (runLines launch name lines 0)
    return if quote.isSome then 1 else status

end MacroConstants.Utility
