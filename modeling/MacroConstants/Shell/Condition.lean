import MacroConstants.Machine.Process
import MacroConstants.Shell.Integer

/-!
# Conditions

The arguments of a test command as an expression over texts, numbers and files.

* `Shell.Condition.Kind` — what an argument is taken for.
* `Shell.Condition.evaluate` — whether a condition holds, or why that cannot be said.
-/

namespace MacroConstants.Shell.Condition

/-- What an argument is taken for. -/
inductive Kind where
  /-- An operator before its operand. -/
  | unary
  /-- An operator between its operands. -/
  | binary
  | negation
  | conjunction
  | disjunction
  | opening
  | closing
  | operand
  /-- There is no argument. -/
  | finish
  deriving DecidableEq, Repr

/-- The operators before an operand. -/
def unaryOperators : List Bytes :=
  ["-r", "-w", "-x", "-e", "-f", "-d", "-c", "-b", "-p", "-u", "-g", "-k", "-s", "-t", "-z", "-n",
   "-h", "-O", "-G", "-L", "-S"].map bytes

/-- The operators between operands. -/
def binaryOperators : List Bytes :=
  ["=", "!=", "<", ">", "-eq", "-ne", "-ge", "-gt", "-le", "-lt", "-nt", "-ot", "-ef"].map bytes

/-- The operator a text is. -/
def operator? (s : Bytes) : Option Kind :=
  if unaryOperators.contains s then some .unary
  else if binaryOperators.contains s then some .binary
  else
    [(bytes "!", Kind.negation), (bytes "-a", .conjunction), (bytes "-o", .disjunction),
     (bytes "(", .opening), (bytes ")", .closing)].lookup s

/-- What is asked of files. -/
structure Files where
  /-- What a path leads to. -/
  node? : Bytes → Option Node
  /-- The size of the file a path leads to. -/
  size : Bytes → Nat

/-- The arguments, and the place of the one looked at. -/
structure Position where
  args : Array Bytes
  place : Nat := 0

/-- A computation over the arguments; its failure is what is wrong with them. -/
abbrev Reading := ExceptT Bytes (StateM Position)

/-- The argument at a distance from the place. -/
def argument? (distance : Nat) : Reading (Option Bytes) := do
  let p ← get
  return p.args[p.place + distance]?

/-- Moves on. -/
def move (n : Nat) : Reading Unit := modify fun p => { p with place := p.place + n }

/-- What the argument at a distance is taken for.  An operator before which no operand can follow
is an operand itself. -/
def kind (distance : Nat) : Reading Kind := do
  match ← argument? distance with
  | none => return .finish
  | some s =>
    match operator? s with
    | none => return .operand
    | some .unary =>
      match ← argument? (distance + 1), ← argument? (distance + 2) with
      | none, _ => return .operand
      | some _, none => return .unary
      | some next, some _ => return if operator? next = some .binary then .operand else .unary
    | some .opening =>
      return if (← argument? (distance + 1)).isNone then .operand else .opening
    | some k => return k

/-- The number an argument denotes. -/
def number (s : Bytes) : Reading Int := do
  match word? false s with
  | some n => return n
  | none => throw (bytes "Illegal number: " ++ s)

/-- Whether an operator before an operand holds. -/
def unaryHolds (files : Files) (op operand : Bytes) : Reading Bool := do
  let node := files.node? operand
  if op = bytes "-n" then return !operand.isEmpty
  else if op = bytes "-z" then return operand.isEmpty
  else if op = bytes "-t" then
    let _ ← number operand
    return false
  else if op = bytes "-f" then
    return match node with
      | some (.file _ _) | some (.program _) => true
      | _ => false
  else if op = bytes "-d" then return node == some .directory
  else if op = bytes "-c" then
    return match node with
      | some .null | some (.descriptor _) => true
      | _ => false
  else if op = bytes "-x" then
    return match node with
      | some (.file _ executable) => executable
      | some .directory | some (.program _) => true
      | _ => false
  else if op = bytes "-s" then
    return match node with
      | some (.file _ _) => 0 < files.size operand
      | some .directory | some (.program _) => true
      | _ => false
  else if op = bytes "-r" ∨ op = bytes "-w" ∨ op = bytes "-e" ∨ op = bytes "-O" ∨
      op = bytes "-G" then
    return node.isSome
  else return false

/-- Whether an operator between two operands holds. -/
def binaryHolds (files : Files) (a op b : Bytes) : Reading Bool := do
  let number' (compare : Int → Int → Bool) : Reading Bool := do
    let m ← number a
    let n ← number b
    return compare m n
  if op = bytes "=" then return a == b
  else if op = bytes "!=" then return a != b
  else if op = bytes "<" then return FileSystem.before a b && a != b
  else if op = bytes ">" then return FileSystem.before b a && a != b
  else if op = bytes "-eq" then number' (· == ·)
  else if op = bytes "-ne" then number' (· != ·)
  else if op = bytes "-lt" then number' fun m n => m < n
  else if op = bytes "-le" then number' fun m n => m ≤ n
  else if op = bytes "-gt" then number' fun m n => m > n
  else if op = bytes "-ge" then number' fun m n => m ≥ n
  else if op = bytes "-ef" then
    return match files.node? a, files.node? b with
      | some (.file m _), some (.file n _) => m == n
      | _, _ => false
  else return false

/-- What can be read of a condition, given what the argument at the place is taken for. -/
inductive Goal where
  | disjunction (k : Kind)
  | conjunction (k : Kind)
  | negation (k : Kind)
  deriving DecidableEq, Repr

section

variable (files : Files) (self : Goal → Reading Bool)

/-- A comparison of the argument at the place. -/
def comparison (a : Bytes) : Reading Bool := do
  let op := (← argument? 1).getD []
  match ← argument? 2 with
  | none => throw (op ++ bytes ": argument expected")
  | some b =>
    move 2
    binaryHolds files a op b

/-- A condition without connectives. -/
def primary (k : Kind) : Reading Bool := do
  match k with
  | .finish => return false
  | .opening =>
    move 1
    let k ← kind 0
    if k = .closing then return false
    else
      let holds ← self (.disjunction k)
      move 1
      if (← kind 0) = .closing then return holds else throw (bytes "closing paren expected")
  | .unary =>
    let op := (← argument? 0).getD []
    move 1
    match ← argument? 0 with
    | none => throw (op ++ bytes ": argument expected")
    | some operand => unaryHolds files op operand
  | _ =>
    match ← argument? 0 with
    | none => return false
    | some a => if (← kind 1) = .binary then comparison files a else return !a.isEmpty

/-- One step towards a goal. -/
def step : Goal → Reading Bool
  | .disjunction k => do
    let first ← self (.conjunction k)
    if (← kind 1) = .disjunction then
      move 2
      let more ← self (.disjunction (← kind 0))
      return first || more
    else return first
  | .conjunction k => do
    let first ← self (.negation k)
    if (← kind 1) = .conjunction then
      move 2
      let more ← self (.conjunction (← kind 0))
      return first && more
    else return first
  | .negation k => do
    if k = .negation then
      let k ← kind 1
      if k ≠ .finish then move 1
      return !(← self (.negation k))
    else primary files self k

end

/-- Works towards a goal, with at most `n` levels of nesting. -/
def work (files : Files) : Nat → Goal → Reading Bool
  | 0, _ => return false
  | n + 1, goal => step files (work files n) goal

/-- Whether arguments from the place on hold, once their number has been looked at. -/
def whole (files : Files) (k : Kind) (limit : Nat) : Reading Bool := do
  let holds ← work files limit (.disjunction k)
  match ← argument? 0, ← argument? 1 with
  | some last, some _ => throw (last ++ bytes ": unexpected operator")
  | _, _ => return holds

/-- Whether the arguments of a test command hold.  Three arguments with an operator in the middle
are a comparison; of four a negation is looked at first. -/
def evaluate (files : Files) : Nat → List Bytes → Except Bytes Bool
  | 0, _ => .ok false
  | n + 1, args =>
    let run (args : List Bytes) (body : Reading Bool) : Except Bytes Bool :=
      (body.run.run { args := args.toArray }).1
    let limit := 8 * args.length + 8
    let rest (args : List Bytes) : Except Bytes Bool :=
      run args do whole files (← kind 0) limit
    let parenthesised := args.head? == some (bytes "(") && args.getLast? == some (bytes ")")
    match args with
    | [] => .ok false
    | [a, op, b] =>
      if operator? op = some .binary then run [a, op, b] (whole files .operand limit)
      else if parenthesised then rest [op]
      else if a = bytes "!" then (evaluate files n [op, b]).map (!·)
      else rest args
    | [a, b, c, d] =>
      if parenthesised then rest [b, c]
      else if a = bytes "!" then (evaluate files n [b, c, d]).map (!·)
      else rest args
    | args => rest args

end MacroConstants.Shell.Condition
