import MacroConstants.Shell.Integer
import MacroConstants.Shell.Reader

/-!
# Integer expressions

Expressions over 64-bit integers with the operators of C, evaluated while they are read.

* `Shell.Arithmetic.Symbol` — numbers, names and operators.
* `Shell.Arithmetic.Calculation` — a computation over the symbols that are left.
* `Shell.evaluate` — the value of an expression and the variables it sets.
-/

namespace MacroConstants.Shell

namespace Arithmetic

/-- A symbol of an expression. -/
inductive Symbol where
  | number (n : Int64)
  | name (name : Bytes)
  | operator (text : Bytes)
  /-- A byte that is none of these; nothing after it is read. -/
  | bad
  deriving DecidableEq, Repr

/-- The operators, longer ones first. -/
def operators : List Bytes :=
  [bytes "<<=", bytes ">>=", bytes "<=", bytes ">=", bytes "==", bytes "!=", bytes "<<", bytes ">>",
   bytes "&&", bytes "||", bytes "+=", bytes "-=", bytes "*=", bytes "/=", bytes "%=", bytes "&=",
   bytes "^=", bytes "|=", bytes "=", bytes "<", bytes ">", bytes "+", bytes "-", bytes "*",
   bytes "/", bytes "%", bytes "&", bytes "^", bytes "|", bytes "!", bytes "~", bytes "(",
   bytes ")", bytes "?", bytes ":"]

/-- A number, cut off at the largest one of 64 bits. -/
def clamp (n : Nat) : Int64 := if n < 2 ^ 63 then Int64.ofNat n else Int64.maxValue

/-- The symbols of a text. -/
def symbols : Nat → Bytes → List Symbol
  | 0, _ => []
  | _ + 1, [] => []
  | n + 1, b :: rest =>
    if Bytes.isBlank b || b == ascii '\n' then symbols n rest
    else if Bytes.isDigit b then
      match readNatural true (b :: rest) with
      | some (value, tail) => .number (clamp value) :: symbols n tail
      | none => [.bad]
    else if isNameStart b then
      .name ((b :: rest).takeWhile Bytes.isWord) :: symbols n ((b :: rest).dropWhile Bytes.isWord)
    else
      match operators.find? (·.isPrefixOf (b :: rest)) with
      | some op => .operator op :: symbols n ((b :: rest).drop op.length)
      | none => [.bad]

/-- Why an expression has no value. -/
inductive Fault where
  /-- The expression is at fault. -/
  | expression (text : Bytes)
  /-- A variable holds no number. -/
  | number (text : Bytes)
  deriving DecidableEq, Repr

/-- What is left of an expression, and the variables. -/
structure Position where
  left : List Symbol
  value? : Bytes → Option Bytes
  /-- The variables that were set, last one first. -/
  assigned : List (Bytes × Int64) := []

/-- A computation over the symbols that are left. -/
abbrev Calculation := ExceptT Fault (StateM Position)

/-- Fails because of the expression. -/
def fail {α : Type} (text : String) : Calculation α := throw (.expression (bytes text))

/-- The next symbol, which stays. -/
def peek : Calculation (Option Symbol) := return (← get).left.head?

/-- Drops a symbol. -/
def drop : Calculation Unit := modify fun p => { p with left := p.left.tail }

/-- Drops an operator, if it is the next symbol. -/
def accept (op : String) : Calculation Bool := do
  if (← peek) = some (.operator (bytes op)) then
    drop
    return true
  else return false

/-- The value of a variable; an unset or empty one is zero. -/
def lookup (name : Bytes) : Calculation Int64 := do
  let p ← get
  match p.assigned.lookup name with
  | some n => return n
  | none =>
    match p.value? name with
    | none => return 0
    | some text =>
      if text.all Bytes.isSpace then return 0
      else
        match word? true text with
        | some n => return Int64.ofInt n
        | none => throw (.number text)

/-- How tightly the two-sided operators bind, tightest first. -/
def levels : List (List Bytes) :=
  [[bytes "*", bytes "/", bytes "%"], [bytes "+", bytes "-"], [bytes "<<", bytes ">>"],
   [bytes "<", bytes "<=", bytes ">", bytes ">="], [bytes "==", bytes "!="], [bytes "&"],
   [bytes "^"], [bytes "|"]]

/-- The level of a two-sided operator. -/
def level? (s : Option Symbol) : Option Nat :=
  match s with
  | some (.operator op) => levels.findIdx? (·.contains op)
  | _ => none

/-- One and zero for true and false. -/
def truth (b : Bool) : Int64 := if b then 1 else 0

/-- The value of a two-sided operator. -/
def binary (op : Bytes) (a b : Int64) : Calculation Int64 := do
  if op = bytes "*" then return a * b
  else if op = bytes "/" then if b = 0 then fail "division by zero" else return a / b
  else if op = bytes "%" then if b = 0 then fail "division by zero" else return a % b
  else if op = bytes "+" then return a + b
  else if op = bytes "-" then return a - b
  else if op = bytes "<<" then return a <<< b
  else if op = bytes ">>" then return a >>> b
  else if op = bytes "<" then return truth (a < b)
  else if op = bytes "<=" then return truth (a ≤ b)
  else if op = bytes ">" then return truth (a > b)
  else if op = bytes ">=" then return truth (a ≥ b)
  else if op = bytes "==" then return truth (a == b)
  else if op = bytes "!=" then return truth (a != b)
  else if op = bytes "&" then return a &&& b
  else if op = bytes "^" then return a ^^^ b
  else return a ||| b

/-- What can be read of an expression; `idle` parts are read but not carried out. -/
inductive Goal where
  | assignment (idle : Bool)
  | conditional (idle : Bool)
  | either (idle : Bool)
  | both (idle : Bool)
  | primary (idle : Bool)
  /-- What follows the left operand `a`, as far as it binds tighter than a level. -/
  | operators (a : Int64) (below : Nat) (idle : Bool)
  deriving DecidableEq, Repr

/-- The operator an assignment carries out first, if its text is an assignment. -/
def assigning? (op : Bytes) : Option Bytes :=
  if op = bytes "=" then some []
  else
    let comparisons := [bytes "==", bytes "!=", bytes "<=", bytes ">="]
    if op.getLast? = some (ascii '=') ∧ ¬comparisons.contains op then some op.dropLast else none

variable (self : Goal → Calculation Int64)

/-- An assignment, or an expression that is none. -/
def assignment (idle : Bool) : Calculation Int64 := do
  match (← get).left with
  | .name name :: .operator op :: rest =>
    match assigning? op with
    | none => self (.conditional idle)
    | some op =>
      modify fun p => { p with left := rest }
      let result ← self (.assignment idle)
      if idle then return result
      else
        let result ← if op.isEmpty then pure result else binary op (← lookup name) result
        modify fun p => { p with assigned := (name, result) :: p.assigned }
        return result
  | _ => self (.conditional idle)

/-- A choice between two expressions. -/
def conditional (idle : Bool) : Calculation Int64 := do
  let a ← self (.either idle)
  if ← accept "?" then
    let b ← self (.assignment (idle || a == 0))
    if ← accept ":" then
      let c ← self (.conditional (idle || a != 0))
      return if a != 0 then b else c
    else fail "expecting ':'"
  else return a

/-- A disjunction. -/
def either (idle : Bool) : Calculation Int64 := do
  let a ← self (.both idle)
  if ← accept "||" then
    let b ← self (.either (idle || a != 0))
    return truth (a != 0 || b != 0)
  else return a

/-- A conjunction. -/
def both (idle : Bool) : Calculation Int64 := do
  let first ← self (.primary idle)
  let a ← match level? (← peek) with
    | some _ => self (.operators first levels.length idle)
    | none => pure first
  if ← accept "&&" then
    let b ← self (.both (idle || a == 0))
    return truth (a != 0 && b != 0)
  else return a

/-- A number, a variable, a sign or parentheses. -/
def primary (idle : Bool) : Calculation Int64 := do
  match ← peek with
  | some (.number n) =>
    drop
    return n
  | some (.name name) =>
    drop
    if idle then return 0 else lookup name
  | some (.operator op) =>
    if op = bytes "(" then
      drop
      let a ← self (.assignment idle)
      if ← accept ")" then return a else fail "expecting ')'"
    else if op = bytes "+" then
      drop
      self (.primary idle)
    else if op = bytes "-" then
      drop
      return -(← self (.primary idle))
    else if op = bytes "!" then
      drop
      return truth ((← self (.primary idle)) == 0)
    else if op = bytes "~" then
      drop
      return ~~~(← self (.primary idle))
    else fail "expecting primary"
  | _ => fail "expecting primary"

/-- The operators after a left operand. -/
def operatorsFrom (a : Int64) (below : Nat) (idle : Bool) : Calculation Int64 := do
  match ← peek with
  | some (.operator op) =>
    match level? (some (.operator op)) with
    | none => return a
    | some level =>
      drop
      let b ← self (.primary idle)
      let b ← match level? (← peek) with
        | some next => if next < level then self (.operators b level idle) else pure b
        | none => pure b
      let a ← if idle then pure b else binary op a b
      match level? (← peek) with
      | some next => if next < below then self (.operators a below idle) else return a
      | none => return a
  | _ => return a

/-- One step towards a goal. -/
def step : Goal → Calculation Int64
  | .assignment idle => assignment self idle
  | .conditional idle => conditional self idle
  | .either idle => either self idle
  | .both idle => both self idle
  | .primary idle => primary self idle
  | .operators a below idle => operatorsFrom self a below idle

/-- Works towards a goal, with at most `n` levels of nesting. -/
def work : Nat → Goal → Calculation Int64
  | 0, _ => fail "expecting primary"
  | n + 1, goal => step (work n) goal

end Arithmetic

/-- The value of an expression and the variables it sets, in order. -/
def evaluate (value? : Bytes → Option Bytes) (expression : Bytes) :
    Except Arithmetic.Fault Int64 × List (Bytes × Int64) :=
  let symbols := Arithmetic.symbols (expression.length + 1) expression
  let whole : Arithmetic.Calculation Int64 := do
    let n ← Arithmetic.work (8 * symbols.length + 8) (.assignment false)
    if (← Arithmetic.peek).isSome then Arithmetic.fail "expecting EOF" else return n
  let (result, p) := whole.run.run { left := symbols, value? }
  (result, p.assigned.reverse)

end MacroConstants.Shell
