import MacroConstants.Shell.Integer
import MacroConstants.Utility.Basic
import MacroConstants.Utility.Regex.Reader

/-!
# Expressions on the command line

Arguments are read as an expression over texts and integers, weakest operators first.

* `Utility.Expr.evaluate` — the value of the arguments.
* `Utility.expr` — prints that value.
-/

namespace MacroConstants.Utility.Expr

/-- Why arguments have no value. -/
inductive Fault where
  /-- An argument is missing after another one, if there is one. -/
  | missing (after : Bytes)
  | unexpected (argument : Bytes)
  | unexpectedClose
  | unclosed (after : Bytes)
  | noInteger
  | divisionByZero
  | expression (fault : Regex.Fault)
  deriving DecidableEq, Repr

/-- The wording of a fault. -/
def Fault.message : Fault → Bytes
  | missing after => bytes "syntax error: missing argument after '" ++ after ++ bytes "'"
  | unexpected argument => bytes "syntax error: unexpected argument '" ++ argument ++ bytes "'"
  | unexpectedClose => bytes "syntax error: unexpected ')'"
  | unclosed after => bytes "syntax error: expecting ')' after '" ++ after ++ bytes "'"
  | noInteger => bytes "non-integer argument"
  | divisionByZero => bytes "division by zero"
  | expression fault => fault.message

/-- The arguments that are left, and the last one that was taken. -/
structure Reading where
  left : List Bytes
  last : Bytes := []

/-- Reading with faults. -/
abbrev Reader := StateT Reading (Except Fault)

/-- Takes the next argument. -/
def next : Reader Bytes := do
  let r ← get
  match r.left with
  | [] => throw (.missing r.last)
  | a :: rest =>
    set { left := rest, last := a : Reading }
    return a

/-- The next argument, if it is one of these; it is taken. -/
def nextOf? (operators : List String) : Reader (Option String) := do
  match (← get).left with
  | [] => return none
  | a :: _ =>
    match operators.find? fun op => bytes op == a with
    | none => return none
    | some op =>
      let _ ← next
      return some op

/-- The integer a value is. -/
def integer? (v : Bytes) : Option Int :=
  match v with
  | 0x2d :: digits => (natural? digits).map fun n => -(n : Int)
  | digits => (natural? digits).map fun n => (n : Int)

/-- Whether a value counts as false: nothing, or a zero. -/
def isNull (v : Bytes) : Bool := v.isEmpty || integer? v == some 0

/-- The value of a truth value. -/
def ofBool (b : Bool) : Bytes := bytes (if b then "1" else "0")

/-- The value of two integers under an operator. -/
def arithmetic (op : String) (a b : Bytes) : Except Fault Bytes :=
  match integer? a, integer? b with
  | some m, some n =>
    match op with
    | "+" => .ok (Numeral.signed (m + n))
    | "-" => .ok (Numeral.signed (m - n))
    | "*" => .ok (Numeral.signed (m * n))
    | "/" => if n = 0 then .error .divisionByZero else .ok (Numeral.signed (m.tdiv n))
    | _ => if n = 0 then .error .divisionByZero else .ok (Numeral.signed (m.tmod n))
  | _, _ => .error .noInteger

/-- Whether two values stand in a relation; integers are compared as such. -/
def related (op : String) (a b : Bytes) : Bool :=
  let order := match integer? a, integer? b with
    | some m, some n => compare m n
    | _, _ => if a = b then .eq else if FileSystem.before a b then .lt else .gt
  match op with
  | "<" => order == .lt
  | "<=" => order != .gt
  | "=" | "==" => order == .eq
  | "!=" => order != .eq
  | ">=" => order != .lt
  | _ => order == .gt

/-- What a basic expression matches at the front of a text: what its group matched, or else how
many bytes. -/
def matched (text pattern : Bytes) : Except Fault Bytes :=
  match Regex.read {} pattern with
  | .error fault => .error (.expression fault)
  | .ok p =>
    let subject := ByteArray.mk text.toArray
    let found := p.matchAt? subject (fun _ => true) 0
    if p.groupCount = 0 then .ok (Numeral.decimal ((found.map (·.stop)).getD 0))
    else
      match found.bind (·.groups.lookup 1) with
      | some (start, stop) => .ok (subject.extract start stop).toList
      | none => .ok []

/-- A named operation on values that are read by `read`. -/
def operation (read : Reader Bytes) (name : String) : Reader Bytes := do
  match name with
  | "match" => do
    let text ← read
    let pattern ← read
    matched text pattern
  | "length" => return Numeral.decimal (← read).length
  | "index" => do
    let text ← read
    let set ← read
    return Numeral.decimal (((text.findIdx? set.contains).map (· + 1)).getD 0)
  | _ => do
    let text ← read
    let start ← read
    let length ← read
    match integer? start, integer? length with
    | some i, some n =>
      return if 0 < i ∧ 0 < n then (text.drop (i.toNat - 1)).take n.toNat else []
    | _, _ => return []

/-- Values joined by operators of one strength, from the left.  `n` bounds their number. -/
def chain (operators : List String) (read : Reader Bytes)
    (combine : String → Bytes → Bytes → Except Fault Bytes) : Nat → Bytes → Reader Bytes
  | 0, v => return v
  | n + 1, v => do
    match ← nextOf? operators with
    | none => return v
    | some op =>
      let w ← read
      chain operators read combine n (← combine op v w)

/-- The operators by strength, weakest first. -/
def levels : List (List String × (String → Bytes → Bytes → Except Fault Bytes)) :=
  [(["|"], fun _ a b => .ok (if !isNull a then a else if !isNull b then b else bytes "0")),
   (["&"], fun _ a b => .ok (if isNull a || isNull b then bytes "0" else a)),
   (["<", "<=", "=", "==", "!=", ">=", ">"], fun op a b => .ok (ofBool (related op a b))),
   (["+", "-"], arithmetic), (["*", "/", "%"], arithmetic), ([":"], fun _ a b => matched a b)]

/-- A value with operators of the given strengths, over single values that are read by `single`. -/
def readLevels (single : Reader Bytes) :
    List (List String × (String → Bytes → Bytes → Except Fault Bytes)) → Reader Bytes
  | [] => single
  | (operators, combine) :: stronger => do
    let v ← readLevels single stronger
    chain operators (readLevels single stronger) combine (← get).left.length v

/-- A value; `n` bounds how deep parentheses and named operations are nested. -/
def value : Nat → Reader Bytes
  | 0 => throw (.missing [])
  | n + 1 => readLevels (single n) levels
where
  /-- A single value: an argument, an operation, or a value in parentheses. -/
  single : Nat → Reader Bytes
    | 0 => throw (.missing [])
    | n + 1 => do
      match ← nextOf? ["match", "length", "index", "substr", "+", "("] with
      | some "(" => do
        let v ← readLevels (single n) levels
        match (← get).left with
        | close :: _ =>
          if close = bytes ")" then
            let _ ← next
            return v
          else throw (.unclosed (← get).last)
        | [] => throw (.unclosed (← get).last)
      | some "+" => next
      | some name => operation (single n) name
      | none => do
        let a ← next
        if a = bytes ")" then throw .unexpectedClose else return a

/-- The value of arguments. -/
def evaluate (args : List Bytes) : Except Fault Bytes :=
  match (value (args.length + 2)).run { left := args } with
  | .error fault => .error fault
  | .ok (v, r) =>
    match r.left with
    | [] => .ok v
    | a :: _ => .error (.unexpected a)

end MacroConstants.Utility.Expr

namespace MacroConstants.Utility

/-- Prints the value of its arguments; the status says whether it is null. -/
def expr : Utility := fun args => do
  let args := if args.head? = some (bytes "--") then args.tail else args
  if args.isEmpty then
    let _ ← refuse "expr" (bytes "missing operand")
    return 2
  match Expr.evaluate args with
  | .ok v =>
    Job.say (v ++ bytes "\n")
    return if Expr.isNull v then 1 else 0
  | .error fault =>
    warn "expr" fault.message
    return 2

end MacroConstants.Utility
