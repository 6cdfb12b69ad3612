import MacroConstants.Shell.Token

/-!
# The grammar of shell scripts

* `Shell.Goal` — what can be read from a script: lists, chains, pipelines and commands.
* `Shell.parse` — reads one of them; each kind is a step over readers of the others.
* `Shell.nextCommand` — the next complete command of a script.
-/

namespace MacroConstants.Shell

open Shell.Reading

/-- Where a list of commands is. -/
inductive Place where
  /-- Inside a command: lines may be left empty. -/
  | inside
  /-- Inside a command, and perhaps empty. -/
  | inArm
  /-- At the top of the script: the list ends with its line. -/
  | top
  deriving DecidableEq, Repr

/-- What can be read from a script. -/
inductive Goal where
  | list (place : Place)
  | chain
  | pipeline
  | command
  deriving DecidableEq, Repr

/-- A reader for each goal. -/
abbrev Readers := Goal → Reading Command

namespace Readers

variable (p : Readers)

/-- The last token has to be a symbol. -/
def require (text : String) (t : Token) : Reading Unit :=
  if t.isSymbol text then return () else unexpected (some (Token.symbol (bytes text)).name)

/-- The readers of commands inside words. -/
def nested : Nested where
  list := p (.list .inArm)
  enclosed := do
    let c ← p (.list .inArm)
    require ")" (← readToken ⟨p (.list .inArm), return .nothing⟩)
    return c

/-- The next token. -/
def token : Reading Token := readToken p.nested

/-- The next token under checks. -/
def tokenUnder (checks : Checks) : Reading Token := do
  look checks
  p.token

/-! ### Lists, chains and pipelines -/

/-- A command run in the background. -/
def background : Command → Command
  | .pipeline stages _ => .pipeline stages true
  | .redirected _ body redirections => .background body redirections
  | c => .background c []

/-- The rest of a list; `started` is what was read of it so far. -/
def listRest (place : Place) : Nat → Bool → Option Command → Reading Command
  | 0, _, started => return started.getD .nothing
  | n + 1, mayEnd, started => do
    let top := place == .top
    let t ← p.tokenUnder { Checks.command with newlines := !top }
    match t with
    | .newline =>
      readDocuments p.nested
      return started.getD .nothing
    | .finish =>
      readDocuments p.nested
      modify fun r => { r with given := true, last := .finish }
      return started.getD .nothing
    | t =>
      giveBack
      if mayEnd && !top && t.closes then return started.getD .nothing
      let c ← p .chain
      let t ← p.token
      let isBackground := t.isSymbol "&"
      let c := if isBackground then background c else c
      let c := match started with
        | none => c
        | some d => .sequence d c
      if t.isNewline || t.isFinish then
        giveBack
        listRest place n true (some c)
      else if isBackground || t.isSymbol ";" then listRest place n true (some c)
      else
        if top then unexpected none
        giveBack
        return c

/-- The rest of a chain of commands joined by `&&` and `||`. -/
def chainRest : Nat → Command → Reading Command
  | 0, c => return c
  | n + 1, c => do
    let t ← p.token
    if t.isSymbol "&&" || t.isSymbol "||" then
      look Checks.command
      let d ← p .pipeline
      chainRest n (if t.isSymbol "&&" then .andThen c d else .orElse c d)
    else
      giveBack
      return c

/-- The further stages of a pipeline. -/
def stages : Nat → List Command → Reading (List Command)
  | 0, cs => return cs.reverse
  | n + 1, cs => do
    let t ← p.token
    if t.isSymbol "|" then
      look Checks.command
      stages n ((← p .command) :: cs)
    else
      giveBack
      return cs.reverse

/-- A pipeline, perhaps negated. -/
def pipeline : Reading Command := do
  let t ← p.token
  let negated := t.isSymbol "!"
  if negated then look { reserved := true, aliases := true } else giveBack
  let first ← p .command
  let all ← p.stages readingLimit [first]
  let c := match all with
    | [c] => c
    | cs => .pipeline cs false
  return if negated then .negated c else c

/-! ### Redirections -/

/-- The redirection of an operator and the word after it. -/
def redirection (descriptor : Option Nat) (operator : Bytes) : Reading Redirection := do
  let isDocument := operator == bytes "<<" || operator == bytes "<<-"
  let t ← p.tokenUnder { mark := isDocument }
  match t with
  | .word w quoted =>
    let out := descriptor.getD 1
    let inp := descriptor.getD 0
    if isDocument then
      let number := (← get).documents.size
      let mark := w.flatMap fun
        | .text _ t => t
        | _ => []
      modify fun r =>
        { r with
          documents := r.documents.push []
          pending := r.pending ++ [⟨number, mark, quoted, operator == bytes "<<-"⟩] }
      return .document inp number
    else if operator = bytes ">&" ∨ operator = bytes "<&" then
      let d := if operator = bytes ">&" then out else inp
      match w.plain? with
      | some [b] =>
        if Bytes.isDigit b then return .duplicate d (Numeral.value 10 [b])
        else if b = ascii '-' then return .close d
        else return .duplicateWord d w
      | _ => return .duplicateWord d w
    else if operator = bytes "<" then return .openFile inp .input w
    else if operator = bytes "<>" then return .openFile inp .both w
    else if operator = bytes ">>" then return .openFile out .append w
    else if operator = bytes ">|" then return .openFile out .replace w
    else return .openFile out .output w
  | _ => unexpected none

/-- The redirections after a compound command. -/
def redirections : Nat → List Redirection → Reading (List Redirection)
  | 0, rs => return rs.reverse
  | n + 1, rs => do
    match ← p.tokenUnder { reserved := true, aliases := true } with
    | .redirection descriptor operator =>
      redirections n ((← p.redirection descriptor operator) :: rs)
    | _ =>
      giveBack
      return rs.reverse

/-! ### Simple commands -/

/-- The name and value of a word that is an assignment. -/
def assignment? (w : Word) : Option (Bytes × Word) :=
  match w with
  | .text false t :: rest =>
    let name := t.takeWhile Bytes.isWord
    match t.dropWhile Bytes.isWord with
    | b :: value =>
      if b = ascii '=' ∧ isName name then
        some (name, if value.isEmpty then rest else .text false value :: rest)
      else none
    | [] => none
  | _ => none

/-- The built-in commands that functions cannot be named for. -/
def specialNames : List Bytes :=
  [bytes ".", bytes ":", bytes "break", bytes "continue", bytes "eval", bytes "exec", bytes "exit",
   bytes "export", bytes "readonly", bytes "return", bytes "set", bytes "shift", bytes "times",
   bytes "trap", bytes "unset"]

/-- A definition of a function, after its opening parenthesis. -/
def definition (name : Word) : Reading Command := do
  require ")" (← p.token)
  match name.plain? with
  | some name =>
    if isName name && !specialNames.contains name then
      look Checks.command
      let line := (← get).line
      return .define line name (← p .command)
    else Reading.complain (bytes "Bad function name")
  | none => Reading.complain (bytes "Bad function name")

/-- The parts of a simple command, each kept in reverse; `atFront` while only assignments and
redirections were read. -/
def simpleRest (line : Nat) : Nat → Bool → List (Bytes × Word) → List Word → List Redirection →
    Reading Command
  | 0, _, as, ws, rs => return .simple line as.reverse ws.reverse rs.reverse
  | n + 1, atFront, as, ws, rs => do
    let t ← p.tokenUnder { aliases := atFront }
    match t with
    | .word w _ =>
      match if atFront then assignment? w else none with
      | some a => simpleRest line n true (a :: as) ws rs
      | none => simpleRest line n false as (w :: ws) rs
    | .redirection descriptor operator =>
      let r ← p.redirection descriptor operator
      simpleRest line n atFront as ws (r :: rs)
    | t =>
      match t.isSymbol "(", as, ws, rs with
      | true, [], [name], [] => p.definition name
      | _, _, _, _ =>
        giveBack
        return .simple line as.reverse ws.reverse rs.reverse

/-! ### Compound commands -/

/-- The alternatives of a conditional after its test and `then` were read. -/
def alternatives : Nat → Command → Reading Command
  | 0, _ => return .nothing
  | n + 1, test => do
    require "then" (← p.token)
    let yes ← p (.list .inside)
    let t ← p.token
    if t.isSymbol "elif" then
      let next ← p (.list .inside)
      return .conditional test yes (← alternatives n next)
    else if t.isSymbol "else" then return .conditional test yes (← p (.list .inside))
    else
      giveBack
      return .conditional test yes .nothing

/-- The words of a loop, up to the token that ends them. -/
def words : Nat → List Word → Reading (List Word)
  | 0, ws => return ws.reverse
  | n + 1, ws => do
    let t ← p.token
    match t with
    | .word w _ => words n (w :: ws)
    | t => if t.isNewline || t.isSymbol ";" then return ws.reverse else unexpected none

/-- A loop over words. -/
def forEach (line : Nat) : Reading Command := do
  let t ← p.token
  let name ← match t with
    | .word w false =>
      match w.plain? with
      | some name =>
        if isName name then pure name else Reading.complain (bytes "Bad for loop variable")
      | none => Reading.complain (bytes "Bad for loop variable")
    | _ => Reading.complain (bytes "Bad for loop variable")
  let t ← p.tokenUnder Checks.command
  let ws ←
    if t.isSymbol "in" then p.words readingLimit []
    else
      if !t.isSymbol ";" then giveBack
      pure [[.parameter true .separately .value]]
  require "do" (← p.tokenUnder Checks.command)
  return .forEach line name ws (← p (.list .inside))

/-- The patterns of an arm, from the token `t` on. -/
def patterns : Nat → Token → List Word → Reading (List Word)
  | 0, _, ws => return ws.reverse
  | n + 1, t, ws => do
    let w : Word := match t with
      | .word w _ => w
      | .symbol text => [.text false text]
      | _ => []
    let t ← p.token
    if t.isSymbol "|" then patterns n (← p.token) (w :: ws)
    else
      require ")" t
      return (w :: ws).reverse

/-- The arms of a case distinction. -/
def arms : Nat → List Arm → Reading (List Arm)
  | 0, as => return as.reverse
  | n + 1, as => do
    let blanks : Checks := { newlines := true, reserved := true }
    let t ← p.tokenUnder blanks
    if t.isSymbol "esac" then return as.reverse
    else
      let t ← if t.isSymbol "(" then p.token else pure t
      let ws ← p.patterns readingLimit t []
      let body ← p (.list .inArm)
      let as := .arm ws body :: as
      let t ← p.tokenUnder blanks
      if t.isSymbol "esac" then return as.reverse
      else
        require ";;" t
        arms n as

/-- A case distinction. -/
def choice (line : Nat) : Reading Command := do
  match ← p.token with
  | .word w _ =>
    require "in" (← p.tokenUnder Checks.command)
    return .choice line w (← p.arms readingLimit [])
  | _ => unexpected (some (bytes "word"))

/-- A command with redirections; those of a subshell are its own. -/
def redirected (line : Nat) (c : Command) (rs : List Redirection) : Command :=
  match rs, c with
  | [], c => c
  | rs, .subshell line body _ => .subshell line body rs
  | rs, c => .redirected line c rs

/-- A compound command with what closes it, and its redirections. -/
def compound (line : Nat) (c : Command) (close : Option String) : Reading Command := do
  match close with
  | some text => require text (← p.token)
  | none => pure ()
  return redirected line c (← p.redirections readingLimit [])

/-- A command. -/
def command : Reading Command := do
  let line := (← get).line
  let t ← p.token
  match t with
  | .word _ _ | .redirection _ _ =>
    giveBack
    let line := (← get).line
    p.simpleRest line readingLimit true [] [] []
  | t =>
    if t.isSymbol "if" then
      let test ← p (.list .inside)
      let c ← p.alternatives readingLimit test
      p.compound line c (some "fi")
    else if t.isSymbol "while" || t.isSymbol "until" then
      let test ← p (.list .inside)
      require "do" (← p.token)
      let body ← p (.list .inside)
      p.compound line (.loop (t.isSymbol "until") test body) (some "done")
    else if t.isSymbol "for" then
      let c ← p.forEach line
      p.compound line c (some "done")
    else if t.isSymbol "case" then
      let c ← p.choice line
      p.compound line c none
    else if t.isSymbol "(" then
      let body ← p (.list .inside)
      p.compound line (.subshell line body []) (some ")")
    else if t.isSymbol "\x7b" then
      let body ← p (.list .inside)
      p.compound line body (some "\x7d")
    else unexpected none

/-- One step towards a goal. -/
def step : Goal → Reading Command
  | .list place => p.listRest place readingLimit (place == .inArm) none
  | .chain => do
    let c ← p .pipeline
    p.chainRest readingLimit c
  | .pipeline => p.pipeline
  | .command => p.command

end Readers

/-- Reads towards a goal, with at most `n` levels of nesting. -/
def parse : Nat → Goal → Reading Command
  | 0, _ => Reading.complain (bytes "nested too deeply")
  | n + 1, goal => Readers.step (parse n) goal

/-- The deepest nesting of a script. -/
def nestingLimit : Nat := 1000000

/-- The next complete command of a script; nothing at its end. -/
def nextCommand : Reading (Option Command) := do
  modify fun r => { r with given := false, checks := {}, pending := [] }
  let c ← parse nestingLimit (.list .top)
  let r ← get
  return if c.isNothing && r.given && r.last.isFinish then none else some c

end MacroConstants.Shell
