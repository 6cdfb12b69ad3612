import MacroConstants.Shell.Reader

/-!
# Words and tokens of a script

* `Shell.Context` — what surrounds a text: quotes, braces, a document, an expression.
* `Shell.pieces` — the pieces of a text up to the end of its surroundings.
* `Shell.readToken` — the next token.
* `Shell.readDocuments` — the documents that start after the end of a line.

Commands in the middle of a word are read by the readers of `Shell.Nested`.
-/

namespace MacroConstants.Shell

open Shell.Reading

/-- The readers of commands inside a word. -/
structure Nested where
  /-- A list of commands up to what closes it. -/
  list : Reading Command
  /-- A list of commands with its closing parenthesis. -/
  enclosed : Reading Command

/-- What surrounds a text. -/
inductive Context where
  | bare
  /-- Between the braces of a parameter outside quotes. -/
  | braced
  | quoted
  | quotedBraced
  /-- In a document. -/
  | document
  | documentBraced
  /-- In an integer expression. -/
  | arithmetic
  deriving DecidableEq, Repr

namespace Context

/-- Whether a text in these surroundings counts as quoted. -/
def quotes : Context → Bool
  | bare | braced => false
  | _ => true

/-- Whether a closing brace ends the text. -/
def inBraces : Context → Bool
  | braced | quotedBraced | documentBraced => true
  | _ => false

/-- The surroundings of a word between braces. -/
def inner : Context → Context
  | bare | braced => .braced
  | document | documentBraced => .documentBraced
  | _ => .quotedBraced

/-- What is missing if the script ends in these surroundings. -/
def missing? : Context → Option Bytes
  | bare | document => none
  | braced | documentBraced => some (bytes "Missing '\x7d'")
  | quoted | quotedBraced => some (bytes "Unterminated quoted string")
  | arithmetic => some (bytes "Missing '))'")

end Context

/-- The bytes that mean something in one context or another. -/
def special : Bytes := bytes "\n\\'\"`$\x7d() \t&|;<>"

/-- A byte that stands for itself everywhere. -/
def isOrdinary (b : UInt8) : Bool := !special.contains b

/-- A byte that ends a word outside quotes. -/
def endsWord (b : UInt8) : Bool := (bytes "\n \t&|;<>()").contains b

/-- Adds text to the end of a word that is kept in reverse. -/
def push (quoted : Bool) (more : Bytes) : Word → Word
  | .text q t :: rest =>
    if q = quoted then .text q (t ++ more) :: rest else .text quoted more :: .text q t :: rest
  | w => .text quoted more :: w

/-! ### Parameters -/

/-- The parameter a byte other than a letter or digit names. -/
def specialParameter? (b : UInt8) : Option Parameter :=
  [(ascii '#', .count), (ascii '@', .separately), (ascii '*', .together), (ascii '?', .status),
   (ascii '$', .process), (ascii '!', .lastJob), (ascii '-', .options)].lookup b

/-- The parameter that starts with a letter or digit; of a name all of it is read. -/
def namedParameter (b : UInt8) : Reading Parameter := do
  if Bytes.isDigit b then
    return .position (Numeral.value 10 (b :: (← run Bytes.isDigit)))
  else return .variable (b :: (← run Bytes.isWord))

/-- What follows a parameter between braces, given the byte after it. -/
def readUse (sub : Context → Reading Word) (ctx : Context) (b : Option UInt8) : Reading Use := do
  let orEmpty := b == some (ascii ':')
  let b ← if orEmpty then nextJoined else pure b
  match b with
  | none => return invalid (← sub ctx.inner)
  | some c =>
    if c = ascii '\x7d' then return .value
    else if c = ascii '-' then return .fallback orEmpty (← sub ctx.inner)
    else if c = ascii '=' then return .assign orEmpty (← sub ctx.inner)
    else if c = ascii '?' then return .demand orEmpty (← sub ctx.inner)
    else if c = ascii '+' then return .alternative orEmpty (← sub ctx.inner)
    else if !orEmpty && (c == ascii '%' || c == ascii '#') then
      let d ← nextJoined
      if d = some c then return .trim (c == ascii '%') true (← sub .braced)
      else
        back? d
        return .trim (c == ascii '%') false (← sub .braced)
    else return invalid (← sub ctx.inner)
where
  /-- What cannot be expanded. -/
  invalid (_ : Word) : Use := .invalid

/-- A parameter between braces, after the opening one. -/
def bracedParameter (sub : Context → Reading Word) (ctx : Context) : Reading Piece := do
  let wrong : Reading Piece := do
    let _ ← sub ctx.inner
    return .parameter ctx.quotes (.variable []) .invalid
  match ← nextJoined with
  | none => wrong
  | some b =>
    if isNameStart b || Bytes.isDigit b then
      let p ← namedParameter b
      return .parameter ctx.quotes p (← readUse sub ctx (← nextJoined))
    else if b = ascii '\x7d' then
      back b
      wrong
    else if b = ascii '#' then
      match ← nextJoined with
      | none => wrong
      | some c =>
        if Bytes.isWord c then
          let p ← namedParameter c
          let d ← nextJoined
          if d = some (ascii '\x7d') then return .parameter ctx.quotes p .length
          else
            back? d
            wrong
        else
          let d ← nextJoined
          if c = ascii '\x7d' ∨ d ≠ some (ascii '\x7d') then
            back? d
            return .parameter ctx.quotes .count (← readUse sub ctx (some c))
          else
            match specialParameter? c with
            | some p => return .parameter ctx.quotes p .length
            | none =>
              back? d
              wrong
    else
      let c ← nextJoined
      match specialParameter? b with
      | some p => return .parameter ctx.quotes p (← readUse sub ctx c)
      | none =>
        back? c
        wrong

/-! ### Commands in words -/

/-- Does something with the rest of the script, or with a text in its place, and goes on with what
was pending before. -/
def aside {α : Type} (text : Option Bytes) (body : Reading α) : Reading α := do
  let before ← get
  set { before with
    rest := text.getD before.rest
    line := if text.isSome then 1 else before.line
    pending := []
    given := false
    checks := {} }
  let a ← body
  modify fun r =>
    { r with
      rest := if text.isSome then before.rest else r.rest
      line := if text.isSome then before.line else r.line
      pending := before.pending
      given := before.given
      last := before.last
      quoted := before.quoted }
  return a

/-- The text up to a closing backquote.  A backslash protects a backslash, backquote or dollar
sign, and inside double quotes also a double quote. -/
def backquoted (ctx : Context) : Nat → Bytes → Reading Bytes
  | 0, text => return text.reverse
  | n + 1, text => do
    match ← nextJoined with
    | none => complain' (bytes "EOF in backquote substitution")
    | some b =>
      if b = ascii '`' then return text.reverse
      else if b = ascii '\\' then
        match ← next with
        | none => complain' (bytes "EOF in backquote substitution")
        | some c =>
          let bare := c == ascii '\\' || c == ascii '`' || c == ascii '$' ||
            (ctx.quotes && c == ascii '"')
          backquoted ctx n (if bare then c :: text else c :: b :: text)
      else
        if b = ascii '\n' then countLine
        backquoted ctx n (b :: text)
where
  /-- Fails with a complaint about the script. -/
  complain' (text : Bytes) : Reading Bytes := Reading.complain text

/-- What follows a dollar sign; one that introduces nothing stands for itself. -/
def dollar (g : Nested) (sub : Context → Reading Word) (ctx : Context) : Reading Piece := do
  let itself : Piece := .text ctx.quotes (bytes "$")
  if (← get).checks.mark then return itself
  match ← nextJoined with
  | none => return itself
  | some b =>
    if b = ascii '(' then
      let c ← nextJoined
      if c = some (ascii '(') then return .integer ctx.quotes (← sub .arithmetic)
      else
        back? c
        return .output ctx.quotes (← aside none g.enclosed)
    else if b = ascii '\x7b' then bracedParameter sub ctx
    else if isNameStart b then return .parameter ctx.quotes (← namedParameter b) .value
    else if Bytes.isDigit b then
      return .parameter ctx.quotes (.position (Numeral.value 10 [b])) .value
    else
      match specialParameter? b with
      | some p => return .parameter ctx.quotes p .value
      | none =>
        back b
        return itself

/-! ### Words -/

/-- The text between single quotes, after the opening one. -/
def singleQuoted : Reading Bytes := do
  let text ← run (· != ascii '\'')
  modify fun r => { r with line := r.line + text.count (ascii '\n') }
  match ← next with
  | some _ => return text
  | none => Reading.complain (bytes "Unterminated quoted string")

/-- What a pair of double quotes adds to a word: its pieces, and the mark of the quotes unless they
hold just all arguments. -/
def quotedPieces : Word → Word
  | [.parameter q .separately .value] => [.parameter q .separately .value]
  | w => .quotes :: w

/-- What a backslash and the byte after it stand for. -/
def escape (ctx : Context) (c : UInt8) : Bytes :=
  if !ctx.quotes then [c]
  else if c = ascii '\\' ∨ c = ascii '`' ∨ c = ascii '$' then [c]
  else if c = ascii '"' ∧ ctx ≠ .document then [c]
  else if c = ascii '\x7d' ∧ ctx.inBraces then [c]
  else [ascii '\\', c]

/-- The pieces of a text up to the end of its surroundings, added to the reversed word `w`.  Between
braces in double quotes `toggled` says whether a further pair of double quotes is open; in an
expression `depth` counts the open parentheses. -/
def pieces (g : Nested) : Nat → Context → Bool → Nat → Word → Reading Word
  | 0, _, _, _, w => return w.reverse
  | n + 1, ctx, toggled, depth, w => do
    let again := pieces g n ctx
    let sub (c : Context) : Reading Word := pieces g n c false 0 []
    let plain (b : UInt8) := again toggled depth (push ctx.quotes [b] w)
    match ← nextJoined with
    | none =>
      match ctx.missing? with
      | some text => Reading.complain text
      | none => return w.reverse
    | some b =>
      if isOrdinary b then
        let more ← run isOrdinary
        again toggled depth (push ctx.quotes (b :: more) w)
      else if ctx = .bare ∧ endsWord b then
        back b
        return w.reverse
      else if b = ascii '\n' then
        countLine
        plain b
      else if b = ascii '\\' then
        modify fun r => { r with quoted := true }
        match ← next with
        | none => again toggled depth (push true [b] w)
        | some c => again toggled depth (push true (escape ctx c) w)
      else if b = ascii '\'' ∧ !ctx.quotes then
        modify fun r => { r with quoted := true }
        let text ← singleQuoted
        again toggled depth (push true text (.quotes :: w))
      else if b = ascii '"' then
        match ctx with
        | .bare | .braced =>
          let more ← sub .quoted
          modify fun r => { r with quoted := true }
          again toggled depth ((quotedPieces more).reverse ++ w)
        | .quoted => return w.reverse
        | .quotedBraced | .documentBraced => again (!toggled) depth w
        | .document | .arithmetic => plain b
      else if b = ascii '$' then
        let piece ← dollar g sub ctx
        match piece with
        | .text q t => again toggled depth (push q t w)
        | piece => again toggled depth (piece :: w)
      else if b = ascii '`' then
        if (← get).checks.mark then
          modify fun r => { r with quoted := true }
          plain b
        else
          let text ← backquoted ctx n []
          let command ← aside (some text) g.list
          again toggled depth (.output ctx.quotes command :: w)
      else if b = ascii '\x7d' ∧ ctx.inBraces ∧ !toggled then return w.reverse
      else if ctx = .arithmetic ∧ b = ascii '(' then
        again toggled (depth + 1) (push true [b] w)
      else if ctx = .arithmetic ∧ b = ascii ')' then
        if 0 < depth then again toggled (depth - 1) (push true [b] w)
        else
          let c ← nextJoined
          if c = some (ascii ')') then return w.reverse
          else
            back? c
            plain b
      else plain b

/-! ### Tokens -/

/-- The rest of a redirection operator after its first byte. -/
def redirectionOperator (b : UInt8) : Reading Bytes := do
  let c ← nextJoined
  if b = ascii '>' then
    if c = some (ascii '>') then return bytes ">>"
    else if c = some (ascii '|') then return bytes ">|"
    else if c = some (ascii '&') then return bytes ">&"
    else
      back? c
      return bytes ">"
  else if c = some (ascii '<') then
    let d ← nextJoined
    if d = some (ascii '-') then return bytes "<<-"
    else
      back? d
      return bytes "<<"
  else if c = some (ascii '&') then return bytes "<&"
  else if c = some (ascii '>') then return bytes "<>"
  else
    back? c
    return bytes "<"

/-- The descriptor a word before a redirection operator stands for: none or a single digit. -/
def descriptor? : Word → Option (Option Nat)
  | [] => some none
  | [.text false [d]] => if Bytes.isDigit d then some (some (Numeral.value 10 [d])) else none
  | _ => none

/-- A word or redirection operator. -/
def wordToken (g : Nested) : Reading Token := do
  modify fun r => { r with quoted := false }
  let w ← pieces g readingLimit .bare false 0 []
  let r ← get
  match r.rest with
  | b :: rest =>
    if (b = ascii '<' ∨ b = ascii '>') ∧ !r.quoted then
      match descriptor? w with
      | some d =>
        set { r with rest }
        return .redirection d (← redirectionOperator b)
      | none => return .word w r.quoted
    else return .word w r.quoted
  | [] => return .word w r.quoted

/-- An operator that may be written twice. -/
def doubled (b : UInt8) : Reading Token := do
  let c ← nextJoined
  if c = some b then return .symbol [b, b]
  else
    back? c
    return .symbol [b]

/-- The next token of the text. -/
def freshToken (g : Nested) : Nat → Reading Token
  | 0 => return .finish
  | n + 1 => do
    match ← nextJoined with
    | none => return .finish
    | some b =>
      if Bytes.isBlank b then freshToken g n
      else if b = ascii '#' then
        let _ ← run (· != ascii '\n')
        freshToken g n
      else if b = ascii '\n' then
        countLine
        return .newline
      else if b = ascii '&' ∨ b = ascii '|' ∨ b = ascii ';' then doubled b
      else if b = ascii '(' ∨ b = ascii ')' then return .symbol [b]
      else
        back b
        wordToken g

/-- Forgets the aliases that were replaced and have been read.  After one that ends with a blank
the next word is replaced too. -/
def finishAliases : Reading Unit := do
  let r ← get
  if !r.expanding.isEmpty then
    let length := r.rest.length
    let (going, done) := r.expanding.partition (·.2 < length)
    let blank := done.any fun (name, _) =>
      match (r.aliases.lookup name).bind List.getLast? with
      | some b => Bytes.isBlank b
      | none => false
    set { r with
      expanding := going
      checks := if blank then { r.checks with aliases := true } else r.checks }

/-- The token that was given back, or a new one. -/
def nextToken (g : Nested) : Reading Token := do
  let r ← get
  if r.given then
    set { r with given := false }
    return r.last
  else
    finishAliases
    freshToken g readingLimit

/-! ### Documents -/

/-- Whether a text ends with a backslash that no backslash protects. -/
def continues (line : Bytes) : Bool :=
  (line.reverse.takeWhile (· == ascii '\\')).length % 2 == 1

/-- The lines up to the one that ends a document; `fresh` says whether the next line may be
that. -/
def documentText (d : PendingDocument) : Nat → Bool → Bytes → Reading Bytes
  | 0, _, text => return text
  | n + 1, fresh, text => do
    if (← get).rest.isEmpty then return text
    if fresh && d.indented then
      let _ ← run (· == ascii '\t')
    let line ← run (· != ascii '\n')
    let ended ← next
    if ended.isSome then countLine
    if fresh && line == d.mark then return text
    else
      let text := text ++ line ++ (if ended.isSome then bytes "\n" else [])
      documentText d n (d.verbatim || !continues line) text

/-- Reads a document. -/
def readDocument (g : Nested) (d : PendingDocument) : Reading Unit := do
  let line := (← get).line
  let text ← documentText d readingLimit true []
  let w : Word ←
    if d.verbatim then pure [.text true text]
    else
      aside (some text) do
        modify fun r => { r with line }
        pieces g readingLimit .document false 0 []
  modify fun r => { r with documents := r.documents.setIfInBounds d.number w }

/-- Reads the documents that are pending at the end of a line. -/
def readDocuments (g : Nested) : Reading Unit := do
  let pending := (← get).pending
  modify fun r => { r with pending := [] }
  pending.forM (readDocument g)

/-! ### Tokens as the grammar sees them -/

/-- The words the grammar reserves. -/
def reservedWords : List Bytes :=
  [bytes "!", bytes "case", bytes "do", bytes "done", bytes "elif", bytes "else", bytes "esac",
   bytes "fi", bytes "for", bytes "if", bytes "in", bytes "then", bytes "until", bytes "while",
   bytes "\x7b", bytes "\x7d"]

/-- Skips line ends from a token on. -/
def skipNewlines (g : Nested) : Nat → Token → Reading Token
  | 0, t => return t
  | n + 1, t => do
    if t.isNewline then
      readDocuments g
      look {}
      skipNewlines g n (← nextToken g)
    else return t

/-- The value of an alias that can be replaced. -/
def alias? (r : Reader) (name : Bytes) : Option Bytes :=
  if r.expanding.any (·.1 == name) then none else r.aliases.lookup name

/-- The next token under the checks asked for, which are then over. -/
def checkedToken (g : Nested) : Nat → Checks → Reading Token
  | 0, _ => return .finish
  | n + 1, checks => do
    let t ← nextToken g
    let t ← if checks.newlines then skipNewlines g readingLimit t else pure t
    let checks := checks.or (← get).checks
    look {}
    match t with
    | .word w false =>
      match w.plain? with
      | none => return t
      | some text =>
        if checks.reserved && reservedWords.contains text then return .symbol text
        else if checks.aliases then
          match alias? (← get) text with
          | none => return t
          | some value =>
            modify fun r =>
              { r with
                expanding := (text, r.rest.length) :: r.expanding
                rest := value ++ r.rest }
            checkedToken g n checks
        else return t
    | t => return t

/-- The next token. -/
def readToken (g : Nested) : Reading Token := do
  let t ← checkedToken g readingLimit (← get).checks
  modify fun r => { r with last := t }
  return t

end MacroConstants.Shell
