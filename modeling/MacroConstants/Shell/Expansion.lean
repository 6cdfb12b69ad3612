import MacroConstants.Shell.Arithmetic
import MacroConstants.Shell.Fields
import MacroConstants.Shell.Glob
import MacroConstants.Shell.State

/-!
# Expansion of words

* `Shell.Manner` — what a word is expanded for.
* `Shell.expandPieces` — the parts of a word.
* `Shell.expandFields`, `Shell.expandText`, `Shell.expandPattern` — a word as fields, as one text,
  as a pattern.

`output` runs a command and gives what it prints.
-/

namespace MacroConstants.Shell

/-- What a word is expanded for. -/
structure Manner where
  /-- Whether it is cut into fields. -/
  splits : Bool
  /-- Whether it is a word in the place of a parameter. -/
  instead : Bool := false

/-! ### Tildes -/

/-- The home directory in place of a tilde at the front of a text that ends there or goes on with a
slash; in an assignment a colon ends it too. -/
def tilde (home : Option Bytes) (inAssignment more : Bool) (t : Bytes) : Option (Bytes × Bytes) :=
  match home, t with
  | some home, b :: rest =>
    if b ≠ ascii '~' then none
    else
      match rest with
      | [] => if more then none else some (home, [])
      | c :: _ =>
        if c = ascii '/' ∨ (inAssignment ∧ c = ascii ':') then some (home, rest) else none
  | _, _ => none

/-- A word with its tilde replaced. -/
def replaceTilde (home : Option Bytes) (inAssignment : Bool) (w : Word) : Word :=
  match w with
  | .text false t :: rest =>
    match tilde home inAssignment (!rest.isEmpty) t with
    | some (home, tail) =>
      .text true home :: (if tail.isEmpty then rest else .text false tail :: rest)
    | none => w
  | w => w

/-- The value of an assignment with the tildes after its colons replaced too. -/
def replaceTildes (home : Option Bytes) (w : Word) : Word :=
  (replaceTilde home true w).flatMap fun
    | .text false t =>
      match t.splitOn (ascii ':') with
      | first :: more =>
        .text false first :: more.flatMap fun t =>
          .text false (bytes ":") :: replaceTilde home true [.text false t]
      | [] => []
    | piece => [piece]

/-! ### Parameters -/

/-- The text that is put between the arguments when they are joined, and whether it is a mark at
which they are cut again. -/
def joint (s : State) (quoted splits : Bool) : Bytes :=
  match s.value? (bytes "IFS") with
  | none => bytes " "
  | some ifs => if !quoted && splits then [0] else ifs.take 1

/-- The parts of a value. -/
def valueParts (m : Manner) (quoted : Bool) (t : Bytes) : List Part :=
  if quoted then [.text true t] else if m.splits then [.split t] else [.text false t]

/-- The text of a parameter that has a value, and whether it is the arguments one by one. -/
def State.parameter? (s : State) (m : Manner) (quoted : Bool) : Parameter → Option (Bytes × Bool)
  | .variable name => (s.value? name).map fun v => (v, false)
  | .position 0 => some (s.zero, false)
  | .position (n + 1) => s.arguments[n]?.map fun v => (v, false)
  | .count => some (Numeral.decimal s.arguments.length, false)
  | .status => some (Numeral.decimal s.status, false)
  | .process => some (Numeral.decimal s.process, false)
  | .lastJob => s.lastJob.map fun n => (Numeral.decimal n, false)
  | .options => some (s.options, false)
  | .separately =>
    if quoted && m.splits then some ([0].intercalate s.arguments, true)
    else some ((joint s quoted m.splits).intercalate s.arguments, false)
  | .together => some ((joint s quoted m.splits).intercalate s.arguments, false)

/-- The parts of the value of a parameter. -/
def parameterParts (s : State) (m : Manner) (quoted : Bool) (value : Bytes × Bool) : List Part :=
  if value.2 then (if s.arguments.isEmpty then [] else [.each value.1])
  else valueParts m quoted value.1

/-- Fails because a parameter has no value. -/
def failUnset {α : Type} (p : Parameter) (text : Bytes) : Action α :=
  fail (p.name ++ bytes ": " ++ text)

/-- Whether a parameter counts as having a value. -/
def counts (orEmpty : Bool) (value : Option (Bytes × Bool)) : Bool :=
  match value with
  | none => false
  | some (v, _) => !(orEmpty && v.isEmpty)

/-- Sets variables to the results of an expression. -/
def assignAll (assigned : List (Bytes × Int64)) : Action Unit :=
  assigned.forM fun (name, n) => assign name (Numeral.signed n.toInt)

/-- The value of an integer expression. -/
def integerValue (expression : Bytes) : Action Int64 := do
  let (result, assigned) := evaluate (← get).value? expression
  assignAll assigned
  match result with
  | .ok n => return n
  | .error (.expression text) =>
    fail (bytes "arithmetic expression: " ++ text ++ bytes ": \"" ++ expression ++ bytes "\"")
  | .error (.number text) => fail (bytes "Illegal number: " ++ text)

/-- Parts with the tilde at their front replaced, if the word they come from starts with one. -/
def withHome (home : Option Bytes) (word : List Piece) (parts : List Part) : List Part :=
  match word, parts with
  | .text false t :: rest, _ :: more =>
    match tilde home false (!rest.isEmpty) t with
    | some (home, tail) => .text true home :: .text false tail :: more
    | none => parts
  | _, parts => parts

variable (output : Command → Action Bytes)

mutual

/-- The parts of a word. -/
def expandPieces (m : Manner) : List Piece → Action (List Part)
  | [] => return []
  | piece :: rest => do
    let parts ← expandPiece m piece
    return parts ++ (← expandPieces m rest)

/-- The parts of a piece of a word. -/
def expandPiece (m : Manner) : Piece → Action (List Part)
  | .text quoted t =>
    return if m.instead && m.splits && !quoted then [.split t] else [.text quoted t]
  | .quotes => return [.quotes]
  | .output quoted command => do
    let t ← output command
    return valueParts m quoted (Bytes.trimEnd (· == ascii '\n') (t.filter (· != 0)))
  | .integer quoted expression => do
    let n ← integerValue (flat (← expandPieces ⟨false, false⟩ expression))
    return valueParts m quoted (Numeral.signed n.toInt)
  | .parameter quoted p use => expandUse m quoted p use

/-- The parts of what is made of a parameter. -/
def expandUse (m : Manner) (quoted : Bool) (p : Parameter) : Use → Action (List Part)
  | .invalid => fail (bytes "Bad substitution")
  | .value => do
    let s ← get
    match s.parameter? m quoted p with
    | some v => return parameterParts s m quoted v
    | none =>
      if ← hasOption 'u' then failUnset p (bytes "parameter not set")
      else return valueParts m quoted []
  | .length => do
    let s ← get
    match s.parameter? ⟨false, false⟩ quoted p with
    | some (v, _) => return valueParts m quoted (Numeral.decimal v.length)
    | none =>
      if ← hasOption 'u' then failUnset p (bytes "parameter not set")
      else return valueParts m quoted (bytes "0")
  | .fallback orEmpty word => do
    let s ← get
    let v := s.parameter? m quoted p
    if counts orEmpty v then return (v.map (parameterParts s m quoted)).getD []
    else
      let home := s.value? (bytes "HOME")
      let parts ← expandPieces { m with instead := true } word
      return withHome home word parts
  | .alternative orEmpty word => do
    let s ← get
    if counts orEmpty (s.parameter? m quoted p) then
      let home := s.value? (bytes "HOME")
      let parts ← expandPieces { m with instead := true } word
      return withHome home word parts
    else return []
  | .assign orEmpty word => do
    let s ← get
    let v := s.parameter? m quoted p
    if counts orEmpty v then return (v.map (parameterParts s m quoted)).getD []
    else
      let home := s.value? (bytes "HOME")
      let parts ← expandPieces ⟨false, false⟩ word
      let t := flat (withHome home word parts)
      assign p.name t
      return valueParts m quoted t
  | .demand orEmpty word => do
    let s ← get
    let v := s.parameter? m quoted p
    if counts orEmpty v then return (v.map (parameterParts s m quoted)).getD []
    else
      let parts ← expandPieces ⟨false, false⟩ word
      if word.isEmpty then
        failUnset p (bytes "parameter not set" ++ (if orEmpty then bytes " or null" else []))
      else failUnset p (flat parts)
  | .trim atEnd longest pattern => do
    let s ← get
    match s.parameter? ⟨false, false⟩ true p with
    | none =>
      if ← hasOption 'u' then failUnset p (bytes "parameter not set")
      else return valueParts m quoted []
    | some (v, _) =>
      let parts ← expandPieces ⟨false, false⟩ pattern
      return valueParts m quoted (trim atEnd longest (Wildcard.ofText (marked parts)) v)

end

/-- The fields of a word, with wildcards replaced by the files they stand for. -/
def expandFields (w : Word) : Action (List Bytes) := do
  let home := (← get).value? (bytes "HOME")
  let parts ← expandPieces output ⟨true, false⟩ (replaceTilde home false w)
  let all := fields (← separators) parts
  let s ← get
  if s.options.contains (ascii 'f') then return all.map Marked.text
  else
    return all.flatMap fun m =>
      match glob s.files s.directory m with
      | [] => [m.text]
      | paths => paths

/-- A word as one text. -/
def expandText (w : Word) : Action Bytes := do
  let home := (← get).value? (bytes "HOME")
  return flat (← expandPieces output ⟨false, false⟩ (replaceTilde home false w))

/-- The value of an assignment as one text. -/
def expandValue (w : Word) : Action Bytes := do
  let home := (← get).value? (bytes "HOME")
  return flat (← expandPieces output ⟨false, false⟩ (replaceTildes home w))

/-- A word as a wildcard pattern. -/
def expandPattern (w : Word) : Action (List Wildcard) := do
  let home := (← get).value? (bytes "HOME")
  let parts ← expandPieces output ⟨false, false⟩ (replaceTilde home false w)
  return Wildcard.ofText (marked parts)

end MacroConstants.Shell
