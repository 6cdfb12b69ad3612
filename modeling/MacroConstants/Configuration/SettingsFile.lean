import MacroConstants.Configuration

/-!
# Settings files

A settings file has one section, `[discovery]`, whose lines give a key a value: a string, perhaps
quoted, or a list of quoted strings in brackets.  A `#` outside quotes starts a comment.

* `Settings.stripComment`, `Settings.splitUnquoted` — the two scans that follow the quotes.
* `Settings.Line`, `Settings.readLine` — what a line says.
* `Settings.read` — the settings of a text, in order, or the first line that cannot be read.
* `Settings.Key` — the known keys.
* `Configuration.assign` — the effect of one setting.
* `Configuration.load`, `Configuration.loadFile` — the effect of a text: settings apply in order up
  to the first that cannot.
-/

namespace MacroConstants

namespace Settings

/-- The line up to the first `#` outside quotes; `quoted` says whether a quote is open. -/
def stripComment : Bool → Bytes → Bytes
  | _, [] => []
  | quoted, b :: rest =>
    if b = ascii '"' then b :: stripComment (!quoted) rest
    else if !quoted && b = ascii '#' then []
    else b :: stripComment quoted rest

/-- The pieces between commas outside quotes. -/
def splitUnquoted : Bool → Bytes → List Bytes
  | _, [] => [[]]
  | quoted, b :: rest =>
    if !quoted && b = ascii ',' then [] :: splitUnquoted false rest
    else
      match splitUnquoted (if b = ascii '"' then !quoted else quoted) rest with
      | [] => [[b]]
      | piece :: pieces => (b :: piece) :: pieces

/-- Whether a quote is left open at the end. -/
def endsQuoted (s : Bytes) : Bool := s.count (ascii '"') % 2 = 1

/-- Without white space at either end. -/
def trimmed (s : Bytes) : Bytes := s.trim Bytes.isLayout

/-- The text between two double quotes that are its first and last byte. -/
def unquoted? (s : Bytes) : Option Bytes :=
  if 2 ≤ s.length ∧ s.head? = some (ascii '"') ∧ s.getLast? = some (ascii '"') then
    some s.tail.dropLast
  else none

/-- The value of a setting. -/
inductive Value where
  | scalar (text : Bytes)
  | list (items : List Bytes)
  deriving DecidableEq, Repr

/-- The elements of a list: blank pieces count for nothing and the others must be quoted. -/
def elements (pieces : List Bytes) : Except SettingFault (List Bytes) :=
  (pieces.map trimmed).filter (!·.isEmpty) |>.mapM fun item =>
    match unquoted? item with
    | some text => .ok text
    | none => .error (.unquotedElement item)

/-- The inside of a list.  The pieces before the last are looked at first, then whether a quote is
open, then the last piece. -/
def readList (body : Bytes) : Except SettingFault (List Bytes) := do
  let pieces := splitUnquoted false body
  let firsts ← elements pieces.dropLast
  if endsQuoted body then throw .unterminatedString
  let last ← elements pieces.getLast?.toList
  return firsts ++ last

/-- A value: a list if it starts with a bracket, else a scalar. -/
def readValue (key value : Bytes) : Except SettingFault Value :=
  if value.head? = some (ascii '[') then
    if value.getLast? = some (ascii ']') then (readList value.tail.dropLast).map .list
    else .error (.unterminatedList key)
  else .ok (.scalar ((unquoted? value).getD value))

/-- What a line says. -/
inductive Line where
  | blank
  /-- The header of the section. -/
  | header
  | setting (key : Bytes) (value : Value)
  deriving DecidableEq, Repr

/-- The name of the only section. -/
def sectionName : Bytes := bytes "discovery"

/-- The full name of a key, with its section. -/
def fullName (key : Bytes) : Bytes := sectionName ++ bytes "." ++ key

/-- The known keys. -/
inductive Key where
  | headers
  | cc
  | ppflags
  | cflags
  | extraCflags
  | lang
  | filter
  | verbose
  deriving DecidableEq, Repr

namespace Key

/-- All known keys. -/
def all : List Key := [headers, cc, ppflags, cflags, extraCflags, lang, filter, verbose]

/-- A key as it is written in a settings file. -/
def name : Key → Bytes
  | headers => bytes "headers"
  | cc => bytes "cc"
  | ppflags => bytes "ppflags"
  | cflags => bytes "cflags"
  | extraCflags => bytes "extra_cflags"
  | lang => bytes "lang"
  | filter => bytes "filter"
  | verbose => bytes "verbose"

/-- The known key with a given full name. -/
def ofFullName? (text : Bytes) : Option Key := all.find? (fullName ·.name == text)

end Key

/-- A section header after its opening bracket: the first closing bracket ends it. -/
def readHeader (rest : Bytes) : Except SettingFault Line :=
  if rest.contains (ascii ']') then
    let name := trimmed (rest.takeWhile (· != ascii ']'))
    if name = sectionName then .ok .header else .error (.unknownSection name)
  else .error .unterminatedHeader

/-- A line with a key; `opened` says whether a section has begun. -/
def readAssignment (opened : Bool) (line : Bytes) : Except SettingFault Line :=
  match line.dropWhile (· != ascii '=') with
  | [] => .error (.notAssignment line)
  | _ :: value =>
    if !opened then .error .outsideSection
    else
      let key := fullName (trimmed (line.takeWhile (· != ascii '=')))
      (readValue key (trimmed value)).map (.setting key)

/-- What a line of the text says. -/
def readLine (opened : Bool) (text : Bytes) : Except SettingFault Line :=
  match trimmed (stripComment false text) with
  | [] => .ok .blank
  | b :: rest =>
    if b = ascii '[' then readHeader rest else readAssignment opened (b :: rest)

end Settings

/-- A key and its value, with the line that gives them. -/
structure Setting where
  key : Bytes
  value : Settings.Value
  line : Nat
  deriving DecidableEq, Repr

namespace Settings

/-- The settings of lines numbered from `number` on, or the number and fault of the first line
that cannot be read. -/
def readLines : Bool → Nat → List Bytes → Except (Nat × SettingFault) (List Setting)
  | _, _, [] => .ok []
  | opened, number, text :: rest =>
    match readLine opened text with
    | .error fault => .error (number, fault)
    | .ok .blank => readLines opened (number + 1) rest
    | .ok .header => readLines true (number + 1) rest
    | .ok (.setting key value) =>
      (readLines opened (number + 1) rest).map (⟨key, value, number⟩ :: ·)

/-- The settings of a text. -/
def read (text : Bytes) : Except (Nat × SettingFault) (List Setting) :=
  readLines false 1 text.lines

end Settings

/-- The items of a setting that has to be a list. -/
def Setting.items (s : Setting) : Except SettingFault (List Bytes) :=
  match s.value with
  | .list items => .ok items
  | .scalar _ => .error (.listExpected s.key)

/-- The text of a setting that has to be a scalar. -/
def Setting.scalar (s : Setting) : Except SettingFault Bytes :=
  match s.value with
  | .scalar text => .ok text
  | .list _ => .error (.scalarExpected s.key)

/-- A truth value, spelled out. -/
def Setting.boolean (s : Setting) : Except SettingFault Bool :=
  match s.scalar with
  | .error fault => .error fault
  | .ok text =>
    if text = bytes "true" then .ok true
    else if text = bytes "false" then .ok false
    else .error .notBoolean

namespace Configuration

variable [PatternEngine]

/-- The configuration after one setting.  A fault of the setting's own form is reported with its
place; a language or pattern that is not accepted is reported as such. -/
def assign (source : Bytes) (s : Setting) (c : Configuration) : Except Fault Configuration :=
  let items := s.items.mapError (Fault.setting source s.line)
  let scalar := s.scalar.mapError (Fault.setting source s.line)
  match Settings.Key.ofFullName? s.key with
  | none => .error (.setting source s.line (.unknownKey s.key))
  | some .headers => items.map fun headers => { c with headers }
  | some .cc => items.map fun compiler => { c with compiler }
  | some .ppflags => items.map fun flags => { c with dumpFlags := some flags }
  | some .cflags => items.map fun flags => { c with flags }
  | some .extraCflags => items.map fun extraFlags => { c with extraFlags }
  | some .lang =>
    (scalar.bind Language.ofName).map fun language => { c with language }
  | some .filter =>
    (scalar.bind Selector.ofPattern).map fun keep => { c with filter := some keep }
  | some .verbose =>
    (s.boolean.mapError (Fault.setting source s.line)).map fun verbose => { c with verbose }

/-- The configuration after as many settings as can be applied, and the fault of the first that
cannot. -/
def assignAll (source : Bytes) : List Setting → Configuration → Configuration × Option Fault
  | [], c => (c, none)
  | s :: rest, c =>
    match c.assign source s with
    | .ok c' => assignAll source rest c'
    | .error fault => (c, some fault)

/-- The configuration after a settings text, and the fault that ended it.  A text with a line that
cannot be read changes nothing. -/
def load (source text : Bytes) (c : Configuration) : Configuration × Option Fault :=
  match Settings.read text with
  | .error (line, fault) => (c, some (.setting source line fault))
  | .ok settings => c.assignAll source settings

/-- The configuration after the settings file of a path; a file that cannot be read has no
content. -/
def loadFile (path : Bytes) (content : Option Bytes) (c : Configuration) :
    Configuration × Option Fault :=
  match content with
  | some text => c.load path text
  | none => (c, some (.unreadable path))

end Configuration

end MacroConstants
