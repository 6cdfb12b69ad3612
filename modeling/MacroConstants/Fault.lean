import MacroConstants.Bytes.Numeral
import MacroConstants.Language
import MacroConstants.TypeTag
import MacroConstants.Words

/-!
# Faults

Everything that ends an operation early, as causes; the wording is in one place.

* `CommandFailure` — a command that was run and failed, and how it is described.
* `SettingFault` — what is wrong with one line of a settings file.
* `Fault` — all causes.
* `Fault.message` — the wording, and `Fault.shown` — as much of it as reaches a reader.
* `Language.ofName`, `TypeTag.ofName` — spellings that have to be known.
-/

namespace MacroConstants

/-- A command that exited with a status other than zero or was killed by a signal. -/
structure CommandFailure where
  argv : List Bytes
  stderr : Bytes
  /-- The exit status, or the number of the signal. -/
  status : Int
  signaled : Bool
  deriving DecidableEq, Repr

namespace CommandFailure

/-- The command line as it would be typed. -/
def commandLine (f : CommandFailure) : Bytes := joinWords f.argv

/-- What happened to which command. -/
def message (f : CommandFailure) : Bytes :=
  bytes "command: " ++ f.commandLine ++ bytes " failed" ++
    (if f.signaled then bytes " (killed by signal " else bytes " (exit status ") ++
    Numeral.signed f.status ++ bytes ")"

end CommandFailure

/-- What is wrong with one line of a settings file. -/
inductive SettingFault where
  | unterminatedHeader
  | unknownSection (name : Bytes)
  | notAssignment (line : Bytes)
  | outsideSection
  | unterminatedList (key : Bytes)
  | unterminatedString
  | unquotedElement (item : Bytes)
  | listExpected (key : Bytes)
  | scalarExpected (key : Bytes)
  | notBoolean
  | unknownKey (key : Bytes)
  deriving DecidableEq, Repr

/-- The wording of a line's fault, without the place. -/
def SettingFault.message : SettingFault → Bytes
  | unterminatedHeader => bytes "unterminated section header"
  | unknownSection name => bytes "unknown section [" ++ name ++ bytes "]"
  | notAssignment line => bytes "expected key = value, got: " ++ line
  | outsideSection => bytes "key outside of [discovery] section"
  | unterminatedList key => bytes "unterminated list for " ++ key
  | unterminatedString => bytes "unterminated string"
  | unquotedElement item => bytes "list elements must be quoted strings: " ++ item
  | listExpected key => key ++ bytes " should be a list of strings"
  | scalarExpected key => key ++ bytes " should be a string, not a list"
  | notBoolean => bytes "verbose should be true or false"
  | unknownKey key => bytes "unknown key " ++ key

/-- Everything that ends an operation early. -/
inductive Fault where
  | language (name : Bytes)
  | typeTag (name : Bytes)
  /-- A pattern that its engine refuses, and the engine's words. -/
  | filter (pattern reason : Bytes)
  | setting (source : Bytes) (line : Nat) (fault : SettingFault)
  | unreadable (path : Bytes)
  | noCompiler
  | noFilter
  | command (failure : CommandFailure)
  | sourceRefused (reason : Bytes)
  | sourceUnwritten (path reason : Bytes)
  deriving DecidableEq, Repr

namespace Fault

/-- The wording of a fault. -/
def message : Fault → Bytes
  | language name => bytes "lang should be one of c or c++ (got '" ++ name ++ bytes "')"
  | typeTag name =>
    bytes "type should be one of: string, int, long, pointer, float, double or other (got '" ++
      name ++ bytes "')"
  | filter pattern reason => bytes "invalid filter '" ++ pattern ++ bytes "': " ++ reason
  | setting source line fault =>
    source ++ bytes ":" ++ Numeral.decimal line ++ bytes ": " ++ fault.message
  | unreadable path => bytes "cannot open " ++ path
  | noCompiler => bytes "no C compiler configured; set CC or pass --cc"
  | noFilter => bytes "name filter must not be empty"
  | command failure => failure.message
  | sourceRefused reason => bytes "cannot create temporary source: " ++ reason
  | sourceUnwritten path reason => bytes "cannot write " ++ path ++ bytes ": " ++ reason

/-- The wording as it is shown: a NUL inside it ends the text. -/
def shown (f : Fault) : Bytes := f.message.beforeNul

end Fault

/-- The language with a given name, which has to be one of the two. -/
def Language.ofName (name : Bytes) : Except Fault Language :=
  match ofName? name with
  | some language => .ok language
  | none => .error (.language name)

/-- The tag with a given spelling, which has to be one of the list. -/
def TypeTag.ofName (name : Bytes) : Except Fault TypeTag :=
  match ofName? name with
  | some tag => .ok tag
  | none => .error (.typeTag name)

end MacroConstants
