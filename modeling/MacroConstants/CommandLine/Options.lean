import MacroConstants.Configuration.SettingsFile
import MacroConstants.Report

/-!
# Command-line options

An option is introduced by one or two dashes; its value follows an equals sign or is the next
argument.  The values of `-I` and `-D` may follow the letter directly.  Everything else is a
header, and so is everything after two dashes.

* `CommandLine.Occurrence`, `CommandLine.occurrences` — what the arguments say, in order.
* `Options`, `Options.ofArguments` — the options they amount to.
* `Options.config` — the configuration: environment, settings file, options.
-/

namespace MacroConstants

namespace CommandLine

/-- An option that takes a value. -/
inductive Key where
  | config
  | language
  | compiler
  | flags
  | includePath
  | define
  | extraFlag
  | filter
  | format
  | expression
  | type
  deriving DecidableEq, Repr

namespace Key

/-- All options that take a value. -/
def all : List Key :=
  [config, language, compiler, flags, includePath, define, extraFlag, filter, format, expression,
   type]

/-- An option as it is written after its dashes. -/
def name : Key → Bytes
  | config => bytes "config"
  | language => bytes "x"
  | compiler => bytes "cc"
  | flags => bytes "cflags"
  | includePath => bytes "I"
  | define => bytes "D"
  | extraFlag => bytes "extra-cflag"
  | filter => bytes "filter"
  | format => bytes "format"
  | expression => bytes "eval"
  | type => bytes "type"

/-- Whether a value may follow the name directly. -/
def attached (k : Key) : Bool := k == includePath || k == define

/-- The option of a name. -/
def ofName? (text : Bytes) : Option Key := all.find? (·.name == text)

end Key

/-- An option without a value. -/
inductive Flag where
  | resolve
  | verbose
  deriving DecidableEq, Repr

/-- The flag of a name. -/
def Flag.ofName? (text : Bytes) : Option Flag :=
  if text = bytes "resolve" then some .resolve
  else if text = bytes "v" then some .verbose else none

/-- What an argument, perhaps with the next one, says. -/
inductive Occurrence where
  | header (name : Bytes)
  | flag (f : Flag)
  | value (k : Key) (text : Bytes)
  deriving DecidableEq, Repr

/-- An argument that is not understood. -/
inductive UsageFault where
  | unknown (argument : Bytes)
  | missingValue (k : Key)
  | unknownFormat (name : Bytes)
  deriving DecidableEq, Repr

/-- The wording of a fault of usage. -/
def UsageFault.message : UsageFault → Bytes
  | unknown argument => bytes "unknown argument '" ++ argument ++ bytes "'"
  | missingValue k => bytes "option '" ++ k.name ++ bytes "' requires a value"
  | unknownFormat name => bytes "unknown format '" ++ name ++ bytes "'"

/-- The text after one or two dashes; an argument without dash, or that is only a dash, is no
option. -/
def afterDashes? (argument : Bytes) : Option Bytes :=
  match argument with
  | b :: c :: rest =>
    if b = ascii '-' then some (if c = ascii '-' then rest else c :: rest) else none
  | _ => none

/-- An option, as far as one argument tells. -/
inductive Spelling where
  | flag (f : Flag)
  | complete (k : Key) (text : Bytes)
  /-- The value is the next argument. -/
  | open (k : Key)
  deriving DecidableEq, Repr

/-- The option a text after the dashes spells: a whole name, a name before an equals sign, or an
option whose value follows directly. -/
def spelling? (text : Bytes) : Option Spelling :=
  let name := text.takeWhile (· != ascii '=')
  let value? := match text.dropWhile (· != ascii '=') with
    | [] => none
    | _ :: value => some value
  match Key.ofName? name, value? with
  | some k, some value => some (.complete k value)
  | some k, none => some (.open k)
  | none, _ =>
    match Flag.ofName? text with
    | some f => some (.flag f)
    | none =>
      (Key.all.filter Key.attached).findSome? fun k =>
        (k.name.isPrefixOf? text).map fun value => .complete k value

/-- What the arguments say, in order.  Two ways of writing are left out: a file of arguments that is
named after an at sign is taken for a header, and a flag with a truth value, as in `-v=false`, is
not understood. -/
def occurrences : List Bytes → Except UsageFault (List Occurrence)
  | [] => .ok []
  | argument :: rest =>
    if argument = bytes "--" then .ok (rest.map .header)
    else
      match afterDashes? argument with
      | none => (occurrences rest).map (.header argument :: ·)
      | some text =>
        match spelling? text with
        | none => .error (.unknown argument)
        | some (.flag f) => (occurrences rest).map (.flag f :: ·)
        | some (.complete k value) => (occurrences rest).map (.value k value :: ·)
        | some (.open k) =>
          match rest with
          | [] => .error (.missingValue k)
          | value :: rest => (occurrences rest).map (.value k value :: ·)

/-- The values of an option, in order. -/
def valuesOf (k : Key) (os : List Occurrence) : List Bytes :=
  os.filterMap fun
    | .value k' text => if k' = k then some text else none
    | _ => none

/-- The headers, in order. -/
def headersOf (os : List Occurrence) : List Bytes :=
  os.filterMap fun
    | .header name => some name
    | _ => none

end CommandLine

/-- The options of a run. -/
structure Options where
  headers : List Bytes := []
  settingsFile : Option Bytes := none
  language : Option Bytes := none
  compiler : Option Bytes := none
  flags : Option Bytes := none
  includePaths : List Bytes := []
  defines : List Bytes := []
  extraFlags : List Bytes := []
  filter : Option Bytes := none
  resolve : Bool := false
  format : Report.Format := .text
  expression : Option Bytes := none
  type : Option Bytes := none
  verbose : Bool := false
  deriving DecidableEq, Repr

namespace Options

open CommandLine in
/-- The options that occurrences amount to; of an option given twice the last value counts. -/
def ofOccurrences (os : List Occurrence) : Except UsageFault Options := do
  let last (k : Key) : Option Bytes := (valuesOf k os).getLast?
  let format ← match last .format with
    | none => pure Report.Format.text
    | some name =>
      match Report.Format.ofName? name with
      | some format => pure format
      | none => throw (.unknownFormat name)
  return {
    headers := headersOf os
    settingsFile := last .config
    language := last .language
    compiler := last .compiler
    flags := last .flags
    includePaths := valuesOf .includePath os
    defines := valuesOf .define os
    extraFlags := valuesOf .extraFlag os
    filter := last .filter
    resolve := os.contains (.flag .resolve)
    format
    expression := last .expression
    type := last .type
    verbose := os.contains (.flag .verbose) }

/-- The options that arguments amount to. -/
def ofArguments (args : List Bytes) : Except CommandLine.UsageFault Options :=
  (CommandLine.occurrences args).bind ofOccurrences

/-- The extra compiler flags that the options add: include paths, definitions, further flags. -/
def addedFlags (o : Options) : List Bytes :=
  o.includePaths.map (bytes "-I" ++ ·) ++ o.defines.map (bytes "-D" ++ ·) ++ o.extraFlags

variable [PatternEngine]

/-- The configuration after the settings file, if one is named; `read` gives the files that can
be read. -/
def fromFile (o : Options) (read : Bytes → Option Bytes) (c : Configuration) :
    Except Fault Configuration :=
  match o.settingsFile with
  | none | some [] => .ok c
  | some path =>
    match c.loadFile path (read path) with
    | (c, none) => .ok c
    | (_, some fault) => .error fault

/-- The configuration with what the options override. -/
def override (o : Options) (c : Configuration) : Except Fault Configuration := do
  let language ← (o.language.map Language.ofName).getD (.ok c.language)
  let filter ←
    match o.filter with
    | some pattern => (Selector.ofPattern pattern).map some
    | none => .ok c.filter
  return { c with
    headers := if o.headers.isEmpty then c.headers else o.headers
    language
    compiler := (o.compiler.map splitWords).getD c.compiler
    flags := (o.flags.map splitWords).getD c.flags
    extraFlags := c.extraFlags ++ o.addedFlags
    filter
    verbose := o.verbose || c.verbose }

/-- The configuration of a run: what the environment gives, then the settings file, then the
options. -/
def config (o : Options) (env : Environment) (read : Bytes → Option Bytes) :
    Except Fault Configuration :=
  (o.fromFile read (.ofEnvironment env)).bind o.override

end Options

end MacroConstants
