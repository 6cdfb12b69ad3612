import MacroConstants.Utility.Basic
import MacroConstants.Utility.Sed.Edit
import MacroConstants.Utility.Sed.Reader

/-!
# Editing files by a script

* `Utility.sed` — reads a script from its arguments and edits files, or standard input, by it.
-/

namespace MacroConstants.Utility

namespace Sed

/-- How a call ends that is not understood. -/
def usage : Job Nat := do
  Job.complain
    (bytes "Usage: sed [OPTION]... \x7bscript-only-if-no-other-script\x7d [input-file]...\n")
  return 1

/-- The lines of an input. -/
def linesFrom (mark : UInt8) (operand text : Bytes) : List Line :=
  let parts := text.splitOn mark
  let closed := parts.dropLast.map fun text => { text, closed := true, file := operand : Line }
  match parts.getLast? with
  | none | some [] => closed
  | some text => closed ++ [{ text, closed := false, file := operand }]

/-- What is said about an input that cannot be read. -/
def inputFault (operand : Bytes) : PathFault → Bytes
  | .isDirectory => bytes "read error on " ++ operand ++ bytes ": Is a directory"
  | fault => bytes "can't read " ++ operand ++ bytes ": " ++ fault.message

/-- The pieces of a script: those that options give, in order, or else the first operand. -/
def sources (o : Options) : Job (Except Bytes (List Source)) := do
  let given := o.given.filter fun g => g.1 == bytes "e" || g.1 == bytes "f"
  let number (i : Nat) : Bytes := bytes "-e expression #" ++ Numeral.decimal i
  if given.isEmpty then return .ok [⟨number 1, o.operands.headD []⟩]
  let found ← given.zipIdx.mapM fun ((kind, value), i) => do
    if kind = bytes "e" then
      let before := (given.take i).filter (·.1 == bytes "e")
      return Except.ok (Source.mk (number (before.length + 1)) value)
    else
      match ← input value with
      | .ok text =>
        let text := if text.getLast? = some (ascii '\n') then text.dropLast else text
        return .ok ⟨bytes "file " ++ value, text⟩
      | .error fault =>
        return .error (bytes "couldn't open file " ++ value ++ bytes ": " ++ fault.message)
  return found.mapM id

/-- Writes what was written to files. -/
def writeFiles (written : List (Bytes × Bytes)) : Job Unit :=
  written.forM fun (path, text) =>
    if path = bytes "/dev/stderr" then Job.complain text
    else do let _ ← Job.writePath path text .append

/-- Edits inputs one after the other, each by itself; what is printed goes where `deliver` says. -/
def editEach (s : Script) (deliver : Bytes → Bytes → Job Unit)
    (texts : List (Bytes × List Line)) : Job Nat := do
  let p ← read
  let statuses ← texts.mapM fun (operand, lines) => do
    let files ← get
    let edited := edit (fun path => (files.readPath p.directory path).toOption) s lines
    writeFiles edited.written
    deliver operand edited.out
    if edited.failed then
      warn "sed" (bytes "-e expression #1, char 0: no previous regular expression")
    return if edited.failed then 1 else edited.status
  return statuses.getLastD 0

/-- Edits the operands by a script. -/
def run (o : Options) (s : Script) (operands : List Bytes) (inPlace : Option Bytes) : Job Nat := do
  s.files.forM fun path => do
    if path = bytes "/dev/stdout" || path = bytes "/dev/stderr" then pure ()
    else let _ ← Job.writePath path [] .write
  let (texts, ok) ← inputs "sed" inputFault operands
  let texts := texts.map fun (operand, text) => (operand, linesFrom s.mark operand text)
  let status ← match inPlace with
    | some suffix =>
      editEach s (fun operand out => do
        if !suffix.isEmpty then
          match ← Job.readPath operand with
          | .ok old => let _ ← Job.writePath (operand ++ suffix) old .write
          | .error _ => pure ()
        let _ ← Job.writePath operand out .write) texts
    | none =>
      if o.has "s" then editEach s (fun _ out => Job.say out) texts
      else editEach s (fun _ out => Job.say out) [([], texts.flatMap (·.2))]
  if status = 0 && !ok then
    let found ← operands.mapM Job.readPath
    return if found.any (· matches .error .isDirectory) then 4 else 2
  else return status

end Sed

/-- Edits files by a script. -/
def sed : Utility := fun args => do
  let isInPlace (a : Bytes) : Bool :=
    (bytes "-i").isPrefixOf a || (bytes "--in-place").isPrefixOf a
  let suffix (a : Bytes) : Bytes :=
    if (bytes "-i").isPrefixOf a then a.drop 2 else a.drop (bytes "--in-place=").length
  let options := args.takeWhile (· != bytes "--")
  let inPlace := (options.find? isInPlace).map suffix
  let args := options.filter (!isInPlace ·) ++ args.drop options.length
  let long := [("quiet", "n", false), ("silent", "n", false), ("expression", "e", true),
    ("file", "f", true), ("regexp-extended", "E", false), ("separate", "s", false),
    ("unbuffered", "u", false), ("line-length", "l", true), ("null-data", "z", false),
    ("posix", "p", false)]
  match readOptions (table "ne:f:Ersuzl:i" long) args with
  | .error fault =>
    warn "sed" fault.message
    Sed.usage
  | .ok o =>
    let given := o.has "e" || o.has "f"
    if !given && o.operands.isEmpty then Sed.usage
    else
      match ← Sed.sources o with
      | .error text =>
        warn "sed" text
        return 4
      | .ok pieces =>
        match Sed.readScript pieces (o.has "E" || o.has "r") with
        | .error (text, status) =>
          warn "sed" text
          return status
        | .ok script =>
          let script := { script with
            quiet := script.quiet || o.has "n"
            mark := if o.has "z" then 0 else script.mark }
          let inPlace := inPlace <|> if o.has "i" then some [] else none
          Sed.run o script (if given then o.operands else o.operands.tail) inPlace

end MacroConstants.Utility
