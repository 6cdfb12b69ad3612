import MacroConstants.Utility.Words

/-!
# Utilities on files

* `Utility.rm`, `Utility.rmdir` — take files and directories away.
* `Utility.mkdir`, `Utility.touch`, `Utility.mktemp` — make new ones.
* `Utility.cp`, `Utility.mv` — copy and move them.
* `Utility.chmod`, `Utility.ls` — their modes and names.
-/

namespace MacroConstants.Utility

/-- A text between quotes. -/
def quoted (s : Bytes) : Bytes := bytes "'" ++ s ++ bytes "'"

/-- Does something for every operand; the status says whether all of it could be done. -/
def forOperands (operands : List Bytes) (act : Bytes → Job Bool) : Job Nat := do
  let done ← operands.mapM act
  return if done.all id then 0 else 1

/-- Complains that something cannot be done. -/
def cannot (name what : String) (operand : Bytes) (fault : PathFault) : Job Bool := do
  warn name (bytes what ++ bytes " " ++ quoted operand ++ bytes ": " ++ fault.message)
  return false

/-- The place of something that can be put there: its directory has to exist. -/
def placeFor (path : Bytes) : Job (Except PathFault Path) := do
  let f ← get
  match f.resolve (← read).directory path with
  | .error fault => return .error fault
  | .ok place =>
    match f.node? place.dropLast with
    | some .directory => return .ok place
    | some _ => return .error .notDirectory
    | none => return .error .missing

/-! ### Taking away -/

/-- Takes away files, and with `r` directories. -/
def rm : Utility := fun args =>
  let long := [("recursive", "r", false), ("force", "f", false), ("dir", "d", false),
    ("verbose", "v", false)]
  withOptions "rm" (table "rRfdviI" long) 1 args fun o => do
    let all := o.has "r" || o.has "R"
    let removed (operand : Bytes) (place : Path) (what : String) : Job Bool := do
      modify (·.removeAll place)
      if o.has "v" then Job.say (bytes what ++ quoted operand ++ bytes "\n")
      return true
    if o.operands.isEmpty then
      if o.has "f" then return 0 else refuse "rm" (bytes "missing operand")
    else
      forOperands o.operands fun operand => do
        let name := lastName operand
        match ← Job.find operand with
        | .error fault =>
          if o.has "f" && (fault == .missing || fault == .notDirectory) then return true
          else cannot "rm" "cannot remove" operand fault
        | .ok (place, .directory) =>
          if all && (name == bytes "." || name == bytes "..") then
            warn "rm"
              (bytes "refusing to remove '.' or '..' directory: skipping " ++ quoted operand)
            return false
          else if all then removed operand place "removed directory "
          else if !o.has "d" then cannot "rm" "cannot remove" operand .isDirectory
          else if ((← get).names place).isEmpty then removed operand place "removed directory "
          else cannot "rm" "cannot remove" operand .notEmpty
        | .ok (place, _) => removed operand place "removed "

/-- Takes away empty directories. -/
def rmdir : Utility := fun args =>
  withOptions "rmdir" (table "pv" [("parents", "p", false)]) 1 args fun o => do
    let removeOne (operand : Bytes) : Job Bool := do
      match ← Job.find operand with
      | .error fault => cannot "rmdir" "failed to remove" operand fault
      | .ok (place, .directory) =>
        if ((← get).names place).isEmpty then
          modify (·.remove place)
          return true
        else cannot "rmdir" "failed to remove" operand .notEmpty
      | .ok _ => cannot "rmdir" "failed to remove" operand .notDirectory
    let rec above : Nat → Bytes → List Bytes
      | 0, path => [path]
      | n + 1, path =>
        let parent := directoryName path
        if parent = bytes "." ∨ parent = bytes "/" then [path] else path :: above n parent
    if o.operands.isEmpty then refuse "rmdir" (bytes "missing operand")
    else
      forOperands o.operands fun operand => do
        let paths := if o.has "p" then above operand.length operand else [operand]
        paths.foldlM (fun ok path => if ok then removeOne path else return false) true

/-! ### Making -/

/-- Makes directories, with `p` also those on the way. -/
def mkdir : Utility := fun args =>
  let long := [("parents", "p", false), ("mode", "m", true), ("verbose", "v", false)]
  withOptions "mkdir" (table "pm:v" long) 1 args fun o => do
    let made (path : Bytes) : Job Unit :=
      if o.has "v" then
        Job.say (bytes "mkdir: created directory " ++ quoted path ++ bytes "\n")
      else pure ()
    let makeOne (path : Bytes) : Job (Option PathFault) := do
      match ← placeFor (withoutSlashes path) with
      | .error fault => return some fault
      | .ok place =>
        if ((← get).node? place).isSome then return some .taken
        else
          modify (·.put place .directory)
          made path
          return none
    let ways (path : Bytes) : List Bytes :=
      let names := (withoutSlashes path).splitOn (ascii '/')
      (List.range names.length).map fun i => (bytes "/").intercalate (names.take (i + 1))
    let makeAll (operand : Bytes) : Job Bool := do
      let steps := (ways operand).filter (!·.isEmpty)
      let fault ← steps.foldlM (fun fault path => do
        match fault, ← Job.find path with
        | some fault, _ => return some fault
        | none, .ok (_, .directory) => return none
        | none, .ok _ =>
          let isLast := path == withoutSlashes operand
          return some (path, if isLast then PathFault.taken else .notDirectory)
        | none, .error _ => return (← makeOne path).map fun fault => (path, fault)) none
      match fault with
      | none => return true
      | some (path, fault) => cannot "mkdir" "cannot create directory" path fault
    if o.operands.isEmpty then refuse "mkdir" (bytes "missing operand")
    else
      forOperands o.operands fun operand => do
        if o.has "p" then makeAll operand
        else
          match ← makeOne operand with
          | none => return true
          | some fault => cannot "mkdir" "cannot create directory" operand fault

/-- Makes empty files where there are none. -/
def touch : Utility := fun args =>
  let long := [("no-create", "c", false), ("date", "d", true), ("reference", "r", true)]
  withOptions "touch" (table "acmd:r:t:h" long) 1 args fun o => do
    if o.operands.isEmpty then refuse "touch" (bytes "missing file operand")
    else
      forOperands o.operands fun operand => do
        match ← Job.find operand with
        | .ok _ => return true
        | .error .missing =>
          if o.has "c" then return true
          else
            match ← Job.writePath operand [] .append with
            | none => return true
            | some fault => cannot "touch" "cannot touch" operand fault
        | .error fault => cannot "touch" "cannot touch" operand fault

/-- Letters that stand for a number, filled up to a width. -/
def lettersOf : Nat → Nat → Bytes
  | 0, _ => []
  | width + 1, n => lettersOf width (n / 26) ++ [(97 + n % 26).toUInt8]

/-- Makes a file or directory with a new name, and prints it. -/
def mktemp : Utility := fun args =>
  let long := [("directory", "d", false), ("dry-run", "u", false), ("quiet", "q", false),
    ("tmpdir", "p", true)]
  withOptions "mktemp" (table "duqtp:" long) 1 args fun o => do
    let given := o.operands.head?
    let template := given.getD (bytes "tmp.XXXXXXXXXX")
    let below ← if o.has "p" then pure (o.get? "p")
      else if o.has "t" || given.isNone then
        pure (some (((← Job.value? (bytes "TMPDIR")).filter (!·.isEmpty)).getD (bytes "/tmp")))
      else pure none
    let template := match below with
      | some d => d ++ bytes "/" ++ template
      | none => template
    let marks := (template.reverse.takeWhile (· == ascii 'X')).length
    if marks < 3 then
      warn "mktemp" (bytes "too few X's in template " ++ quoted (given.getD []))
      return 1
    else
      let name := template.take (template.length - marks)
        ++ lettersOf marks (← get).contents.size
      let what := if o.has "d" then "directory" else "file"
      match ← placeFor name with
      | .error fault =>
        if !o.has "q" then
          warn "mktemp" (bytes ("failed to create " ++ what ++ " via template ") ++ quoted template
            ++ bytes ": " ++ fault.message)
        return 1
      | .ok place =>
        if o.has "u" then pure ()
        else if o.has "d" then modify (·.put place .directory)
        else modify fun f => f.create place [] false
        Job.say (name ++ bytes "\n")
        return 0

/-! ### Copying and moving -/

/-- Copies what is at a place, with everything below it, to another place. -/
def copyTree (source target : Path) (f : FileSystem) : FileSystem :=
  let found := f.entries.filter fun e => source.isPrefixOf e.1
  found.foldl (fun f (p, node) =>
    let place := target ++ p.drop source.length
    match node, f.node? place with
    | .file number executable, some (.file old was) =>
      (f.setContent old (f.content number)).put place (.file old (was || executable))
    | .file number executable, _ => f.create place (f.content number).toList executable
    | node, _ => f.put place node) f

/-- Copies or moves one thing to a path. -/
def transferOne (name : String) (o : Options) (source target : Bytes) : Job Bool := do
  let moves := name == "mv"
  match ← Job.find source with
  | .error fault => cannot name "cannot stat" source fault
  | .ok (from_, node) =>
    if node = .directory && !moves && !(o.has "r" || o.has "R" || o.has "a") then
      warn name (bytes "-r not specified; omitting directory " ++ quoted source)
      return false
    else
      let old := (← Job.find target).toOption
      let tail := bytes (if moves then "cannot move " else "cannot create regular file ")
        ++ (if moves then quoted source ++ bytes " to " else []) ++ quoted target
      match ← placeFor (if node = .directory then withoutSlashes target else target) with
      | .error fault =>
        warn name (tail ++ bytes ": " ++ fault.message)
        return false
      | .ok place =>
        if old.any (·.1 == from_) then
          warn name (quoted source ++ bytes " and " ++ quoted target ++ bytes " are the same file")
          return false
        else if from_.isPrefixOf place then
          warn name (bytes (if moves then "cannot move " else "cannot copy a directory, ")
            ++ quoted source ++ bytes (if moves then " to a subdirectory of itself, "
              else ", into itself, ") ++ quoted target)
          return false
        else if o.has "n" && old.isSome then return true
        else
          match node, old with
          | .directory, some (_, .file ..) =>
            warn name (bytes "cannot overwrite non-directory " ++ quoted target
              ++ bytes " with directory " ++ quoted source)
            return false
          | _, _ =>
            if o.has "v" then
              Job.say ((if moves then bytes "renamed " else []) ++ quoted source ++ bytes " -> "
                ++ quoted target ++ bytes "\n")
            if moves then modify (·.move from_ place)
            else
              match ← Job.readPath source, old with
              | .ok text, none => modify fun f => f.create place text node.isExecutable
              | .ok text, some _ => let _ ← Job.writePath target text .write
              | .error _, _ => modify (copyTree from_ place)
            return true

/-- Copies or moves files to a path or into a directory. -/
def transfer (name : String) (o : Options) : Job Nat := do
  let into := o.get? "t"
  let operands := o.operands ++ into.toList
  match operands.reverse with
  | [] => refuse name (bytes "missing file operand")
  | [one] => refuse name (bytes "missing destination file operand after " ++ quoted one)
  | target :: sources =>
    let sources := sources.reverse
    let inside (source : Bytes) : Bytes :=
      (if target.getLast? = some (ascii '/') then target else target ++ bytes "/") ++
        lastName source
    match ← Job.find target with
    | .ok (_, .directory) =>
      if o.has "T" then forOperands sources fun s => transferOne name o s target
      else forOperands sources fun s => transferOne name o s (inside s)
    | result =>
      if 1 < sources.length || into.isSome then
        let fault := match result with
          | .error fault => fault
          | .ok _ => PathFault.notDirectory
        let _ ← cannot name "target" target fault
        return 1
      else forOperands sources fun s => transferOne name o s target

/-- Copies files. -/
def cp : Utility := fun args =>
  let long := [("recursive", "r", false), ("archive", "a", false), ("force", "f", false),
    ("no-clobber", "n", false), ("verbose", "v", false), ("target-directory", "t", true),
    ("no-target-directory", "T", false)]
  withOptions "cp" (table "rRafpnvdiut:TLPH" long) 1 args (transfer "cp")

/-- Moves files. -/
def mv : Utility := fun args =>
  let long := [("force", "f", false), ("no-clobber", "n", false), ("verbose", "v", false),
    ("target-directory", "t", true), ("no-target-directory", "T", false)]
  withOptions "mv" (table "finvut:T" long) 1 args (transfer "mv")

/-! ### Modes and names -/

/-- Whether a file is executable after a mode was applied to it. -/
def changedMode (mode : Bytes) (executable : Bool) : Option Bool :=
  if !mode.isEmpty && mode.all Bytes.isOctal then some (Numeral.value 8 mode % 512 &&& 0o111 != 0)
  else
    (mode.splitOn (ascii ',')).foldl (fun state clause => do
      let was ← state
      let who := clause.takeWhile (bytes "ugoa").contains
      match clause.drop who.length with
      | op :: letters =>
        if !letters.all (bytes "rwxXst").contains then none
        else
          let runs := letters.contains (ascii 'x')
          let everyone := who.isEmpty || who.contains (ascii 'a') || who.contains (ascii 'u')
          if op = ascii '+' then some (was || runs)
          else if op = ascii '-' then some (was && !(runs && everyone))
          else if op = ascii '=' then some (runs || (was && !everyone))
          else none
      | [] => none) (some executable)

/-- Changes the modes of files. -/
def chmod : Utility := fun args => do
  let options := args.takeWhile [bytes "-R", bytes "-f", bytes "-v", bytes "--"].contains
  match args.drop options.length with
  | [] => refuse "chmod" (bytes "missing operand")
  | [mode] => refuse "chmod" (bytes "missing operand after " ++ quoted mode)
  | mode :: operands =>
    if (changedMode mode false).isNone then
      refuse "chmod" (bytes "invalid mode: " ++ quoted mode)
    else
      forOperands operands fun operand => do
        match ← Job.find operand with
        | .error fault => cannot "chmod" "cannot access" operand fault
        | .ok (place, .file number executable) =>
          modify (·.put place (.file number ((changedMode mode executable).getD executable)))
          return true
        | .ok _ => return true

/-- The names that are listed of a directory. -/
def listed (o : Options) (names : List Bytes) : List Bytes :=
  let hidden (name : Bytes) : Bool := name.head? == some (ascii '.')
  let shown := if o.has "a" || o.has "A" then names else names.filter (!hidden ·)
  let shown := if o.has "a" then bytes "." :: bytes ".." :: shown else shown
  if o.has "r" then shown.reverse else shown

/-- Lists files and the names in directories. -/
def ls : Utility := fun args =>
  let long := [("all", "a", false), ("almost-all", "A", false), ("directory", "d", false),
    ("reverse", "r", false)]
  withOptions "ls" (table "aA1drpFCx" long) 2 args fun o => do
    let operands := if o.operands.isEmpty then [bytes "."] else o.operands
    let found ← operands.mapM fun operand => do return (operand, ← Job.find operand)
    found.forM fun (operand, result) => do
      match result with
      | .error fault => let _ ← cannot "ls" "cannot access" operand fault
      | .ok _ => pure ()
    let isDirectory (result : Except PathFault (Path × Node)) : Bool :=
      !o.has "d" && (result.toOption.any fun r => r.2 == .directory)
    let sorted (entries : List (Bytes × Except PathFault (Path × Node))) :=
      let inOrder := entries.mergeSort fun a b => FileSystem.before a.1 b.1
      if o.has "r" then inOrder.reverse else inOrder
    let files := sorted (found.filter fun (_, r) => r.toBool && !isDirectory r)
    let directories := sorted (found.filter fun (_, r) => isDirectory r)
    let mark (node : Option Node) : Bytes :=
      if (o.has "p" || o.has "F") && node == some .directory then bytes "/"
      else if o.has "F" && (node matches some (.file _ true)) then bytes "*" else []
    let f ← get
    files.forM fun (name, r) => Job.say (name ++ mark (r.toOption.map (·.2)) ++ bytes "\n")
    directories.zipIdx.forM fun ((name, r), i) => do
      let place := (r.toOption.map (·.1)).getD []
      let heading :=
        (if files.isEmpty && i = 0 then [] else bytes "\n")
          ++ (if operands.length = 1 then [] else name ++ bytes ":\n")
      Job.say (heading ++ (listed o (f.names place)).flatMap fun entry =>
        entry ++ mark (f.node? (place ++ [entry])) ++ bytes "\n")
    return if found.all (·.2.toBool) then 0 else 2

end MacroConstants.Utility
