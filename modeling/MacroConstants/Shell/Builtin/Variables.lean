import MacroConstants.Shell.Builtin.Print
import MacroConstants.Shell.Fields

/-!
# Built-in commands for variables, arguments and options

* `Shell.read` — a line of input as the values of variables.
* `Shell.setCommand`, `Shell.shift`, `Shell.getopts` — arguments and options.
* `Shell.declare`, `Shell.unset`, `Shell.makeLocal` — attributes of variables.
-/

namespace MacroConstants.Shell

/-- A text between single quotes, as it can be read again. -/
def quotedText (s : Bytes) : Bytes :=
  let plain (t : Bytes) : Bytes := bytes "'" ++ t ++ bytes "'"
  let rec go : Nat → Bytes → Bytes
    | 0, t => plain t
    | n + 1, t =>
      let text := t.takeWhile (· != ascii '\'')
      let rest := t.drop text.length
      let quotes := rest.takeWhile (· == ascii '\'')
      let rest := rest.drop quotes.length
      plain text ++ (if quotes.isEmpty then [] else bytes "\"" ++ quotes ++ bytes "\"")
        ++ (if rest.isEmpty then [] else go n rest)
  go s.length s

/-! ### Reading -/

/-- A line of input without its newline, and whether it had one.  Unless it is `raw`, a backslash
protects the byte after it and joins lines. -/
def readLogicalLine (raw : Bool) : Nat → Action (List LineByte × Bool)
  | 0 => return ([], false)
  | n + 1 => do
    let s ← get
    match s.descriptors.lookup 0 with
    | none => return ([], false)
    | some i =>
      let (line, files) := s.files.readLine i
      set { s with files }
      let line := (line.getD []).filter (· != 0)
      let ended := line.getLast? == some (ascii '\n')
      let text := if ended then line.dropLast else line
      if raw then return (text.map fun b => (false, b), ended)
      else
        let (cells, isOpen) := protect text
        if isOpen && ended then
          let (more, ended) ← readLogicalLine raw n
          return (cells ++ more, ended)
        else return (cells, ended)
where
  /-- Bytes with the marks of backslashes, and whether a backslash is left at the end. -/
  protect : Bytes → List LineByte × Bool
    | [] => ([], false)
    | [b] => if b = ascii '\\' then ([], true) else ([(false, b)], false)
    | b :: c :: rest =>
      if b = ascii '\\' then
        let (cells, isOpen) := protect rest
        ((true, c) :: cells, isOpen)
      else
        let (cells, isOpen) := protect (c :: rest)
        ((false, b) :: cells, isOpen)

/-- Gives the fields of a line to variables; variables without a field become empty. -/
def assignFields (names : List Bytes) (fields : List Bytes) : Action Unit :=
  match names, fields with
  | [], _ => return ()
  | name :: names, [] => do
    assign name []
    assignFields names []
  | name :: names, f :: fields => do
    assign name f
    assignFields names fields

/-- Reads a line into variables; fails at the end of the input. -/
def read : Builtin := fun args => do
  let (flags, names) ← options "p:r" args
  if names.isEmpty then fail (bytes "arg count")
  else
    let (line, ended) ← readLogicalLine (flags.any (·.1 == ascii 'r')) readingLimit
    assignFields names (lineFields (← separators) names.length line)
    return if ended then 0 else 1

/-! ### Attributes -/

/-- The name and value of an argument that is an assignment. -/
def splitAssignment (a : Bytes) : Bytes × Option Bytes :=
  match a.dropWhile (· != ascii '=') with
  | [] => (a, none)
  | _ :: value => (a.takeWhile (· != ascii '='), some value)

/-- The variables that have a value and an attribute, in order. -/
def listing (s : State) (which : Variable → Bool) : List (Bytes × Option Bytes) :=
  let found := s.bindings.filter fun (_, v) => which v
  (found.map fun (name, v) => (name, v.value)).mergeSort fun a b => FileSystem.before a.1 b.1

/-- Shows variables, each after a word. -/
def showVariables (word : Bytes) (all : List (Bytes × Option Bytes)) : Action Unit :=
  all.forM fun (name, v) =>
    say (word ++ name ++ (v.map fun v => bytes "=" ++ quotedText v).getD [] ++ bytes "\n")

/-- Gives variables an attribute, and perhaps a value; without arguments shows those that have the
attribute. -/
def declare (word : String) (which : Variable → Bool) (mark : Variable → Variable) : Builtin :=
  fun args => do
    let (flags, names) ← options "p" args
    if names.isEmpty || !flags.isEmpty then
      showVariables (bytes word ++ bytes " ") (listing (← get) which)
    else
      names.forM fun a => do
        let (name, v) := splitAssignment a
        if isName name then
          change name fun old => mark { old with value := v.or old.value }
        else fail (name ++ bytes ": bad variable name")
    return 0

/-- Exports variables. -/
def exportCommand : Builtin := declare "export" (·.exported) fun v => { v with exported := true }

/-- Makes variables constant. -/
def readonlyCommand : Builtin :=
  declare "readonly" (·.constant) fun v => { v with constant := true }

/-- Takes variables or functions away. -/
def unset : Builtin := fun args => do
  let (flags, names) ← options "vf" args
  let functions := (flags.getLast?.map (·.1)) == some (ascii 'f')
  names.forM fun name =>
    if functions then
      modify fun s => { s with functions := s.functions.filter (·.1 != name) }
    else if isName name then unassign name
    else fail (name ++ bytes ": bad variable name")
  return 0

/-- Makes variables those of the running function. -/
def makeLocal : Builtin := fun args => do
  if (← get).calls = 0 then fail (bytes "not in a function")
  else
    args.forM fun a => do
      let (name, v) := splitAssignment a
      if name = bytes "-" then return
      remember name
      match v with
      | some v => assign name v
      | none => if isName name then return else fail (name ++ bytes ": bad variable name")
    return 0

/-! ### Arguments and options -/

/-- The letters of the options, in the order they are shown in. -/
def optionLetters : Bytes := bytes "ubaCEVvxsnmiIfe"

/-- The names of the options with their letters, in the order they are listed in. -/
def optionNames : List (Bytes × UInt8) :=
  [(bytes "errexit", ascii 'e'), (bytes "noglob", ascii 'f'), (bytes "ignoreeof", ascii 'I'),
   (bytes "interactive", ascii 'i'), (bytes "monitor", ascii 'm'), (bytes "noexec", ascii 'n'),
   (bytes "stdin", ascii 's'), (bytes "xtrace", ascii 'x'), (bytes "verbose", ascii 'v'),
   (bytes "vi", ascii 'V'), (bytes "emacs", ascii 'E'), (bytes "noclobber", ascii 'C'),
   (bytes "allexport", ascii 'a'), (bytes "notify", ascii 'b'), (bytes "nounset", ascii 'u'),
   (bytes "nolog", 0), (bytes "debug", 0)]

/-- Sets an option or takes it back. -/
def setOption (on : Bool) (letter : UInt8) : Action Unit := do
  if optionLetters.contains letter then
    modify fun s =>
      let all := if on then letter :: s.options else s.options.filter (· != letter)
      { s with options := optionLetters.filter all.contains }
  else fail (bytes "Illegal option -" ++ [letter])

/-- Shows all options. -/
def showOptions (on : Bool) : Action Unit := do
  let s ← get
  if on then say (bytes "Current option settings\n")
  optionNames.forM fun (name, letter) =>
    let isOn := s.options.contains letter
    if on then
      say (name ++ List.replicate (16 - name.length) (ascii ' ') ++
        bytes (if isOn then "on\n" else "off\n"))
    else say (bytes (if isOn then "set -o " else "set +o ") ++ name ++ bytes "\n")

/-- Sets an option by its name. -/
def setNamedOption (on : Bool) (name : Bytes) : Action Unit := do
  match optionNames.lookup name with
  | some letter => if letter = 0 then return () else setOption on letter
  | none => fail (bytes "Illegal option -o " ++ name)

/-- Sets the options in a group of letters; gives back the arguments after it. -/
def setGroup (on : Bool) : Bytes → List Bytes → Action (List Bytes)
  | [], args => return args
  | c :: rest, args => do
    if c = ascii 'o' then
      match args with
      | [] =>
        showOptions on
        setGroup on rest []
      | name :: args =>
        setNamedOption on name
        setGroup on rest args
    else
      setOption on c
      setGroup on rest args

/-- Sets the options in front of arguments; gives back the arguments after them, and whether they
replace the arguments of the script even if there are none. -/
def setOptions : Nat → List Bytes → Action (List Bytes × Bool)
  | 0, args => return (args, false)
  | n + 1, args => do
    match args with
    | [0x2d] :: rest =>
      setOption false (ascii 'x')
      setOption false (ascii 'v')
      return (rest, false)
    | [0x2d, 0x2d] :: rest => return (rest, true)
    | (sign :: letters) :: rest =>
      if sign = ascii '-' ∨ sign = ascii '+' then
        setOptions n (← setGroup (sign == ascii '-') letters rest)
      else return (args, false)
    | args => return (args, false)

/-- Sets options and arguments; without any shows the variables. -/
def setCommand : Builtin := fun args => do
  if args.isEmpty then showVariables [] (listing (← get) (·.value.isSome))
  else
    let (rest, replaces) ← setOptions (args.length + 1) args
    if replaces || !rest.isEmpty then
      modify fun s => { s with arguments := rest, optionIndex := 1, optionPlace := 0 }
  return 0

/-- Drops arguments. -/
def shift : Builtin := fun args => do
  let n ← match args with
    | [] => pure 1
    | a :: _ => numberArgument a
  if (← get).arguments.length < n then fail (bytes "can't shift that many")
  else
    modify fun s =>
      { s with arguments := s.arguments.drop n, optionIndex := 1, optionPlace := 0 }
    return 0

/-! ### Options of a script -/

/-- What reading an option comes to: the letter, its argument, and the place after it. -/
structure OptionRead where
  letter : UInt8
  /-- Nothing if there is none; then the variable for it is taken away. -/
  argument : Option Bytes
  complaint : Option Bytes := none
  /-- The number of the argument read next. -/
  next : Nat
  /-- The place in the argument before that, if letters are left in it. -/
  place : Nat := 0

/-- Reads the next option of arguments; nothing at their end.  `allowed` says which letters there
are; a colon in front keeps complaints back. -/
def readOption (allowed : Bytes) (args : List Bytes) (index place : Nat) :
    Except Nat OptionRead :=
  let quiet := allowed.head? == some (ascii ':')
  let letters := if quiet then allowed.tail else allowed
  let current := if index ≤ 1 ∨ place = 0 then [] else ((args[index - 2]?).getD []).drop place
  let start : Except Nat (Bytes × Nat × Nat) :=
    if !current.isEmpty then .ok (current, index, place)
    else
      match args[index - 1]? with
      | some (0x2d :: c :: rest) =>
        if c = ascii '-' ∧ rest.isEmpty then .error (index + 1) else .ok (c :: rest, index + 1, 1)
      | _ => .error index
  match start with
  | .error next => .error next
  | .ok ([], next, _) => .error next
  | .ok (c :: rest, next, place) =>
    let onward := if rest.isEmpty then 0 else place + 1
    match (if c = ascii ':' then none else letters.idxOf? c) with
    | none =>
      .ok { letter := ascii '?', argument := if quiet then some [c] else none, next, place := onward
            complaint := if quiet then none else some (bytes "Illegal option -" ++ [c]) }
    | some i =>
      if letters[i + 1]? = some (ascii ':') then
        match rest, args[next - 1]? with
        | [], none =>
          if quiet then .ok { letter := ascii ':', argument := some [c], next }
          else
            .ok { letter := ascii '?', argument := none, next
                  complaint := some (bytes "No arg for -" ++ [c] ++ bytes " option") }
        | [], some a => .ok { letter := c, argument := some a, next := next + 1 }
        | rest, _ => .ok { letter := c, argument := some rest, next }
      else .ok { letter := c, argument := some [], next, place := onward }

/-- Reads the next option of the script, or of further arguments, into a variable. -/
def getopts : Builtin := fun args => do
  match args with
  | allowed :: name :: more =>
    let s ← get
    let all := if more.isEmpty then s.arguments else more
    match readOption allowed all s.optionIndex s.optionPlace with
    | .error next =>
      assign (bytes "OPTIND") (Numeral.decimal next)
      assign name (bytes "?")
      return 1
    | .ok r =>
      match r.complaint with
      | some text => put 2 (text ++ bytes "\n")
      | none => pure ()
      match r.argument with
      | some a => assign (bytes "OPTARG") a
      | none => unassign (bytes "OPTARG")
      assign (bytes "OPTIND") (Numeral.decimal r.next)
      modify fun s => { s with optionPlace := r.place }
      assign name [r.letter]
      return 0
  | _ => fail (bytes "Usage: getopts optstring var [arg...]")

end MacroConstants.Shell
