import MacroConstants.Bytes

/-!
# Files

A tree of names over numbered file contents, and the open files that read and write them.

* `Path`, `Node` — where a file is, and what is there.
* `FileSystem` — names, contents and open files.
* `FileSystem.resolve` — the place a relative or absolute path leads to.
* `FileSystem.read`, `FileSystem.write` — what goes through an open file.
-/

namespace MacroConstants

/-- A place in the tree: the names on the way from the root. -/
abbrev Path := List Bytes

/-- What is found at a place. -/
inductive Node where
  /-- A file by the number of its content. -/
  | file (number : Nat) (executable : Bool)
  | directory
  /-- A program that is installed. -/
  | program (name : Bytes)
  /-- The device that swallows everything. -/
  | null
  /-- Another name for what a descriptor of the process is open for. -/
  | descriptor (n : Nat)
  deriving DecidableEq, Repr

/-- Whether it can be run as a program. -/
def Node.isExecutable : Node → Bool
  | file _ executable => executable
  | program _ => true
  | _ => false

/-- Why a path cannot be used. -/
inductive PathFault where
  | missing
  | notDirectory
  | isDirectory
  | taken
  | notEmpty
  | denied
  | invalid
  deriving DecidableEq, Repr

/-- The wording of a fault. -/
def PathFault.message : PathFault → Bytes
  | missing => bytes "No such file or directory"
  | notDirectory => bytes "Not a directory"
  | isDirectory => bytes "Is a directory"
  | taken => bytes "File exists"
  | notEmpty => bytes "Directory not empty"
  | denied => bytes "Permission denied"
  | invalid => bytes "Invalid argument"

/-- What an open file is open for. -/
inductive Channel where
  | file (number : Nat)
  | directory
  | null
  deriving DecidableEq, Repr

/-- An open file. -/
structure OpenFile where
  channel : Channel
  /-- Where the next byte is read or written. -/
  offset : Nat := 0
  /-- Whether everything is written at the end. -/
  appends : Bool := false
  reads : Bool := false
  writes : Bool := false
  deriving DecidableEq, Repr

/-- How a file is opened by its path. -/
inductive OpenMode where
  | read
  /-- Writing to an emptied or new file. -/
  | write
  /-- Writing at the end. -/
  | append
  /-- Reading and writing; a new file if there is none. -/
  | both
  deriving DecidableEq, Repr

/-- Names, contents and open files. -/
structure FileSystem where
  entries : List (Path × Node) := []
  contents : Array ByteArray := #[]
  opened : Array OpenFile := #[]
  /-- The names under which programs are installed. -/
  programs : List Bytes := []

namespace FileSystem

/-- The directories that are always there. -/
def standardDirectories : List Path :=
  [[], [bytes "bin"], [bytes "usr"], [bytes "usr", bytes "bin"], [bytes "dev"], [bytes "tmp"],
   [bytes "root"]]

/-- The directories programs are installed in. -/
def programDirectories : List Path := [[bytes "usr", bytes "bin"], [bytes "bin"]]

/-- The devices. -/
def devices : List (Path × Node) :=
  [([bytes "dev", bytes "null"], .null), ([bytes "dev", bytes "stdin"], .descriptor 0),
   ([bytes "dev", bytes "stdout"], .descriptor 1), ([bytes "dev", bytes "stderr"], .descriptor 2)]

variable (f : FileSystem)

/-- What is found at a place, if anything. -/
def node? (p : Path) : Option Node :=
  match f.entries.lookup p with
  | some n => some n
  | none =>
    if standardDirectories.contains p then some .directory
    else
      match devices.lookup p with
      | some n => some n
      | none =>
        match p.getLast? with
        | some name =>
          if programDirectories.contains p.dropLast && f.programs.contains name then
            some (.program name)
          else none
        | none => none

/-- Follows names from a place, which is kept in reverse; a place that is passed has to be a
directory. -/
def walk : Path → List Bytes → Except PathFault Path
  | place, [] => .ok place.reverse
  | place, name :: names =>
    match f.node? place.reverse with
    | none => .error .missing
    | some .directory =>
      if name.isEmpty || name == bytes "." then walk place names
      else if name == bytes ".." then walk place.tail names
      else walk (name :: place) names
    | some _ => .error .notDirectory

/-- The place a path leads to from a directory; there need not be anything at its end. -/
def resolve (directory : Path) (path : Bytes) : Except PathFault Path :=
  match path with
  | [] => .error .missing
  | b :: _ =>
    let names := path.splitOn (ascii '/')
    if b = ascii '/' then f.walk [] names else f.walk directory.reverse names

/-- The place a path leads to, and what is there. -/
def find (directory : Path) (path : Bytes) : Except PathFault (Path × Node) :=
  match f.resolve directory path with
  | .error fault => .error fault
  | .ok place =>
    match f.node? place with
    | some n => .ok (place, n)
    | none => .error .missing

/-- What a file holds. -/
def content (number : Nat) : ByteArray := f.contents.getD number .empty

/-- The bytes of the file a path leads to. -/
def readPath (directory : Path) (path : Bytes) : Except PathFault Bytes :=
  match f.find directory path with
  | .error fault => .error fault
  | .ok (_, .file number _) => .ok (f.content number).toList
  | .ok (_, .directory) => .error .isDirectory
  | .ok _ => .ok []

/-- Whether the first byte string comes before the second one or is equal to it. -/
def before : Bytes → Bytes → Bool
  | [], _ => true
  | _ :: _, [] => false
  | a :: s, b :: t => a < b || (a == b && before s t)

/-- The names in a directory, in order. -/
def names (p : Path) : List Bytes :=
  let own := f.entries.filterMap fun (q, _) => if q.dropLast = p then q.getLast? else none
  own.mergeSort before

/-- Puts something at a place, in place of what is there. -/
def put (p : Path) (n : Node) : FileSystem :=
  { f with entries := f.entries.filter (·.1 != p) ++ [(p, n)] }

/-- Takes away what is at a place. -/
def remove (p : Path) : FileSystem := { f with entries := f.entries.filter (·.1 != p) }

/-- Takes away what is at a place and everything below it. -/
def removeAll (p : Path) : FileSystem :=
  { f with entries := f.entries.filter fun e => !p.isPrefixOf e.1 }

/-- Moves what is at a place, with everything below it, to another place. -/
def move (source target : Path) : FileSystem :=
  let g := f.removeAll target
  { g with entries := g.entries.map fun (p, n) =>
      match source.isPrefixOf? p with
      | some rest => (target ++ rest, n)
      | none => (p, n) }

/-- A new content that no name leads to, by its number. -/
def store (content : ByteArray) : Nat × FileSystem :=
  (f.contents.size, { f with contents := f.contents.push content })

/-- Puts a new file with a content at a place. -/
def create (p : Path) (content : Bytes) (executable : Bool) : FileSystem :=
  let (number, f) := f.store (ByteArray.mk content.toArray)
  f.put p (.file number executable)

/-- Puts a file at a place, with the directories on the way. -/
def install (p : Path) (content : Bytes) (executable : Bool) : FileSystem :=
  let above := (List.range p.length).map p.take
  let f := above.foldl (fun f d => if (f.node? d).isSome then f else f.put d .directory) f
  f.create p content executable

/-- The largest number of a content that a name leads to, plus one. -/
def bound : Nat :=
  f.entries.foldl (fun n e =>
    match e.2 with
    | .file number _ => max n (number + 1)
    | _ => n) 0

/-- Whether a name leads to a content. -/
def isNamed (number : Nat) : Bool :=
  f.entries.any fun e =>
    match e.2 with
    | .file n _ => n == number
    | _ => false

/-- Forgets open files, and contents after the last one that a name leads to. -/
def settle : FileSystem := { f with opened := #[], contents := f.contents.take f.bound }

/-- Replaces what a file holds. -/
def setContent (number : Nat) (content : ByteArray) : FileSystem :=
  { f with contents := f.contents.setIfInBounds number content }

/-! ### Open files -/

/-- A further open file, by its number. -/
def addOpen (o : OpenFile) : Nat × FileSystem :=
  (f.opened.size, { f with opened := f.opened.push o })

/-- An open file for a content, which is emptied first where that is asked for. -/
def openContent (number : Nat) : OpenMode → Nat × FileSystem
  | .read => f.addOpen { channel := .file number, reads := true }
  | .write => (f.setContent number .empty).addOpen { channel := .file number, writes := true }
  | .append => f.addOpen { channel := .file number, writes := true, appends := true }
  | .both => f.addOpen { channel := .file number, reads := true, writes := true }

/-- The number of an open file for a path.  Where a descriptor is meant, `descriptor?` gives the
open file of that. -/
def openPath (descriptor? : Nat → Option Nat) (directory : Path) (path : Bytes) (mode : OpenMode) :
    Except PathFault (Nat × FileSystem) :=
  match f.resolve directory path with
  | .error fault => .error fault
  | .ok place =>
    match f.node? place with
    | some (.file number _) => .ok (f.openContent number mode)
    | some .null => .ok (f.addOpen { channel := .null, reads := true, writes := true })
    | some .directory =>
      if mode = .read then .ok (f.addOpen { channel := .directory, reads := true })
      else .error .isDirectory
    | some (.program _) =>
      if mode = .read then .ok (f.addOpen { channel := .null, reads := true })
      else .error .denied
    | some (.descriptor n) =>
      match (descriptor? n).bind fun i => f.opened[i]? with
      | none => .error .missing
      | some o =>
        match o.channel with
        | .file number => .ok (f.openContent number mode)
        | _ => .ok (f.addOpen { o with offset := 0 })
    | none =>
      if mode = .read then .error .missing
      else
        match f.node? place.dropLast with
        | some .directory =>
          let (number, f) := f.store .empty
          .ok ((f.put place (.file number false)).openContent number mode)
        | some _ => .error .notDirectory
        | none => .error .missing

/-- What an open file still has to be read, and whether it can be read. -/
def unread? (i : Nat) : Option ByteArray :=
  match f.opened[i]? with
  | some o =>
    if !o.reads then none
    else
      match o.channel with
      | .file number =>
        let content := f.content number
        some (content.extract o.offset content.size)
      | .null => some .empty
      | .directory => none
  | none => none

/-- Moves an open file on by a number of bytes. -/
def advance (i n : Nat) : FileSystem :=
  { f with opened := f.opened.modify i fun o => { o with offset := o.offset + n } }

/-- The bytes up to and with the next newline, of those an open file still has to be read. -/
def readLine (i : Nat) : Option Bytes × FileSystem :=
  match f.opened[i]? with
  | some { channel := .file number, offset, reads := true, .. } =>
    let content := f.content number
    let stop := match content.findIdx? (· == ascii '\n') offset with
      | some n => n + 1
      | none => content.size
    (some (content.extract offset stop).toList, f.advance i (stop - offset))
  | some { channel := .null, reads := true, .. } => (some [], f)
  | _ => (none, f)

/-- Everything an open file still has to be read. -/
def readAll (i : Nat) : Option Bytes × FileSystem :=
  match f.unread? i with
  | some rest => (some rest.toList, f.advance i rest.size)
  | none => (none, f)

/-- A content with text at an offset, over what was there; a gap is filled with zeros. -/
def overwrite (content : ByteArray) (offset : Nat) (text : ByteArray) : ByteArray :=
  if offset = content.size then content ++ text
  else if content.size < offset then
    content ++ ByteArray.mk (Array.replicate (offset - content.size) 0) ++ text
  else content.extract 0 offset ++ text ++ content.extract (offset + text.size) content.size

/-- Writes to an open file; fails if it is not open for writing. -/
def write (i : Nat) (text : Bytes) : Option FileSystem :=
  match f.opened[i]? with
  | some o =>
    if !o.writes then none
    else
      match o.channel with
      | .null => some f
      | .directory => none
      | .file number =>
        let text := ByteArray.mk text.toArray
        let size := (f.content number).size
        let offset := if o.appends then size else o.offset
        some
          { f with
            contents := f.contents.modify number (overwrite · offset text)
            opened := f.opened.setIfInBounds i { o with offset := offset + text.size } }
  | none => none

end FileSystem

end MacroConstants
