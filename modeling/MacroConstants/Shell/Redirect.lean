import MacroConstants.Shell.Expansion

/-!
# Redirections

* `Shell.redirectAll` — points descriptors elsewhere, in order.
* `Shell.redirected` — runs something with descriptors pointed elsewhere.
-/

namespace MacroConstants.Shell

variable (output : Command → Action Bytes)

/-- Points a descriptor at an open file. -/
def point (descriptor file : Nat) : Action Unit :=
  modify fun s =>
    { s with descriptors := (descriptor, file) :: s.descriptors.filter (·.1 != descriptor) }

/-- Makes a descriptor a duplicate of another one. -/
def duplicate (descriptor source : Nat) : Action Unit := do
  match (← get).descriptors.lookup source with
  | some file => point descriptor file
  | none => fail (Numeral.decimal source ++ bytes ": Bad file descriptor")

/-- Closes a descriptor. -/
def closeDescriptor (descriptor : Nat) : Action Unit :=
  modify fun s => { s with descriptors := s.descriptors.filter (·.1 != descriptor) }

/-- The wording of a fault, where a path that leads nowhere is worded as `missing`. -/
def PathFault.wording (missing : String) (fault : PathFault) : Bytes :=
  match fault with
  | .missing | .notDirectory => bytes missing
  | fault => fault.message

/-- Opens a file for a descriptor. -/
def openFor (descriptor : Nat) (how : Opening) (path : Bytes) : Action Unit := do
  let s ← get
  let mode : OpenMode := match how with
    | .input => .read
    | .output | .replace => .write
    | .append => .append
    | .both => .both
  let guarded := s.options.contains (ascii 'C') && how == .output
  let taken := match s.files.find s.directory path with
    | .ok (_, .file _ _) => true
    | _ => false
  if guarded && taken then fail (bytes "cannot create " ++ path ++ bytes ": File exists")
  else
    match s.files.openPath (s.descriptors.lookup ·) s.directory path mode with
    | .ok (file, files) =>
      set { s with files }
      point descriptor file
    | .error fault =>
      if how = .input then
        fail (bytes "cannot open " ++ path ++ bytes ": " ++ PathFault.wording "No such file" fault)
      else
        fail (bytes "cannot create " ++ path ++ bytes ": " ++
          PathFault.wording "Directory nonexistent" fault)

/-- Makes a text the input of a descriptor. -/
def feed (descriptor : Nat) (text : Bytes) : Action Unit := do
  let s ← get
  let (number, files) := s.files.store (ByteArray.mk text.toArray)
  let (file, files) := files.openContent number .read
  set { s with files }
  point descriptor file

/-- A redirection whose words are expanded. -/
inductive Target where
  | openFile (descriptor : Nat) (how : Opening) (path : Bytes)
  | duplicate (descriptor source : Nat)
  | close (descriptor : Nat)
  | document (descriptor number : Nat)
  deriving DecidableEq, Repr

/-- Expands the words of a redirection; a document is expanded when it is read. -/
def expandRedirection : Redirection → Action Target
  | .openFile d how path => return .openFile d how (← expandText output path)
  | .duplicate d source => return .duplicate d source
  | .close d => return .close d
  | .duplicateWord d word => do
    match ← expandText output word with
    | [b] =>
      if Bytes.isDigit b then return .duplicate d (Numeral.value 10 [b])
      else if b = ascii '-' then return .close d
      else fail (bytes "Syntax error: Bad fd number")
    | _ => fail (bytes "Syntax error: Bad fd number")
  | .document d number => return .document d number

/-- Carries out a redirection. -/
def redirect : Target → Action Unit
  | .openFile d how path => openFor d how path
  | .duplicate d source => if d = source then return () else duplicate d source
  | .close d => closeDescriptor d
  | .document d number => do
    let w := (← get).documents.getD number []
    feed d (flat (← expandPieces output ⟨false, false⟩ w))

/-- Expands redirections and carries them out; whether that was possible. -/
def redirectAll (rs : List Redirection) : Action Bool := do
  let targets ← rs.mapM (expandRedirection output)
  tryCatch (do
    targets.forM (redirect output)
    return true) fun
    | .failure => return false
    | ending => throw ending

/-- Runs something while descriptors are pointed elsewhere; `failed` if that is not possible. -/
def redirecting {α : Type} (rs : List Redirection) (failed body : Action α) : Action α := do
  let before := (← get).descriptors
  ensuring (fun s => { s with descriptors := before }) do
    if ← redirectAll output rs then body else failed

end MacroConstants.Shell
