import MacroConstants.Literal
import MacroConstants.Resolver

/-!
# Constants

A constant has a name, perhaps the text it was written with, and a type and a value that are asked
for once and then remembered.

* `Progress` — how much is known: nothing, the type, or type and value.
* `Constant` — a constant and who can be asked about it.
* `Constant.unresolved`, `Constant.classified`, `Constant.expression` — the three ways to make one.
* `Constant.type`, `Constant.value` — the lazy answers.
-/

namespace MacroConstants

/-- How much of a constant is known.  A value is known only together with its type; a value that
was asked for and could not be had is known to be missing. -/
inductive Progress where
  | fresh
  | typed (type : TypeTag)
  | settled (type : TypeTag) (value : Option Value)
  deriving DecidableEq, Repr

namespace Progress

/-- The type, if known. -/
def type? : Progress → Option TypeTag
  | fresh => none
  | typed t | settled t _ => some t

/-- The value, if known; the inner `none` is a value known to be missing. -/
def value? : Progress → Option (Option Value)
  | settled _ v => some v
  | _ => none

end Progress

/-- A constant. -/
structure Constant where
  name : Bytes
  /-- The text the constant was written with. -/
  raw : Option Bytes
  /-- What a resolver is asked about, if one may be asked. -/
  subject : Option Bytes
  progress : Progress := .fresh
  deriving DecidableEq, Repr

namespace Constant

/-- A macro whose text does not settle it: questions are about its name. -/
def unresolved (name : Bytes) (raw : Option Bytes) (asks : Bool := true) : Constant where
  name := name
  raw := raw
  subject := if asks then some name else none

/-- A macro whose type and value are given; nobody is asked. -/
def classified (name raw : Bytes) (type : TypeTag) (value : Value) : Constant where
  name := name
  raw := some raw
  subject := none
  progress := .settled type (some value)

/-- A macro whose text is a literal. -/
def literal (name raw : Bytes) (value : Value) : Constant := classified name raw value.type value

/-- An expression: questions are about its text.  An asserted type is not asked for, and an
expression asserted to be `other` has no value. -/
def expression (text : Bytes) (asserted : Option TypeTag := none) (asks : Bool := true) :
    Constant where
  name := text
  raw := some text
  subject := if asks then some text else none
  progress :=
    match asserted with
    | none => .fresh
    | some .other => .settled .other none
    | some t => .typed t

/-- Whether the type is known. -/
def typeKnown (c : Constant) : Bool := c.progress.type?.isSome

/-- Whether the value is known, or known to be missing. -/
def valueKnown (c : Constant) : Bool := c.progress.value?.isSome

/-- The type of the subject; without a subject it is `other`. -/
def askType {σ : Type} (r : Resolver σ) (c : Constant) (s : σ) : TypeTag × σ :=
  match c.subject with
  | some text => r.type text s
  | none => (.other, s)

/-- The value of the subject at a type; without a subject, or at `other`, there is none. -/
def askValue {σ : Type} (r : Resolver σ) (c : Constant) (t : TypeTag) (s : σ) :
    Option Value × σ :=
  match c.subject with
  | some text => r.valueAt t text s
  | none => (none, s)

/-- The type, asked for if it is not yet known. -/
def type {σ : Type} (r : Resolver σ) (c : Constant) (s : σ) : TypeTag × Constant × σ :=
  match c.progress with
  | .fresh =>
    let (t, s) := c.askType r s
    (t, { c with progress := .typed t }, s)
  | .typed t | .settled t _ => (t, c, s)

/-- The value, asked for if it is not yet known, after the type. -/
def value {σ : Type} (r : Resolver σ) (c : Constant) (s : σ) : Option Value × Constant × σ :=
  match c.progress with
  | .settled _ v => (v, c, s)
  | _ =>
    let (t, c, s) := c.type r s
    let (v, s) := c.askValue r t s
    (v, { c with progress := .settled t v }, s)

section Names

variable {σ : Type} (r : Resolver σ) (c : Constant) (s : σ)

@[simp]
theorem name_type : (c.type r s).2.1.name = c.name := by
  unfold type
  split <;> rfl

@[simp]
theorem name_value : (c.value r s).2.1.name = c.name := by
  unfold value
  split
  · rfl
  · exact name_type r c s

end Names

end Constant

end MacroConstants
