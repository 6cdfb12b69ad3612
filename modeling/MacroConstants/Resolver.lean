import MacroConstants.Value

/-!
# Resolvers

What can be asked about an expression: its type, and its value at a type.  Answering may change
the state of the one who answers, so answers may differ from call to call.

* `Resolver` — the two questions, over any state.
* `Resolver.valueAt` — the second question, which is not put at `other`.
* `Query`, `Resolver.recorded` — every question written down.
* `Answers.resolver` — answers known in advance.
-/

namespace MacroConstants

/-- Answers questions about expressions; `σ` is the state that answering changes. -/
structure Resolver (σ : Type) where
  type : Bytes → σ → TypeTag × σ
  value : TypeTag → Bytes → σ → Option Value × σ

/-- A question about an expression. -/
inductive Query where
  | type (expression : Bytes)
  | value (type : TypeTag) (expression : Bytes)
  deriving DecidableEq, Repr

namespace Resolver

variable {σ τ : Type}

/-- The value of an expression at a type; at `other` there is none and nobody is asked. -/
def valueAt (r : Resolver σ) (type : TypeTag) (expression : Bytes) (s : σ) : Option Value × σ :=
  match type with
  | .other => (none, s)
  | type => r.value type expression s

/-- A resolver that knows nothing. -/
def ignorant : Resolver σ where
  type _ s := (.other, s)
  value _ _ s := (none, s)

/-- A resolver for a part of a larger state. -/
def lift (get : τ → σ) (set : σ → τ → τ) (r : Resolver σ) : Resolver τ where
  type expression t :=
    let (answer, s) := r.type expression (get t)
    (answer, set s t)
  value type expression t :=
    let (answer, s) := r.value type expression (get t)
    (answer, set s t)

/-- The same answers, with each question appended to a list. -/
def recorded (r : Resolver σ) : Resolver (σ × List Query) where
  type expression s :=
    let (answer, t) := r.type expression s.1
    (answer, t, s.2 ++ [.type expression])
  value type expression s :=
    let (answer, t) := r.value type expression s.1
    (answer, t, s.2 ++ [.value type expression])

end Resolver

/-- Answers known in advance.  An expression without a type is `other`; a value is given whatever
type is asked for. -/
structure Answers where
  types : List (Bytes × TypeTag) := []
  values : List (Bytes × Value) := []
  deriving Repr

/-- Gives the known answers and changes nothing. -/
def Answers.resolver {σ : Type} (a : Answers) : Resolver σ where
  type expression s := ((a.types.lookup expression).getD .other, s)
  value _ expression s := (a.values.lookup expression, s)

end MacroConstants
