import MacroConstants.Fault

/-!
# Which names are kept

Patterns are compiled and matched by an engine that does not belong to the program.  Everything that
takes a pattern is written for any engine.

* `Selector` — which macro names are kept.
* `Selector.default` — names that do not start with an underscore.
* `PatternEngine` — what is asked of an engine.
* `Selector.ofPattern` — names in which a pattern is found.
-/

namespace MacroConstants

/-- Decides which macro names are kept. -/
abbrev Selector := Bytes → Bool

/-- An engine for regular expressions: of a pattern it says in which texts it is found, or in its
own words what is wrong with it. -/
class PatternEngine where
  compile : Bytes → Except Bytes (Bytes → Bool)

namespace Selector

/-- Keeps non-empty names that do not start with an underscore. -/
def default : Selector
  | [] => false
  | b :: _ => b != ascii '_'

/-- Keeps every name. -/
def all : Selector := fun _ => true

/-- Keeps the names in which a pattern is found. -/
def ofPattern [PatternEngine] (pattern : Bytes) : Except Fault Selector :=
  (PatternEngine.compile pattern).mapError (.filter pattern)

end Selector

end MacroConstants
