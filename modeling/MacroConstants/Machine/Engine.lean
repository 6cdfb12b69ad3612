import MacroConstants.Selector
import MacroConstants.Utility.Regex.Reader

/-!
# The pattern engine of the machine

The program takes any pattern engine.  On the machine that is built in, patterns are in the extended
notation of its utilities, except that a closing parenthesis that closes nothing stands for itself
and an anchor cannot be repeated.

* `Engine.read?` — the expression of a pattern.
* `Engine.finds` — whether it matches anywhere in a text.
* `Engine.builtIn` — the engine, which does not say what is wrong with a pattern.
-/

namespace MacroConstants.Engine

open Utility Utility.Regex

/-- Whether a mark may repeat what stands before it. -/
def repeatable : Option Token → Bool
  | none | some .groupStart | some .bar | some (.atom (.border _)) => false
  | _ => true

/-- Whether every mark has something to repeat; `last` is the token before. -/
def marksPut (last : Option Token) : List Token → Bool
  | [] => true
  | .mark least most :: ts => repeatable last && marksPut (some (.mark least most)) ts
  | t :: ts => marksPut (some t) ts

/-- The expression of a pattern. -/
def read? (pattern : Bytes) : Option Regex :=
  match tokens { extended := true } pattern.length none pattern with
  | .ok ts => if marksPut none ts then (collect true ts 0 { number := 0 } []).toOption else none
  | .error _ => none

/-- Whether an expression matches anywhere in a text. -/
def finds (p : Regex) (text : ByteArray) : Bool :=
  (List.range (text.size + 1)).any fun i =>
    if p.repeats then (p.matchAt? text (fun _ => true) i).isSome else !(p.ends text i).isEmpty

/-- What is said of every pattern that is refused. -/
def refusal : Bytes := bytes "<regex error>"

instance builtIn : PatternEngine where
  compile pattern :=
    match read? pattern with
    | some p => .ok fun text => finds p (ByteArray.mk text.toArray)
    | none => .error refusal

end MacroConstants.Engine
