import MacroConstants.ByteSet

/-!
# Regular expressions with groups

Expressions whose matches are located in a text, with what their groups matched.

* `Regex` — the expressions.
* `Regex.ends` — where matches from a place can end.
* `Regex.attempt` — the groups of a match, the longest repetitions first.
* `Regex.find` — the first match in a text; of those that start there, a longest one.
-/

namespace MacroConstants.Utility

/-- A condition on a place in a text. -/
inductive Border where
  | start
  | stop
  | wordStart
  | wordStop
  | wordEdge
  | noWordEdge
  deriving DecidableEq, Repr

/-- A regular expression. -/
inductive Regex where
  | empty
  | one (set : ByteSet)
  | border (b : Border)
  | seq (first second : Regex)
  | alt (left right : Regex)
  /-- At least `least` times, and at most `most` times if that is given. -/
  | repeat (body : Regex) (least : Nat) (most : Option Nat)
  /-- What the body matches is remembered by a number. -/
  | group (number : Nat) (body : Regex)
  /-- What a group matched, once more. -/
  | again (number : Nat)
  deriving DecidableEq, Repr

/-- The same set without distinction of case. -/
def caseless (set : ByteSet) : ByteSet :=
  let other (b : UInt8) : UInt8 := if Bytes.isLetter b then b ^^^ 0x20 else b
  let all := (List.range 256).map Nat.toUInt8
  let named : ByteSet := { set with complemented := false }
  { set with
    ranges :=
      (all.filter fun b => named.contains b || named.contains (other b)).map fun b => (b, b) }

/-- What each group matched: its number and where that starts and ends. -/
abbrev Groups := List (Nat × Nat × Nat)

/-- A match: where it starts and ends, and its groups. -/
structure Match where
  start : Nat
  stop : Nat
  groups : Groups := []
  deriving DecidableEq, Repr

namespace Border

/-- Whether the byte at a place belongs to a word. -/
def wordAt (text : ByteArray) (i : Nat) : Bool := (text[i]?.map Bytes.isWord).getD false

/-- Whether a condition holds at a place. -/
def holds (text : ByteArray) (i : Nat) : Border → Bool
  | start => i == 0
  | stop => i == text.size
  | wordStart => !(i != 0 && wordAt text (i - 1)) && wordAt text i
  | wordStop => (i != 0 && wordAt text (i - 1)) && !wordAt text i
  | wordEdge => (i != 0 && wordAt text (i - 1)) != wordAt text i
  | noWordEdge => (i != 0 && wordAt text (i - 1)) == wordAt text i

end Border

namespace Regex

/-- Without distinction of case. -/
def caseless : Regex → Regex
  | one set => one (Utility.caseless set)
  | seq p q => seq p.caseless q.caseless
  | alt p q => alt p.caseless q.caseless
  | .repeat p least most => .repeat p.caseless least most
  | group n p => group n p.caseless
  | p => p

/-- Whether a group is matched once more. -/
def repeats : Regex → Bool
  | again _ => true
  | seq p q | alt p q => p.repeats || q.repeats
  | .repeat p _ _ | group _ p => p.repeats
  | _ => false

/-- How many groups there are. -/
def groupCount : Regex → Nat
  | seq p q | alt p q => p.groupCount + q.groupCount
  | .repeat p _ _ => p.groupCount
  | group _ p => p.groupCount + 1
  | _ => 0

/-! ### Where matches end -/

/-- `step` from every place, each place once. -/
def image (step : Nat → List Nat) (places : List Nat) : List Nat :=
  (places.flatMap step).eraseDups

/-- `step` exactly `n` times. -/
def times (step : Nat → List Nat) : Nat → List Nat → List Nat
  | 0, places => places
  | n + 1, places => times step n (image step places)

/-- `step` at most `n` times; what was reached before is not left again. -/
def upTo (step : Nat → List Nat) : Nat → List Nat → List Nat → List Nat
  | 0, reached, _ => reached
  | n + 1, reached, fresh =>
    let next := (image step fresh).filter (!reached.contains ·)
    if next.isEmpty then reached else upTo step n (reached ++ next) next

/-- The places where a match from a place can end; groups are not remembered. -/
def ends (text : ByteArray) : Regex → Nat → List Nat
  | empty, i => [i]
  | one set, i =>
    match text[i]? with
    | some b => if set.contains b then [i + 1] else []
    | none => []
  | border b, i => if b.holds text i then [i] else []
  | seq p q, i => image (ends text q) (ends text p i)
  | alt p q, i => (ends text p i ++ ends text q i).eraseDups
  | .repeat p least most, i =>
    let reached := times (ends text p) least [i]
    upTo (ends text p) ((most.map (· - least)).getD (text.size + 1)) reached reached
  | group _ p, i => ends text p i
  | again _, i => [i]

/-! ### What groups match -/

/-- What follows a match: it takes the place the match ends at, and may refuse it. -/
abbrev Goal := Nat → Groups → Option Match

/-- As many repetitions as the goal allows; one beyond the least number has to go on. -/
def attemptMany (step : Nat → Groups → Goal → Option Match) (goal : Goal) :
    Nat → Nat → Option Nat → Nat → Groups → Option Match
  | 0, _, _, i, g => goal i g
  | n + 1, least + 1, most, i, g =>
    step i g fun j g => attemptMany step goal n least (most.map (· - 1)) j g
  | _ + 1, 0, some 0, i, g => goal i g
  | n + 1, 0, most, i, g =>
    (step i g fun j h => if j = i then none else attemptMany step goal n 0 (most.map (· - 1)) j h)
      <|> goal i g

/-- A match from a place that the goal accepts. -/
def attempt (text : ByteArray) : Regex → Nat → Groups → Goal → Option Match
  | empty, i, g, goal => goal i g
  | one set, i, g, goal =>
    match text[i]? with
    | some b => if set.contains b then goal (i + 1) g else none
    | none => none
  | border b, i, g, goal => if b.holds text i then goal i g else none
  | seq p q, i, g, goal => attempt text p i g fun j h => attempt text q j h goal
  | alt p q, i, g, goal => attempt text p i g goal <|> attempt text q i g goal
  | .repeat p least most, i, g, goal =>
    attemptMany (attempt text p) goal (least + text.size + 1) least most i g
  | group n p, i, g, goal =>
    attempt text p i g fun j h => goal j ((n, i, j) :: h.filter (·.1 != n))
  | again n, i, g, goal =>
    match g.lookup n with
    | none => none
    | some (start, stop) =>
      if text.extract start stop = text.extract i (i + (stop - start)) then
        goal (i + (stop - start)) g
      else none

/-- The match from a place whose end is accepted; without groups that are matched once more it is a
longest one. -/
def matchAt? (p : Regex) (text : ByteArray) (accepts : Nat → Bool) (i : Nat) : Option Match :=
  let upTo (goal : Nat → Bool) : Option Match :=
    p.attempt text i [] fun stop groups => if goal stop then some ⟨i, stop, groups⟩ else none
  if p.repeats then upTo accepts
  else
    match (p.ends text i).filter accepts with
    | [] => none
    | places =>
      let longest := places.foldl max i
      upTo (· == longest)

/-- The first match among `n` places; `accepts` looks at where it starts and ends. -/
def findFrom (p : Regex) (text : ByteArray) (accepts : Nat → Nat → Bool) :
    Nat → Nat → Option Match
  | 0, _ => none
  | n + 1, i => p.matchAt? text (accepts i) i <|> findFrom p text accepts n (i + 1)

/-- The first accepted match at a place or after it. -/
def findWith (p : Regex) (text : ByteArray) (accepts : Nat → Nat → Bool) (i : Nat) :
    Option Match :=
  p.findFrom text accepts (text.size + 1 - i) i

/-- The first match at a place or after it. -/
def find (p : Regex) (text : ByteArray) (i : Nat) : Option Match :=
  p.findWith text (fun _ _ => true) i

/-- Whether there is a match anywhere. -/
def isMatch (p : Regex) (text : ByteArray) : Bool := (p.find text 0).isSome

end Regex

end MacroConstants.Utility
