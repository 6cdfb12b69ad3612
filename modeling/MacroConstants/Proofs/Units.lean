import MacroConstants.Proofs.Preprocessor

/-!
# Which question a unit was rendered for

A unit has include lines, perhaps declarations, and a function.  The names of headers and the
expression are any texts, so nothing in them shows where they end.  But a name without a newline
ends with its line, and what follows the include lines does not start as they do; a C++ unit that
asks for a type adds a line of its own, which would pass for a header's, and is told by the
declarations after it.  The signature of the function ends at the first newline and tells the
language and the type, and the name after it tells what is asked.  All that is around the expression
is known by then.

* `includeLines_append_inj` : include lines end where no further one starts.
* `Probe.Source.function_inj` : the parts of a function.
* `Probe.Source.Declares` : what a unit has after the lines of its headers, and the line it adds.
* `Probe.Source.Declares.inj` : it tells the language and the question.
* `Probe.Source.units_distinct` : **different questions are rendered as different units, which all
  start with the source file of the same headers.**
-/

namespace MacroConstants

variable {headers headers' : List Bytes} {rest rest' : Bytes}

/-! ### Include lines -/

/-- The name of each header stays on the line that includes it. -/
def OnLines (headers : List Bytes) : Prop := ∀ header ∈ headers, ascii '\n' ∉ header

instance : Decidable (OnLines headers) :=
  inferInstanceAs (Decidable (∀ header ∈ headers, ascii '\n' ∉ header))

/-- The first line ends at the first newline. -/
theorem includeLines_cons_append (header : Bytes) (headers : List Bytes) (rest : Bytes) :
    includeLines (header :: headers) ++ rest = bytes "#include <" ++
      ((header ++ [ascii '>']) ++ ascii '\n' :: (includeLines headers ++ rest)) := by
  have hend : bytes ">\n" = [ascii '>', ascii '\n'] := rfl
  simp [includeLines, hend]

theorem includeLines_append (headers headers' : List Bytes) :
    includeLines (headers ++ headers') = includeLines headers ++ includeLines headers' :=
  List.flatMap_append

theorem head?_includeLines_append (header : Bytes) (headers : List Bytes) (rest : Bytes) :
    (includeLines (header :: headers) ++ rest).head? = some (ascii '#') := by
  rw [includeLines_cons_append]
  rfl

/-- Include lines end where no further one starts. -/
theorem includeLines_append_inj (h : OnLines headers) (h' : OnLines headers')
    (hrest : rest.head? ≠ some (ascii '#')) (hrest' : rest'.head? ≠ some (ascii '#'))
    (heq : includeLines headers ++ rest = includeLines headers' ++ rest') :
    headers = headers' ∧ rest = rest' := by
  induction headers generalizing headers' with
  | nil =>
    cases headers' with
    | nil => exact ⟨rfl, heq⟩
    | cons header' headers' =>
      have hhead := head?_includeLines_append header' headers' rest'
      rw [← heq] at hhead
      exact absurd hhead hrest
  | cons header headers ih =>
    cases headers' with
    | nil =>
      have hhead := head?_includeLines_append header headers rest
      rw [heq] at hhead
      exact absurd hhead hrest'
    | cons header' headers' =>
      rw [OnLines, List.forall_mem_cons] at h h'
      rw [includeLines_cons_append, includeLines_cons_append, List.append_cancel_left_eq] at heq
      have hmarked : ∀ {name : Bytes}, ascii '\n' ∉ name → ascii '\n' ∉ name ++ [ascii '>'] := by
        intro name hname
        simp only [List.mem_append, List.mem_singleton, not_or]
        exact ⟨hname, by decide⟩
      have hname := Bytes.eq_of_append_cons (hmarked h.1) (hmarked h'.1) heq
      rw [hname, List.append_cancel_left_eq, List.cons.injEq] at heq
      obtain ⟨rfl, rfl⟩ := ih h.2 h'.2 heq.2
      exact ⟨congrArg (· :: headers) (List.append_cancel_right hname), rfl⟩

/-- The names of the headers can be read off their lines. -/
theorem includeLines_inj (h : OnLines headers) (h' : OnLines headers') :
    includeLines headers = includeLines headers' ↔ headers = headers' := by
  refine ⟨fun heq => ?_, congrArg includeLines⟩
  have heq : includeLines headers ++ [] = includeLines headers' ++ [] := congrArg (· ++ []) heq
  exact (includeLines_append_inj h h' (by simp) (by simp) heq).1

/-- A name with a newline can pass for two. -/
example : includeLines [bytes "a.h>\n#include <b.h"] = includeLines [bytes "a.h", bytes "b.h"] := by
  decide

/-- The preprocessor finds the include lines of the headers in its source file. -/
theorem Discovery.Preprocessed.sourceText {τ : Type} {h : Host τ} {c : Configuration}
    {s : RunState τ} {i : Invocation} {response : Response} {t : τ} (hplain : h.PlainNames)
    (hplaced : s.files.Placed h.temporary) (hp : Preprocessed h c s i response t) :
    i.sourceText = includeLines c.headers := by
  obtain ⟨⟨hfree, t₁, hunique, -⟩, -⟩ := hp
  rename_i unique t₂
  have hnew : h.Free s.files (bytes "c-macros") (bytes "." ++ c.language.suffix) unique :=
    ⟨hplain s.host unique (congrArg Prod.fst hunique), RunState.taken_eq_false_iff.1 hfree⟩
  have hread := hnew.read?_source hplaced (.text (includeLines c.headers))
  rw [Invocation.sourceText, invocation, hread]
  rfl

namespace Probe.Source

open Prober (Call)

variable {p q : Probe.Source} {l l' : Language} {t t' : TypeTag} {call call' : Call}
  {type type' symbol symbol' statement statement' e e' body body' unit : Bytes}
  {extra extra' : List Bytes}

/-! ### Functions -/

/-- The first line of a function: the linkage and the type. -/
def signature (l : Language) (type : Bytes) : Bytes := linkage l ++ type

theorem function_eq (l : Language) (type symbol statement : Bytes) :
    function l type symbol statement = signature l type ++ ascii '\n' ::
      (symbol ++ ascii '(' :: (bytes "void)\n\x7b\n" ++ (statement ++ bytes "\x7d\n"))) := by
  have hline : bytes "\n" = [ascii '\n'] := rfl
  have hopen : bytes "(void)\n\x7b\n" = ascii '(' :: bytes "void)\n\x7b\n" := rfl
  simp [function, signature, hline, hopen]

theorem returnType?_injective : Function.Injective TypeTag.returnType? := by
  have hall : ∀ t ∈ TypeTag.all, ∀ t' ∈ TypeTag.all, t.returnType? = t'.returnType? → t = t' := by
    decide
  have hmem : ∀ t : TypeTag, t ∈ TypeTag.all := fun t => by cases t <;> decide
  exact fun t t' => hall t (hmem t) t' (hmem t')

/-- A type is on one line, and starts neither as a linkage nor as another declaration nor as an
include line does. -/
theorem of_returnType? (h : t.returnType? = some type) :
    type ≠ [] ∧ ascii '\n' ∉ type ∧
      ∀ b ∈ [ascii 'e', ascii 't', ascii '#'], type.head? ≠ some b := by
  rw [List.forall_mem_cons, List.forall_mem_cons, List.forall_mem_singleton]
  cases t <;> cases h <;> decide

theorem newline_notMem_signature (h : t.returnType? = some type) :
    ascii '\n' ∉ signature l type := by
  have hlinkage : ascii '\n' ∉ linkage l := by cases l <;> decide
  rw [signature, List.mem_append, not_or]
  exact ⟨hlinkage, (of_returnType? h).2.1⟩

/-- A function starts neither as another declaration nor as an include line does. -/
theorem head?_function_ne (h : t.returnType? = some type) :
    ∀ b ∈ [ascii 't', ascii '#'], (function l type symbol statement).head? ≠ some b := by
  obtain ⟨hne, -, hhead⟩ := of_returnType? h
  intro b hb
  cases l with
  | c =>
    have hfirst : (function .c type symbol statement).head? = type.head? := by
      rw [function_eq, signature, linkage, List.nil_append, List.head?_append_of_ne_nil _ hne]
    rw [hfirst]
    exact hhead b (List.mem_cons_of_mem _ hb)
  | cxx =>
    have hfirst : (function .cxx type symbol statement).head? = some (ascii 'e') := rfl
    rw [hfirst]
    rintro ⟨⟩
    revert hb
    decide

/-- The first line of a function that returns a value tells the language and the type. -/
theorem signature_inj (h : t.returnType? = some type) (h' : t'.returnType? = some type')
    (heq : signature l type = signature l' type') : l = l' ∧ t = t' := by
  have hplain : ∀ {type linked : Bytes} {t : TypeTag}, t.returnType? = some type →
      signature .c type ≠ signature .cxx linked := by
    intro type linked t h heq
    have hhead : type.head? = some (ascii 'e') := congrArg List.head? heq
    exact (of_returnType? h).2.2 _ (by decide) hhead
  have hl : l = l' := by
    cases l <;> cases l'
    · rfl
    · exact absurd heq (hplain h)
    · exact absurd heq.symm (hplain h')
    · rfl
  subst hl
  obtain rfl := List.append_cancel_left heq
  exact ⟨rfl, returnType?_injective (h.trans h'.symm)⟩

/-- The parts of a function: its first line ends at the first newline, and its name at the first
parenthesis. -/
theorem function_inj (h : t.returnType? = some type) (h' : t'.returnType? = some type')
    (hsymbol : symbol ∈ [typeSymbol, valueSymbol]) (hsymbol' : symbol' ∈ [typeSymbol, valueSymbol])
    (heq : function l type symbol statement = function l' type' symbol' statement') :
    (l = l' ∧ t = t') ∧ symbol = symbol' ∧ statement = statement' := by
  have hname : ∀ {symbol : Bytes}, symbol ∈ [typeSymbol, valueSymbol] → ascii '(' ∉ symbol := by
    decide
  rw [function_eq, function_eq] at heq
  have hsignature := Bytes.eq_of_append_cons (newline_notMem_signature h)
    (newline_notMem_signature h') heq
  rw [hsignature, List.append_cancel_left_eq, List.cons.injEq] at heq
  have hsame := Bytes.eq_of_append_cons (hname hsymbol) (hname hsymbol') heq.2
  rw [hsame, List.append_cancel_left_eq, List.cons.injEq] at heq
  exact ⟨signature_inj h h' hsignature, hsame,
    List.append_cancel_right (List.append_cancel_left heq.2.2)⟩

/-! ### Units -/

/-- What a C++ unit that asks for a type declares before its function: the trait. -/
def traitDeclarations : Bytes :=
  bytes "template <typename T> struct cmacros_type_tag \x7b\x7d;\n" ++ traits.flatMap trait

/-- The unit of a question, if there is one. -/
def render? (p : Probe.Source) : Call → Option Bytes
  | .type e => some (p.forType e)
  | .value t e => p.forValue? t e

/-- What a unit has after the lines of its headers: a line that it adds, and declarations. -/
inductive Declares : Language → Call → List Bytes → Bytes → Prop
  | selected (e : Bytes) : Declares .c (.type e) []
      (function .c (bytes "const char *") typeSymbol (selection e))
  | lookedUp (e : Bytes) : Declares .cxx (.type e) [bytes "type_traits"]
      (traitDeclarations ++ function .cxx (bytes "const char *") typeSymbol (traitLookup e))
  | returned {l : Language} {t : TypeTag} {type : Bytes} (e : Bytes) : t.returnType? = some type →
      Declares l (.value t e) []
        (function l type valueSymbol (bytes "  return (" ++ e ++ bytes ");\n"))

theorem exists_declares (h : p.render? call = some unit) :
    ∃ extra body, Declares p.language call extra body ∧
      unit = includeLines p.headers ++ (includeLines extra ++ body) := by
  obtain ⟨headers, language⟩ := p
  cases call with
  | type e =>
    obtain rfl := Option.some.inj h
    cases language with
    | c => exact ⟨_, _, .selected e, rfl⟩
    | cxx =>
      have hline :
          bytes "#include <type_traits>\ntemplate <typename T> struct cmacros_type_tag \x7b\x7d;\n"
            = includeLines [bytes "type_traits"] ++
              bytes "template <typename T> struct cmacros_type_tag \x7b\x7d;\n" := by decide
      refine ⟨_, _, .lookedUp e, ?_⟩
      simp only [forType, traitDeclarations, hline, List.append_assoc]
  | value t e =>
    obtain ⟨type, htype, rfl⟩ := Option.map_eq_some_iff.1 h
    exact ⟨_, _, .returned e htype, rfl⟩

theorem returnType?_string : TypeTag.string.returnType? = some (bytes "const char *") := rfl

/-- Declarations of a trait do not start as a function does. -/
theorem function_ne_traitDeclarations_append (h : t.returnType? = some type) :
    function l type symbol statement ≠ traitDeclarations ++ rest := by
  intro heq
  have hhead : (traitDeclarations ++ rest).head? = some (ascii 't') := rfl
  rw [← heq] at hhead
  exact head?_function_ne h _ (by decide) hhead

/-- What follows the include lines does not start as they do. -/
theorem Declares.head?_ne (h : Declares l call extra body) : body.head? ≠ some (ascii '#') := by
  cases h with
  | selected e => exact head?_function_ne returnType?_string _ (by decide)
  | lookedUp e =>
    have hhead : ∀ rest, (traitDeclarations ++ rest).head? = some (ascii 't') := fun _ => rfl
    rw [hhead]
    decide
  | returned e htype => exact head?_function_ne htype _ (by decide)

theorem Declares.onLines (h : Declares l call extra body) : OnLines extra := by
  cases h with
  | lookedUp e => exact (by decide)
  | _ => exact List.forall_mem_nil _

/-- It tells the language and the question. -/
theorem Declares.inj (h : Declares l call extra body) (h' : Declares l' call' extra' body')
    (heq : body = body') : l = l' ∧ call = call' ∧ extra = extra' := by
  cases h with
  | selected e =>
    cases h' with
    | selected e' =>
      obtain ⟨-, -, hstatement⟩ :=
        function_inj returnType?_string returnType?_string (by decide) (by decide) heq
      have he : e = e' := by simpa [selection] using hstatement
      exact ⟨rfl, congrArg Call.type he, rfl⟩
    | lookedUp e' => exact absurd heq (function_ne_traitDeclarations_append returnType?_string)
    | returned e' htype' =>
      obtain ⟨-, hsymbol, -⟩ :=
        function_inj returnType?_string htype' (by decide) (by decide) heq
      exact absurd hsymbol (by decide)
  | lookedUp e =>
    cases h' with
    | selected e' =>
      exact absurd heq.symm (function_ne_traitDeclarations_append returnType?_string)
    | lookedUp e' =>
      obtain ⟨-, -, hstatement⟩ := function_inj returnType?_string returnType?_string (by decide)
        (by decide) (List.append_cancel_left heq)
      have he : e = e' := by simpa [traitLookup] using hstatement
      exact ⟨rfl, congrArg Call.type he, rfl⟩
    | returned e' htype' =>
      exact absurd heq.symm (function_ne_traitDeclarations_append htype')
  | returned e htype =>
    cases h' with
    | selected e' =>
      obtain ⟨-, hsymbol, -⟩ :=
        function_inj htype returnType?_string (by decide) (by decide) heq
      exact absurd hsymbol (by decide)
    | lookedUp e' => exact absurd heq (function_ne_traitDeclarations_append htype)
    | returned e' htype' =>
      obtain ⟨⟨rfl, rfl⟩, -, hstatement⟩ :=
        function_inj htype htype' (by decide) (by decide) heq
      have he : e = e' := by simpa using hstatement
      exact ⟨rfl, congrArg (Call.value _) he, rfl⟩

/-- A unit tells its headers, its language and its question. -/
theorem render?_inj (hp : OnLines p.headers) (hq : OnLines q.headers)
    (h : p.render? call = some unit) (h' : q.render? call' = some unit) :
    p = q ∧ call = call' := by
  obtain ⟨extra, body, hdeclares, rfl⟩ := exists_declares h
  obtain ⟨extra', body', hdeclares', heq⟩ := exists_declares h'
  -- the line that a unit adds is one more include line
  rw [← List.append_assoc, ← List.append_assoc, ← includeLines_append,
    ← includeLines_append] at heq
  obtain ⟨hlines, hbody⟩ := includeLines_append_inj
    (List.forall_mem_append.2 ⟨hp, hdeclares.onLines⟩)
    (List.forall_mem_append.2 ⟨hq, hdeclares'.onLines⟩) hdeclares.head?_ne hdeclares'.head?_ne heq
  obtain ⟨hlanguage, hcall, rfl⟩ := hdeclares.inj hdeclares' hbody
  obtain ⟨headers, language⟩ := p
  obtain ⟨headers', language'⟩ := q
  obtain rfl := List.append_cancel_right hlines
  obtain rfl := hlanguage
  exact ⟨rfl, hcall⟩

/-- There is a unit for the value of every type but `other`. -/
theorem exists_forValue? (p : Probe.Source) (ht : t ≠ .other) (e : Bytes) :
    ∃ rest, p.forValue? t e = some (includeLines p.headers ++ rest) := by
  cases t with
  | other => exact absurd rfl ht
  | _ => exact ⟨_, rfl⟩

/-- **Different questions are rendered as different units.**  For headers whose names have no
newline: a unit that asks for a type tells headers, language and expression; a unit that asks for a
value tells them and the type; no unit is of both kinds.  Every unit starts with the include lines
of its headers, these lines tell the headers, and they are just what the preprocessor finds in its
source file when macros are listed for the same headers. -/
theorem units_distinct {p q : Probe.Source} (hp : OnLines p.headers) (hq : OnLines q.headers) :
    (∀ e e', p.forType e = q.forType e' ↔ p = q ∧ e = e') ∧
    (∀ t t' e e', t ≠ .other → t' ≠ .other →
      (p.forValue? t e = q.forValue? t' e' ↔ p = q ∧ t = t' ∧ e = e')) ∧
    (∀ t e e', p.forValue? t e ≠ some (q.forType e')) ∧
    (∀ e, includeLines p.headers <+: p.forType e) ∧
    (∀ t e, t ≠ .other → ∃ rest, p.forValue? t e = some (includeLines p.headers ++ rest)) ∧
    (includeLines p.headers = includeLines q.headers ↔ p.headers = q.headers) ∧
    ∀ (τ : Type) (h : Host τ) (c : Configuration) (s : RunState τ) (i : Invocation)
      (response : Response) (t : τ), h.PlainNames → s.files.Placed h.temporary →
      Discovery.Preprocessed h c s i response t → c.headers = p.headers →
      i.sourceText = includeLines p.headers := by
  refine ⟨fun e e' => ⟨fun heq => ?_, ?_⟩, fun t t' e e' ht ht' => ⟨fun heq => ?_, ?_⟩,
    fun t e e' heq => ?_, fun e => ?_, fun t e ht => p.exists_forValue? ht e,
    includeLines_inj hp hq, fun τ h c s i response t hplain hplaced hpre hheaders => ?_⟩
  · have hunit : p.render? (.type e) = some (q.forType e') := congrArg some heq
    have hunit' : q.render? (.type e') = some (q.forType e') := rfl
    obtain ⟨hsource, hcall⟩ := render?_inj hp hq hunit hunit'
    exact ⟨hsource, Call.type.inj hcall⟩
  · rintro ⟨rfl, rfl⟩
    rfl
  · obtain ⟨rest, hsome⟩ := p.exists_forValue? ht e
    have hunit : p.render? (.value t e) = some (includeLines p.headers ++ rest) := hsome
    have hunit' : q.render? (.value t' e') = some (includeLines p.headers ++ rest) :=
      heq.symm.trans hsome
    obtain ⟨hsource, hcall⟩ := render?_inj hp hq hunit hunit'
    exact ⟨hsource, Call.value.inj hcall⟩
  · rintro ⟨rfl, rfl, rfl⟩
    rfl
  · have hunit : p.render? (.value t e) = some (q.forType e') := heq
    have hunit' : q.render? (.type e') = some (q.forType e') := rfl
    cases (render?_inj hp hq hunit hunit').2
  · exact ⟨_, rfl⟩
  · rw [← hheaders]
    exact hpre.sourceText hplain hplaced

/-- The header that a C++ unit adds is one of the headers here, … -/
def lookalike : Probe.Source := ⟨[bytes "limits.h", bytes "type_traits"], .c⟩

/-- … and is added here. -/
def adding : Probe.Source := ⟨[bytes "limits.h"], .cxx⟩

theorem units_distinct_lookalike :
    OnLines lookalike.headers ∧ OnLines adding.headers ∧
      lookalike.forType (bytes "N") ≠ adding.forType (bytes "N") ∧
      lookalike.forValue? .string (bytes "N") ≠ some (adding.forType (bytes "N")) ∧
      ∃ i response t,
        Discovery.Preprocessed Prober.rehearsed.host Prober.rehearsed.config Prober.rehearsal i
          response t ∧
        i.sourceText = includeLines adding.headers ∧
        i.sourceText <+: adding.forType (bytes "N") := by
  have hlookalike : OnLines lookalike.headers := by decide
  have hadding : OnLines adding.headers := by decide
  obtain ⟨htype, -, hkind, -⟩ := units_distinct hlookalike hadding
  obtain ⟨-, -, -, hprefix, -, -, hsource⟩ := units_distinct hadding hadding
  have hready : Discovery.Ready Prober.rehearsed.host Prober.rehearsed.config Prober.rehearsal
      (bytes "1") _ := ⟨rfl, _, rfl, rfl⟩
  have hpre := Discovery.Preprocessed.intro hready rfl
  have htext := hsource _ _ _ _ _ _ _ (Host.plainNames_scripted _ _ _)
    ⟨by simp [Prober.rehearsal], by simp [Prober.rehearsal]⟩ hpre rfl
  refine ⟨hlookalike, hadding, fun heq => ?_, hkind _ _ _, _, _, _, hpre, htext, ?_⟩
  · have hlanguage := congrArg Probe.Source.language ((htype _ _).1 heq).1
    cases hlanguage
  · rw [htext]
    exact hprefix _

end Probe.Source

end MacroConstants
