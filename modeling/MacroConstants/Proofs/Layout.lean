import MacroConstants.Proofs.Dump
import MacroConstants.Proofs.Settings.Text
import Mathlib.Logic.Relation

/-!
# Layout

Dumps and settings files are read line by line, and the white space around what a line says is no
part of it.  So both may be laid out in other ways: a return may stand before every newline, and a
settings file may have more lines that say nothing and more spaces and tabs around what the others
say.  Only the numbers of the lines change.

* `Bytes.withReturns` : a text with a return before every newline.
* `Dump.numbered_withReturns` : a dump with returns says the same on every line.
* `Settings.Respaced` : a line with more spaces and tabs, also around the sign after its key.
* `Settings.Respaced.readLine` : it says the same.
* `Settings.Relaid` : the changes of layout in a settings text.
* `Configuration.load_relaid` : a settings text in another layout has the same effect and, but for
  the number of the line, the same fault.
* `layout_immaterial` : **dumps and settings do not depend on their layout.**
-/

namespace MacroConstants

/-! ### Returns before newlines -/

namespace Bytes

/-- A text with a return before every newline. -/
def withReturns (s : Bytes) : Bytes :=
  s.flatMap fun b => if b = ascii '\n' then [ascii '\r', ascii '\n'] else [b]

/-- The line has a return more at its end, or is the same. -/
def Returned (line line' : Bytes) : Prop := line' = line ∨ line' = line ++ [ascii '\r']

/-- By induction on the text; a byte before the first newline goes in front of both first lines. -/
theorem returned_lines (s : Bytes) : List.Forall₂ Returned (lines s) (lines (withReturns s)) := by
  induction s with
  | nil => exact .cons (.inl rfl) .nil
  | cons b s ih =>
    by_cases hb : b = ascii '\n'
    · subst hb
      have hlines : lines (ascii '\n' :: s) = [] :: lines s := lines_join [] s
      have hlines' :
          lines (withReturns (ascii '\n' :: s)) = [ascii '\r'] :: lines (withReturns s) :=
        lines_join [ascii '\r'] (withReturns s)
      rw [hlines, hlines']
      exact .cons (.inr rfl) ih
    · have hreturns : withReturns (b :: s) = b :: withReturns s := by
        rw [withReturns, List.flatMap_cons, if_neg hb]
        rfl
      rw [hreturns, lines_cons_of_ne hb, lines_cons_of_ne hb]
      generalize lines s = ls, lines (withReturns s) = ls' at ih
      cases ih with
      | nil => exact .nil
      | cons hfirst hrest =>
        refine .cons ?_ hrest
        rcases hfirst with h | h
        · exact .inl (congrArg _ h)
        · exact .inr (congrArg _ h)

end Bytes

namespace Dump

theorem readLine_of_returned {line line' : Bytes} (h : Bytes.Returned line line') :
    readLine line' = readLine line := by
  have hreturns : withoutReturns line' = withoutReturns line := by
    rcases h with rfl | rfl
    · rfl
    · exact Bytes.trimEnd_append_of_all line (by simp)
  rw [readLine_eq, readLine_eq, hreturns]

/-- A dump with returns says the same on every line. -/
theorem numbered_withReturns (text : Bytes) : numbered text.withReturns = numbered text := by
  have hlines : ∀ {ls ls' : List Bytes}, List.Forall₂ Bytes.Returned ls ls' →
      ls'.map readLine = ls.map readLine := fun h => by
    induction h with
    | nil => rfl
    | cons hline _ ih => rw [List.map_cons, List.map_cons, readLine_of_returned hline, ih]
  rw [numbered_eq, numbered_eq, hlines (Bytes.returned_lines text)]

end Dump

namespace Settings

open Bytes

variable {line line' front back lead tail s : Bytes} {opened quoted : Bool}

/-! ### White space in a line -/

theorem trimmed_append (hlead : Layout lead) (htail : Layout tail) (s : Bytes) :
    trimmed (lead ++ s ++ tail) = trimmed s := by
  obtain ⟨hbare, before, after, hs, hbefore, hafter⟩ := trimmed_eq_iff.1 (Eq.refl (trimmed s))
  refine trimmed_eq_iff.2 ⟨hbare, lead ++ before, after ++ tail, ?_,
    layout_append.2 ⟨hlead, hbefore⟩, layout_append.2 ⟨hafter, htail⟩⟩
  conv_lhs => rw [hs]
  simp only [List.append_assoc]

theorem trimmed_trimStart (s : Bytes) : trimmed (trimStart isLayout s) = trimmed s := by
  have hlead : Layout (s.takeWhile isLayout) := fun _ hb => List.mem_takeWhile_imp hb
  have h := trimmed_append hlead layout_nil (trimStart isLayout s)
  rw [List.append_nil, trimStart, List.takeWhile_append_dropWhile] at h
  exact h.symm

theorem trimmed_trimEnd (s : Bytes) : trimmed (trimEnd isLayout s) = trimmed s := by
  obtain ⟨tail, hs, htail⟩ := exists_trimEnd isLayout s
  have h := trimmed_append layout_nil htail (trimEnd isLayout s)
  rw [List.nil_append, ← hs] at h
  exact h.symm

theorem Layout.guarded (h : Layout s) : Guarded (ascii '#') quoted s :=
  guarded_of_notMem (h.notMem rfl)

theorem Layout.endsQuoted (h : Layout s) : endsQuoted s = false :=
  endsQuoted_of_notMem (h.notMem rfl)

/-- White space in front of a text is passed over. -/
theorem stripComment_layout (quoted : Bool) (h : Layout lead) (s : Bytes) :
    stripComment quoted (lead ++ s) = lead ++ stripComment quoted s := by
  rw [stripComment_append h.guarded, h.endsQuoted, Bool.xor_false]

/-- White space at the end of a text is left there, or gone with the comment. -/
theorem exists_stripComment_append (quoted : Bool) (h : Layout tail) (s : Bytes) :
    ∃ rest, Layout rest ∧ stripComment quoted (s ++ tail) = stripComment quoted s ++ rest := by
  rcases guarded_or_exists (ascii '#') quoted s with hs | ⟨before, after, rfl, hbefore, hopen⟩
  · refine ⟨tail, h, ?_⟩
    have hall := stripComment_append hs []
    have hrest := stripComment_layout (quoted ^^ Settings.endsQuoted s) h []
    rw [stripComment, List.append_nil] at hall hrest
    rw [stripComment_append hs, hrest, hall]
  · refine ⟨[], layout_nil, ?_⟩
    rw [List.append_assoc, List.cons_append, stripComment_append hbefore,
      stripComment_append hbefore, hopen, stripComment_hash, stripComment_hash, List.append_nil,
      List.append_nil]

theorem readLine_congr
    (h : trimmed (stripComment false line') = trimmed (stripComment false line)) :
    readLine opened line' = readLine opened line := by
  unfold readLine
  rw [h]

/-- White space at the ends of a line is no part of what it says. -/
theorem readLine_append (hlead : Layout lead) (htail : Layout tail) (line : Bytes) :
    readLine opened (lead ++ line ++ tail) = readLine opened line := by
  obtain ⟨rest, hrest, hstrip⟩ := exists_stripComment_append false htail line
  refine readLine_congr ?_
  rw [List.append_assoc, stripComment_layout false hlead, hstrip, ← List.append_assoc,
    trimmed_append hlead hrest]

/-! ### White space around the sign of a key -/

/-- A line with a key: it has an equals sign before any comment, and is no header. -/
def HasKey (line : Bytes) : Prop :=
  ∃ s, Content line s ∧ ascii '=' ∈ s ∧ s.head? ≠ some (ascii '[')

/-- What is left of a line with an equals sign before its comment. -/
theorem content_sign (h : Guarded (ascii '#') false front) (back : Bytes) :
    trimmed (stripComment false (front ++ ascii '=' :: back)) =
      trimStart isLayout front ++
        ascii '=' :: trimEnd isLayout (stripComment (endsQuoted front) back) := by
  have hhash : ascii '=' = ascii '#' → (false ^^ endsQuoted front) = true := fun h =>
    absurd h (by decide)
  have hquote : decide (ascii '=' = ascii '"') = false := rfl
  rw [stripComment_append h, stripComment_cons hhash, hquote, Bool.xor_false, Bool.false_xor,
    trimmed, trim_append_cons rfl]

/-- No comment starts before the first equals sign of a line with a key, and no bracket is the first
byte of its text. -/
theorem HasKey.before_sign (h : HasKey (front ++ ascii '=' :: back)) (hfront : ascii '=' ∉ front) :
    Guarded (ascii '#') false front ∧ (trimmed front).head? ≠ some (ascii '[') := by
  obtain ⟨s, hcontent, hmem, hhead⟩ := h
  have hs := content_iff.1 hcontent
  have hguarded : Guarded (ascii '#') false front := by
    rcases guarded_or_exists (ascii '#') false front with h | ⟨before, after, rfl, hbefore, hopen⟩
    · exact h
    · -- a comment before the sign would have cut it off
      rw [List.append_assoc, List.cons_append, stripComment_append hbefore, hopen,
        stripComment_hash, List.append_nil] at hs
      obtain ⟨-, lead, tail, hsplit, -⟩ := trimmed_eq_iff.1 hs
      refine absurd (List.mem_append_left _ ?_) hfront
      rw [hsplit]
      exact List.mem_append_left _ (List.mem_append_right _ hmem)
  refine ⟨hguarded, fun hbracket => hhead ?_⟩
  rw [content_sign hguarded] at hs
  rw [trimmed, head?_trim] at hbracket
  obtain ⟨rest, hrest⟩ := List.head?_eq_some_iff.1 hbracket
  rw [← hs, hrest]
  rfl

/-- What a text says that has an equals sign and no bracket at its start. -/
theorem readAssignment_eq (hfront : ascii '=' ∉ front) (back : Bytes) :
    readAssignment opened (front ++ ascii '=' :: back) =
      if opened then
        (readValue (fullName (trimmed front)) (trimmed back)).map
          (.setting (fullName (trimmed front)))
      else .error .outsideSection := by
  obtain ⟨htake, hdrop⟩ := cut_iff.2 ⟨Eq.refl (front ++ ascii '=' :: back), hfront⟩
  unfold readAssignment
  rw [hdrop, htake]
  cases opened <;> rfl

/-- What a line with a key says: the key is before the first equals sign and the value behind it,
both without the white space around them. -/
theorem readLine_sign (hguarded : Guarded (ascii '#') false front)
    (hbracket : (trimmed front).head? ≠ some (ascii '[')) (hfront : ascii '=' ∉ front)
    (back : Bytes) :
    readLine opened (front ++ ascii '=' :: back) =
      if opened then
        (readValue (fullName (trimmed front)) (trimmed (stripComment (endsQuoted front) back))).map
          (.setting (fullName (trimmed front)))
      else .error .outsideSection := by
  have hstart : ascii '=' ∉ trimStart isLayout front := fun h =>
    hfront ((List.dropWhile_sublist _).mem h)
  rw [trimmed, head?_trim] at hbracket
  rw [← trimmed_trimStart front, ← trimmed_trimEnd (stripComment _ back),
    ← readAssignment_eq hstart]
  unfold readLine
  rw [content_sign hguarded]
  cases hfirst : trimStart isLayout front with
  | nil => rfl
  | cons b rest =>
    rw [hfirst] at hbracket
    exact if_neg fun hb => hbracket (congrArg some hb)

/-- Spaces and tabs. -/
def Blanks (s : Bytes) : Prop := ∀ b ∈ s, isBlank b = true

theorem Blanks.layout (h : Blanks s) : Layout s := fun b hb => by
  have hblank := h b hb
  simp only [isBlank, Bool.or_eq_true] at hblank
  simp only [isLayout, Bool.or_eq_true]
  exact .inl (.inl hblank)

/-- A line with more spaces and tabs: at its ends, or around the first equals sign if it has a
key. -/
inductive Respaced : Bytes → Bytes → Prop
  | ends {line lead tail : Bytes} : Blanks lead → Blanks tail →
      Respaced line (lead ++ line ++ tail)
  | sign {front back lead tail : Bytes} : HasKey (front ++ ascii '=' :: back) →
      ascii '=' ∉ front → Blanks lead → Blanks tail →
      Respaced (front ++ ascii '=' :: back) (front ++ lead ++ ascii '=' :: (tail ++ back))

/-- More spaces and tabs do not change what a line says. -/
theorem Respaced.readLine (h : Respaced line line') (opened : Bool) :
    readLine opened line' = readLine opened line := by
  cases h with
  | ends hlead htail => exact readLine_append hlead.layout htail.layout _
  | @sign front back lead tail hkey hfront hlead htail =>
    obtain ⟨hguarded, hbracket⟩ := hkey.before_sign hfront
    -- the sign stays the first one, no comment starts before it, and no quote is opened or closed
    have hname : trimmed (front ++ lead) = trimmed front :=
      trimmed_append layout_nil hlead.layout front
    have hguarded' : Guarded (ascii '#') false (front ++ lead) :=
      guarded_append.2 ⟨hguarded, hlead.layout.guarded⟩
    have hfront' : ascii '=' ∉ front ++ lead := by
      simp only [List.mem_append, not_or]
      exact ⟨hfront, hlead.layout.notMem rfl⟩
    have hquoted : Settings.endsQuoted (front ++ lead) = Settings.endsQuoted front := by
      rw [endsQuoted_append, hlead.layout.endsQuoted, Bool.xor_false]
    have hvalue := trimmed_append htail.layout layout_nil
      (stripComment (Settings.endsQuoted front) back)
    rw [List.append_nil] at hvalue
    rw [readLine_sign hguarded' (hname ▸ hbracket) hfront', readLine_sign hguarded hbracket hfront,
      hquoted, hname, stripComment_layout _ htail.layout, hvalue]

end Settings

/-! ### Settings without their places -/

/-- The setting without the number of its line. -/
def Setting.unplaced (s : Setting) : Setting := { s with line := 0 }

/-- The fault without the number of the line it names. -/
def Fault.unplaced : Fault → Fault
  | .setting source _ fault => .setting source 0 fault
  | fault => fault

namespace Settings

/-- What is read, without the numbers of lines. -/
def unplaced : Except (ℕ × SettingFault) (List Setting) → Except SettingFault (List Setting)
  | .ok settings => .ok (settings.map Setting.unplaced)
  | .error (_, fault) => .error fault

theorem unplaced_map_cons (s : Setting) (x : Except (ℕ × SettingFault) (List Setting)) :
    unplaced (x.map (s :: ·)) = (unplaced x).map (s.unplaced :: ·) := by
  cases x <;> rfl

/-- Lines that say the same one by one, but for more lines that say nothing. -/
inductive SameLines : List Bytes → List Bytes → Prop
  | nil : SameLines [] []
  | line {l l' : Bytes} {ls ls' : List Bytes} :
      (∀ opened, Settings.readLine opened l' = Settings.readLine opened l) → SameLines ls ls' →
      SameLines (l :: ls) (l' :: ls')
  | idle {l : Bytes} {ls ls' : List Bytes} :
      (∀ opened, Settings.readLine opened l = .ok .blank) → SameLines ls ls' →
      SameLines ls (l :: ls')

namespace SameLines

variable {ls ls' before : List Bytes}

theorem refl : ∀ ls, SameLines ls ls
  | [] => .nil
  | _ :: ls => .line (fun _ => rfl) (refl ls)

theorem append (before : List Bytes) (h : SameLines ls ls') :
    SameLines (before ++ ls) (before ++ ls') := by
  induction before with
  | nil => exact h
  | cons l before ih => exact .line (fun _ => rfl) ih

/-- The numbers of the lines apart, the same is read of them. -/
theorem unplaced_readLines (h : SameLines ls ls') (opened : Bool) (n n' : ℕ) :
    unplaced (readLines opened n' ls') = unplaced (readLines opened n ls) := by
  induction h generalizing opened n n' with
  | nil => rfl
  | line hline _ ih =>
    -- the numbers are counted on apart, so the hypothesis is needed for any two of them
    rw [readLines, readLines, hline]
    split
    · rfl
    · exact ih opened (n + 1) (n' + 1)
    · exact ih true (n + 1) (n' + 1)
    · rw [unplaced_map_cons, unplaced_map_cons, ih opened (n + 1) (n' + 1)]
      rfl
  | idle hidle _ ih =>
    rw [readLines, hidle]
    exact ih opened n (n' + 1)

end SameLines

end Settings

namespace Configuration

open Settings

/-- The effect of settings and their fault, without the number of its line. -/
def unplaced (result : Configuration × Option Fault) : Configuration × Option Fault :=
  result.map id (Option.map Fault.unplaced)

variable [PatternEngine]

/-- The number of a setting's line is only reported. -/
theorem assign_unplaced (source : Bytes) (s : Setting) (c : Configuration) :
    (c.assign source s.unplaced).mapError Fault.unplaced =
      (c.assign source s).mapError Fault.unplaced := by
  have hitems : s.unplaced.items = s.items := rfl
  have hscalar : s.unplaced.scalar = s.scalar := rfl
  have hboolean : s.unplaced.boolean = s.boolean := rfl
  have hkey : s.unplaced.key = s.key := rfl
  -- the line is left in the faults only
  unfold assign
  rw [hitems, hscalar, hboolean, hkey]
  cases Settings.Key.ofFullName? s.key with
  | none => rfl
  | some k =>
    cases k with
    | lang | filter => cases s.scalar <;> rfl
    | verbose => cases s.boolean <;> rfl
    | _ => cases s.items <;> rfl

theorem assignAll_unplaced (source : Bytes) (settings : List Setting) (c : Configuration) :
    unplaced (c.assignAll source (settings.map Setting.unplaced)) =
      unplaced (c.assignAll source settings) := by
  induction settings generalizing c with
  | nil => rfl
  | cons s settings ih =>
    have h := assign_unplaced source s c
    rw [List.map_cons, assignAll, assignAll]
    cases hs : c.assign source s with
    | ok c' =>
      rw [hs] at h
      rw [mapError_eq_ok_iff.1 h]
      exact ih c'
    | error fault =>
      rw [hs] at h
      cases hs' : c.assign source s.unplaced with
      | ok c' =>
        rw [hs'] at h
        cases h
      | error fault' =>
        rw [hs'] at h
        exact congrArg (fun f => (c, some f)) (Except.error.inj h)

/-- Texts of which the same is read, the numbers of the lines apart, have the same effect. -/
theorem load_congr {text text' : Bytes} (source : Bytes) (c : Configuration)
    (h : Settings.unplaced (Settings.read text') = Settings.unplaced (Settings.read text)) :
    unplaced (c.load source text') = unplaced (c.load source text) := by
  have hload : ∀ t, unplaced (c.load source t) = match Settings.unplaced (Settings.read t) with
      | .error fault => (c, some (.setting source 0 fault))
      | .ok settings => unplaced (c.assignAll source settings) := fun t => by
    unfold load
    cases Settings.read t with
    | error fault => rfl
    | ok settings => exact (assignAll_unplaced source settings c).symm
  rw [hload, hload, h]

end Configuration

/-! ### Changes of layout -/

namespace Settings

open Bytes

variable {line text text' : Bytes}

/-- A line that is blank or holds nothing but a comment. -/
def Idle (line : Bytes) : Prop :=
  ∃ lead comment, line = lead ++ comment ∧ Layout lead ∧
    (comment = [] ∨ comment.head? = some (ascii '#'))

theorem Idle.readLine (h : Idle line) (opened : Bool) : readLine opened line = .ok .blank := by
  obtain ⟨lead, comment, rfl, hlead, hcomment⟩ := h
  have hself : lead ++ [] ++ [] = lead := by simp
  refine readLine_eq_ok_iff.2 ⟨[], ⟨lead, [], comment, by rw [hself], hlead, layout_nil, bare_nil,
    ?_, ?_⟩, .blank⟩
  · rw [hself]
    exact hlead.guarded
  · rw [hself]
    exact hcomment.imp_right fun h => ⟨h, hlead.endsQuoted⟩

/-- The second text has another layout than the first. -/
inductive Relaid : Bytes → Bytes → Prop
  /-- A return before every newline. -/
  | returns (text : Bytes) : Relaid text text.withReturns
  /-- One more line that is blank or holds nothing but a comment. -/
  | idle {text text' line : Bytes} {before after : List Bytes} : text.lines = before ++ after →
      text'.lines = before ++ line :: after → Idle line → Relaid text text'
  /-- More spaces and tabs at the ends of a line or around the sign after its key. -/
  | respaced {text text' line line' : Bytes} {before after : List Bytes} :
      text.lines = before ++ line :: after → text'.lines = before ++ line' :: after →
      Respaced line line' → Relaid text text'

theorem sameLines_of_returned {ls ls' : List Bytes} (h : List.Forall₂ Returned ls ls') :
    SameLines ls ls' := by
  have hreturn : Layout [ascii '\r'] := List.forall_mem_singleton.2 rfl
  induction h with
  | nil => exact .nil
  | cons hline _ ih =>
    refine .line (fun opened => ?_) ih
    rcases hline with rfl | rfl
    · rfl
    · exact readLine_append layout_nil hreturn _

/-- A change of layout leaves the lines that say something as they are. -/
theorem Relaid.sameLines (h : Relaid text text') : SameLines text.lines text'.lines := by
  cases h with
  | returns => exact sameLines_of_returned (returned_lines text)
  | idle hlines hlines' hidle =>
    rw [hlines, hlines']
    exact (SameLines.idle hidle.readLine (.refl _)).append _
  | respaced hlines hlines' hspaced =>
    rw [hlines, hlines']
    exact (SameLines.line hspaced.readLine (.refl _)).append _

end Settings

open Settings

/-- The effect of a settings text does not depend on its layout, and its fault only in the number of
the line it names. -/
theorem Configuration.load_relaid [PatternEngine] {text text' : Bytes} (source : Bytes)
    (c : Configuration) (h : Relation.ReflTransGen Relaid text text') :
    Configuration.unplaced (c.load source text') = Configuration.unplaced (c.load source text) := by
  induction h with
  | refl => rfl
  | tail _ hstep ih =>
    exact (load_congr source c (hstep.sameLines.unplaced_readLines false 1 1)).trans ih

/-- **Layout is immaterial.**  A dump with a return before every newline has the same macros on the
same lines and the same warnings.  A settings text after any changes of its layout, with returns
before newlines, more lines without content and more spaces and tabs around what its lines say, is
accepted exactly if it was accepted before, leaves the same configuration in either case, and has
the same fault but for the number of the line, whatever the engine for patterns is. -/
theorem layout_immaterial [PatternEngine] (keep : Selector) (dump : Bytes) :
    Dump.definitions keep dump.withReturns = Dump.definitions keep dump ∧
      Dump.warnings dump.withReturns = Dump.warnings dump ∧
      ∀ (source text text' : Bytes) (c : Configuration), Relation.ReflTransGen Relaid text text' →
        ((c.load source text').2 = none ↔ (c.load source text).2 = none) ∧
        (c.load source text').1 = (c.load source text).1 ∧
        (c.load source text').2.map Fault.unplaced = (c.load source text).2.map Fault.unplaced := by
  refine ⟨?_, ?_, fun source text text' c h => ?_⟩
  · rw [Dump.definitions, Dump.numbered_withReturns, Dump.definitions]
  · rw [Dump.warnings, Dump.numbered_withReturns, Dump.warnings]
  · have hload := Configuration.load_relaid source c h
    have hfault : (c.load source text').2.map Fault.unplaced =
        (c.load source text).2.map Fault.unplaced := congrArg Prod.snd hload
    refine ⟨?_, (congrArg Prod.fst hload :), hfault⟩
    rw [← Option.map_eq_none_iff, hfault, Option.map_eq_none_iff]

/-- A settings text with a comment in which a quote is left open. -/
def compactText : Bytes := bytes "[discovery]\nverbose=true # \"on"

/-- The same with a return, a comment line and white space around the sign. -/
def airyText : Bytes := bytes "[discovery]\r\n  # [\"\nverbose \t= true # \"on"

/-- The line with the key has its sign before the comment. -/
theorem hasKey_verbose : HasKey (bytes "verbose=true # \"on") :=
  ⟨bytes "verbose=true", content_iff.2 (by decide), by decide, by decide⟩

theorem relaid_airyText : Relation.ReflTransGen Relaid compactText airyText := by
  have hspaced : Respaced (bytes "verbose=true # \"on") (bytes "verbose \t= true # \"on") :=
    @Respaced.sign (bytes "verbose") (bytes "true # \"on") (bytes " \t") (bytes " ") hasKey_verbose
      (by decide) (List.all_eq_true.1 (by decide)) (List.all_eq_true.1 (by decide))
  have hidle : Idle (bytes "  # [\"") :=
    ⟨bytes "  ", bytes "# [\"", by decide, List.all_eq_true.1 (by decide), .inr (by decide)⟩
  have hreturns : Relaid compactText (bytes "[discovery]\r\nverbose=true # \"on") :=
    .returns compactText
  have hsign : Relaid (bytes "[discovery]\r\nverbose=true # \"on")
      (bytes "[discovery]\r\nverbose \t= true # \"on") :=
    @Relaid.respaced _ _ _ _ [bytes "[discovery]\r"] [] (by decide) (by decide) hspaced
  have hcomment : Relaid (bytes "[discovery]\r\nverbose \t= true # \"on") airyText :=
    @Relaid.idle _ _ _ [bytes "[discovery]\r"] [bytes "verbose \t= true # \"on"] (by decide)
      (by decide) hidle
  exact ((Relation.ReflTransGen.single hreturns).tail hsign).tail hcomment

theorem layout_immaterial_airy :
    letI := PatternEngine.literal
    Relation.ReflTransGen Relaid compactText airyText ∧
      (({} : Configuration).load [] airyText).2 = none ∧
      (({} : Configuration).load [] airyText).1.verbose = true := by
  let _ := PatternEngine.literal
  obtain ⟨hfault, hconfig, -⟩ :=
    (layout_immaterial Selector.default []).2.2 [] compactText airyText {} relaid_airyText
  refine ⟨relaid_airyText, hfault.2 (by decide), ?_⟩
  rw [hconfig]
  decide

end MacroConstants
