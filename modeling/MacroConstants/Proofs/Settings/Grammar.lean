import MacroConstants.Proofs.Settings.Quotes

/-!
# What a line of a settings file says

The lines of a settings file as a grammar, and the reader of a line compared with it.

* `Settings.Content` : what is left of a line without its comment and the white space around it.
* `Settings.Items`, `Settings.Writes` : lists and values, and what they stand for.
* `Settings.IsHeader`, `Settings.Assigns` : the two kinds of lines that are not blank.
* `Settings.readLine_eq_ok_iff` : **a line is read exactly as the grammar reads it.**
-/

namespace MacroConstants

section Results

variable {ε ε' α β : Type} {x : Except ε α}

theorem map_eq_ok_iff {f : α → β} {b : β} : x.map f = .ok b ↔ ∃ a, x = .ok a ∧ b = f a := by
  cases x <;> simp [Except.map, eq_comm]

theorem bind_eq_ok_iff {f : α → Except ε β} {b : β} :
    x.bind f = .ok b ↔ ∃ a, x = .ok a ∧ f a = .ok b := by
  cases x <;> simp [Except.bind]

theorem mapError_eq_ok_iff {f : ε → ε'} {a : α} : x.mapError f = .ok a ↔ x = .ok a := by
  cases x <;> simp [Except.mapError]

theorem mapError_eq_error_iff {f : ε → ε'} {e : ε'} :
    x.mapError f = .error e ↔ ∃ e', x = .error e' ∧ e = f e' := by
  cases x <;> simp [Except.mapError, eq_comm]

theorem map_eq_error_iff {f : α → β} {e : ε} : x.map f = .error e ↔ x = .error e := by
  cases x <;> simp [Except.map]

theorem bind_eq_error_iff {f : α → Except ε β} {e : ε} :
    x.bind f = .error e ↔ x = .error e ∨ ∃ a, x = .ok a ∧ f a = .error e := by
  cases x <;> simp [Except.bind]

theorem exists_eq_ok_iff : (∃ a, x = .ok a) ↔ ∀ e, x ≠ .error e := by
  cases x <;> simp

end Results

namespace Settings

open Bytes

variable {s t text body key name lead tail : Bytes} {items : List Bytes} {value : Value}

/-! ### White space -/

/-- Spaces, tabs, returns and newlines. -/
def Layout (s : Bytes) : Prop := ∀ b ∈ s, isLayout b = true

theorem layout_nil : Layout [] := List.forall_mem_nil _

theorem layout_append : Layout (s ++ t) ↔ Layout s ∧ Layout t := List.forall_mem_append

theorem Layout.notMem {c : UInt8} (h : Layout s) (hc : isLayout c = false) : c ∉ s := by
  intro hm
  rw [h c hm] at hc
  cases hc

/-- A text that white space does not start has none in front. -/
theorem Layout.eq_nil_of_head? (h : Layout s) (hb : ∀ b ∈ (s ++ t).head?, isLayout b = false) :
    s = [] := by
  cases s with
  | nil => rfl
  | cons b s => exact absurd List.mem_cons_self (h.notMem (hb b rfl))

/-- A text that white space does not end has none behind. -/
theorem Layout.eq_nil_of_getLast? (h : Layout s)
    (hb : ∀ b ∈ (t ++ s).getLast?, isLayout b = false) : s = [] := by
  rcases List.eq_nil_or_concat s with rfl | ⟨s, b, rfl⟩
  · rfl
  · rw [List.concat_eq_append] at h hb
    rw [← List.append_assoc, List.getLast?_concat] at hb
    exact absurd (by simp) (h.notMem (hb b rfl))

theorem trimmed_eq_iff :
    trimmed s = t ↔
      Bare isLayout t ∧ ∃ lead tail, s = lead ++ t ++ tail ∧ Layout lead ∧ Layout tail := by
  constructor
  · rintro rfl
    exact ⟨bare_trim isLayout s, exists_trim isLayout s⟩
  · rintro ⟨hbare, lead, tail, rfl, hlead, htail⟩
    exact trim_append hlead hbare htail

theorem bare_of_all (h : s.all (!isLayout ·) = true) : Bare isLayout s := by
  have hall : ∀ b ∈ s, isLayout b = false := fun b hb => by
    simpa using List.all_eq_true.1 h b hb
  exact ⟨fun b hb => hall b (List.mem_of_head? hb), fun b hb => hall b (List.mem_of_getLast? hb)⟩

theorem bare_nil : Bare isLayout [] := bare_of_all rfl

/-- What is left of a line: without the comment and the white space around it. -/
def Content (line s : Bytes) : Prop :=
  ∃ lead tail comment, line = lead ++ s ++ tail ++ comment ∧ Layout lead ∧ Layout tail ∧
    Bare isLayout s ∧ Guarded (ascii '#') false (lead ++ s ++ tail) ∧
    IsComment (lead ++ s ++ tail) comment

theorem content_iff {line : Bytes} :
    Content line s ↔ trimmed (stripComment false line) = s := by
  rw [trimmed_eq_iff]
  constructor
  · rintro ⟨lead, tail, comment, hline, hlead, htail, hbare, hguarded, hcomment⟩
    exact ⟨hbare, lead, tail, stripComment_eq_iff.2 ⟨comment, hline, hguarded, hcomment⟩,
      hlead, htail⟩
  · rintro ⟨hbare, lead, tail, hstrip, hlead, htail⟩
    obtain ⟨comment, hline, hguarded, hcomment⟩ := stripComment_eq_iff.1 hstrip
    exact ⟨lead, tail, comment, hline, hlead, htail, hbare, hguarded, hcomment⟩

/-! ### Quoted texts -/

/-- A text between double quotes. -/
def quote (text : Bytes) : Bytes := ascii '"' :: (text ++ [ascii '"'])

theorem bare_quote (text : Bytes) : Bare isLayout (quote text) := by
  refine ⟨?_, ?_⟩
  · rintro _ ⟨⟩
    rfl
  · rw [quote, ← List.cons_append, List.getLast?_concat]
    rintro _ ⟨⟩
    rfl

theorem unquoted?_eq_some_iff : unquoted? s = some text ↔ s = quote text := by
  unfold unquoted?
  constructor
  · intro h
    obtain ⟨⟨hlen, hhead, hlast⟩, htext⟩ := Option.ite_none_right_eq_some.1 h
    obtain ⟨tail, rfl⟩ := List.head?_eq_some_iff.1 hhead
    -- the last quote is not the first one
    have hne : tail ≠ [] := by
      rintro rfl
      simp at hlen
    have hlast' : tail.getLast? = some (ascii '"') := by
      rwa [List.getLast?_cons_of_ne_nil hne] at hlast
    rw [← Option.some.inj htext, quote, List.tail_cons, List.dropLast_append_getLast? _ hlast']
  · rintro rfl
    have hlast : (quote text).getLast? = some (ascii '"') := by
      rw [quote, ← List.cons_append, List.getLast?_concat]
    rw [if_pos ⟨by simp [quote], rfl, hlast⟩]
    simp [quote]

/-! ### Lists -/

/-- A piece of a list is blank, or a quoted text with white space around it. -/
inductive Element : Bytes → List Bytes → Prop
  | blank {s : Bytes} : Layout s → Element s []
  | quoted {lead text tail : Bytes} : Layout lead → Layout tail →
      Element (lead ++ quote text ++ tail) [text]

/-- The inside of a list: pieces between commas outside quotes, with their texts. -/
inductive Items : Bytes → List Bytes → Prop
  | last {s : Bytes} {xs : List Bytes} : Sheltered (ascii ',') s → Element s xs → Items s xs
  | more {s rest : Bytes} {xs ys : List Bytes} : Sheltered (ascii ',') s → Element s xs →
      Items rest ys → Items (s ++ ascii ',' :: rest) (xs ++ ys)

theorem element_iff :
    Element s items ↔
      trimmed s = [] ∧ items = [] ∨ ∃ text, trimmed s = quote text ∧ items = [text] := by
  constructor
  · intro h
    cases h with
    | blank h =>
      exact .inl ⟨trimmed_eq_iff.2 ⟨bare_nil, s, [], by simp, h, layout_nil⟩, rfl⟩
    | quoted hlead htail =>
      exact .inr ⟨_, trimmed_eq_iff.2 ⟨bare_quote _, _, _, rfl, hlead, htail⟩, rfl⟩
  · rintro (⟨h, rfl⟩ | ⟨text, h, rfl⟩)
    · obtain ⟨-, lead, tail, rfl, hlead, htail⟩ := trimmed_eq_iff.1 h
      exact .blank (layout_append.2 ⟨by simpa using hlead, htail⟩)
    · obtain ⟨-, lead, tail, rfl, hlead, htail⟩ := trimmed_eq_iff.1 h
      exact .quoted hlead htail

theorem elements_nil : elements [] = .ok [] := rfl

/-- The texts of pieces are those of the first piece and of the others. -/
theorem elements_cons_eq_ok_iff {pieces : List Bytes} :
    elements (s :: pieces) = .ok items ↔
      ∃ xs ys, Element s xs ∧ elements pieces = .ok ys ∧ items = xs ++ ys := by
  simp only [element_iff]
  by_cases hs : trimmed s = []
  · have hskip : elements (s :: pieces) = elements pieces := by simp [elements, hs]
    rw [hskip]
    simp [hs, quote]
  · have hstep : elements (s :: pieces) =
        (unquoted? (trimmed s)).elim (.error (.unquotedElement (trimmed s))) fun text =>
          (elements pieces).map (text :: ·) := by
      simp only [elements, List.map_cons]
      rw [List.filter_cons_of_pos (by simpa using hs), List.mapM_cons]
      cases unquoted? (trimmed s) <;> rfl
    rw [hstep]
    constructor
    · intro h
      cases htext : unquoted? (trimmed s) with
      | none =>
        rw [htext] at h
        cases h
      | some text =>
        rw [htext] at h
        obtain ⟨ys, hys, rfl⟩ := map_eq_ok_iff.1 h
        exact ⟨[text], ys, .inr ⟨text, unquoted?_eq_some_iff.1 htext, rfl⟩, hys, rfl⟩
    · rintro ⟨xs, ys, ⟨h, -⟩ | ⟨text, htext, rfl⟩, hys, rfl⟩
      · exact absurd h hs
      · rw [unquoted?_eq_some_iff.2 htext, hys]
        rfl

theorem elements_append_eq_ok_iff {pieces pieces' : List Bytes} :
    elements (pieces ++ pieces') = .ok items ↔
      ∃ xs ys, elements pieces = .ok xs ∧ elements pieces' = .ok ys ∧ items = xs ++ ys := by
  induction pieces generalizing items with
  | nil => simp [elements_nil]
  | cons s pieces ih =>
    rw [List.cons_append]
    simp only [elements_cons_eq_ok_iff, ih]
    constructor
    · rintro ⟨xs, _, he, ⟨ys, zs, hys, hzs, rfl⟩, rfl⟩
      exact ⟨xs ++ ys, zs, ⟨xs, ys, he, hys, rfl⟩, hzs, (List.append_assoc ..).symm⟩
    · rintro ⟨_, zs, ⟨xs, ys, he, hys, rfl⟩, hzs, rfl⟩
      exact ⟨xs, ys ++ zs, he, ⟨ys, zs, hys, hzs, rfl⟩, List.append_assoc ..⟩

/-- A list is read from its pieces before the last, the quotes, and the last piece. -/
theorem readList_eq (body : Bytes) :
    readList body =
      (elements (splitUnquoted false body).dropLast).bind fun firsts =>
        if endsQuoted body then .error .unterminatedString
        else (elements (splitUnquoted false body).getLast?.toList).bind fun last =>
          .ok (firsts ++ last) := by
  unfold readList
  dsimp only
  cases elements (splitUnquoted false body).dropLast with
  | error => rfl
  | ok firsts =>
    cases endsQuoted body with
    | true => rfl
    | false => cases elements (splitUnquoted false body).getLast?.toList <;> rfl

/-- The texts of a list, if its quotes are closed, are those of all its pieces. -/
theorem readList_eq_ok_iff_elements :
    readList body = .ok items ↔
      endsQuoted body = false ∧ elements (splitUnquoted false body) = .ok items := by
  have hpieces : splitUnquoted false body =
      (splitUnquoted false body).dropLast ++ (splitUnquoted false body).getLast?.toList := by
    cases h : (splitUnquoted false body).getLast? with
    | none => simp [List.getLast?_eq_none_iff.1 h]
    | some piece => exact (List.dropLast_append_getLast? _ h).symm
  rw [readList_eq, bind_eq_ok_iff]
  constructor
  · rintro ⟨firsts, hfirsts, h⟩
    split at h
    · cases h
    · rename_i hq
      obtain ⟨last, hlast, h⟩ := bind_eq_ok_iff.1 h
      rw [hpieces]
      refine ⟨by simpa using hq, elements_append_eq_ok_iff.2 ?_⟩
      exact ⟨firsts, last, hfirsts, hlast, (Except.ok.inj h).symm⟩
  · rintro ⟨hq, h⟩
    rw [hpieces] at h
    obtain ⟨firsts, last, hfirsts, hlast, rfl⟩ := elements_append_eq_ok_iff.1 h
    refine ⟨firsts, hfirsts, ?_⟩
    rw [hq, hlast]
    rfl

theorem Items.read (h : Items body items) :
    endsQuoted body = false ∧ elements (splitUnquoted false body) = .ok items := by
  induction h with
  | last hp he =>
    refine ⟨hp.2, ?_⟩
    rw [splitUnquoted_of_guarded hp.1]
    exact elements_cons_eq_ok_iff.2 ⟨_, _, he, elements_nil, (List.append_nil _).symm⟩
  | more hp he _ ih =>
    refine ⟨?_, ?_⟩
    · rw [endsQuoted_append, hp.2, endsQuoted_cons_of_ne (by decide), ih.1]
      rfl
    · rw [splitUnquoted_append hp.1 (by simpa using hp.2)]
      exact elements_cons_eq_ok_iff.2 ⟨_, _, he, ih.2, rfl⟩

/-- By induction on the length: the first comma outside quotes cuts off the first piece. -/
theorem items_of_read (hq : endsQuoted body = false)
    (h : elements (splitUnquoted false body) = .ok items) : Items body items := by
  induction hn : body.length using Nat.strongRecOn generalizing body items with
  | ind n ih =>
    rcases guarded_or_exists (ascii ',') false body with hg | ⟨s, rest, rfl, hg, hopen⟩
    · rw [splitUnquoted_of_guarded hg] at h
      obtain ⟨xs, ys, he, hys, rfl⟩ := elements_cons_eq_ok_iff.1 h
      obtain rfl : ys = [] := (Except.ok.inj hys).symm
      rw [List.append_nil]
      exact .last ⟨hg, hq⟩ he
    · have hs : endsQuoted s = false := by simpa using hopen
      rw [endsQuoted_append, hs, endsQuoted_cons_of_ne (by decide), Bool.false_xor] at hq
      rw [splitUnquoted_append hg hopen] at h
      obtain ⟨xs, ys, he, hys, rfl⟩ := elements_cons_eq_ok_iff.1 h
      refine .more ⟨hg, hs⟩ he (ih rest.length ?_ hq hys rfl)
      rw [← hn, List.length_append, List.length_cons]
      omega

/-- The inside of a list is read exactly as the grammar reads it. -/
theorem readList_eq_ok_iff : readList body = .ok items ↔ Items body items := by
  rw [readList_eq_ok_iff_elements]
  exact ⟨fun ⟨hq, h⟩ => items_of_read hq h, Items.read⟩

/-! ### Values -/

/-- A value and what it stands for: a quoted text, any other text that starts with no bracket, or a
list in brackets. -/
inductive Writes : Bytes → Value → Prop
  | quoted {text : Bytes} : Writes (quote text) (.scalar text)
  | bare {text : Bytes} : Bare isLayout text → text.head? ≠ some (ascii '[') →
      (∀ t, text ≠ quote t) → Writes text (.scalar text)
  | list {body : Bytes} {items : List Bytes} : Items body items →
      Writes (ascii '[' :: (body ++ [ascii ']'])) (.list items)

theorem Writes.isBare (h : Writes s value) : Bare isLayout s := by
  cases h with
  | quoted => exact bare_quote _
  | bare h => exact h
  | list h =>
    refine ⟨?_, ?_⟩
    · rintro _ ⟨⟩
      rfl
    · rw [← List.cons_append, List.getLast?_concat]
      rintro _ ⟨⟩
      rfl

theorem readValue_eq_ok_iff (hs : Bare isLayout s) :
    readValue key s = .ok value ↔ Writes s value := by
  unfold readValue
  constructor
  · intro h
    split at h
    · rename_i hhead
      split at h
      · rename_i hlast
        obtain ⟨tail, rfl⟩ := List.head?_eq_some_iff.1 hhead
        have hne : tail ≠ [] := by
          rintro rfl
          exact absurd hlast (by decide)
        rw [List.getLast?_cons_of_ne_nil hne] at hlast
        obtain ⟨items, hitems, rfl⟩ := map_eq_ok_iff.1 h
        have := Writes.list (readList_eq_ok_iff.1 hitems)
        rwa [List.tail_cons, List.dropLast_append_getLast? _ hlast] at this
      · cases h
    · rename_i hhead
      obtain rfl := Except.ok.inj h
      cases htext : unquoted? s with
      | none =>
        refine .bare hs hhead fun t ht => ?_
        rw [unquoted?_eq_some_iff.2 ht] at htext
        cases htext
      | some text =>
        rw [unquoted?_eq_some_iff.1 htext]
        exact .quoted
  · intro h
    cases h with
    | quoted =>
      rename_i text
      have hhead : (quote text).head? ≠ some (ascii '[') := by
        rintro ⟨⟩
      rw [if_neg hhead, unquoted?_eq_some_iff.2 rfl]
      rfl
    | bare _ hhead hq =>
      have hnone : unquoted? s = none :=
        Option.eq_none_iff_forall_ne_some.2 fun t ht => hq t (unquoted?_eq_some_iff.1 ht)
      rw [if_neg hhead, hnone]
      rfl
    | list h =>
      rename_i body items
      have hlast : (ascii '[' :: (body ++ [ascii ']'])).getLast? = some (ascii ']') := by
        rw [← List.cons_append, List.getLast?_concat]
      rw [if_pos List.head?_cons, if_pos hlast, List.tail_cons, List.dropLast_concat]
      exact map_eq_ok_iff.2 ⟨_, readList_eq_ok_iff.2 h, rfl⟩

/-! ### Lines -/

/-- The header of the section, with white space around its name; what follows the bracket is not
looked at. -/
def IsHeader (s leftover : Bytes) : Prop :=
  ∃ before after, s = ascii '[' :: (before ++ sectionName ++ after ++ ascii ']' :: leftover) ∧
    Layout before ∧ Layout after

/-- A key, an equals sign and a value, with white space around the sign. -/
def Assigns (s key : Bytes) (value : Value) : Prop :=
  ∃ before after text, s = key ++ before ++ ascii '=' :: (after ++ text) ∧ Layout before ∧
    Layout after ∧ Writes text value

/-- What the content of a line says; `opened` says whether a section has begun. -/
inductive Says (opened : Bool) : Bytes → Line → Prop
  | blank : Says opened [] .blank
  | header {s leftover : Bytes} : IsHeader s leftover → Says opened s .header
  | setting {s key : Bytes} {value : Value} : opened = true → s.head? ≠ some (ascii '[') →
      Bare isLayout key → ascii '=' ∉ key → Assigns s key value →
      Says opened s (.setting (fullName key) value)

/-- A text is cut at the first byte of a kind. -/
theorem cut_iff {c : UInt8} {before after : Bytes} :
    s.takeWhile (· != c) = before ∧ s.dropWhile (· != c) = c :: after ↔
      s = before ++ c :: after ∧ c ∉ before := by
  constructor
  · rintro ⟨rfl, hdrop⟩
    refine ⟨by rw [← hdrop, List.takeWhile_append_dropWhile], fun hm => ?_⟩
    simpa using List.mem_takeWhile_imp hm
  · rintro ⟨rfl, hc⟩
    have hbefore : ∀ b ∈ before, (b != c) = true := fun b hb => by
      rw [bne_iff_ne]
      rintro rfl
      exact hc hb
    have hstop : ∀ b ∈ (c :: after).head?, (b != c) = false := by
      rintro _ ⟨⟩
      exact bne_self_eq_false c
    exact ⟨takeWhile_append hbefore hstop, dropWhile_append hbefore hstop⟩

theorem readHeader_eq_ok_iff {rest : Bytes} {l : Line} :
    readHeader rest = .ok l ↔ l = .header ∧ ∃ leftover, IsHeader (ascii '[' :: rest) leftover := by
  unfold readHeader
  dsimp only
  constructor
  · intro h
    split at h
    · rename_i hmem
      obtain ⟨inside, leftover, rfl, hinside⟩ :=
        List.eq_append_cons_of_mem (List.contains_iff_mem.1 hmem)
      rw [(cut_iff.2 ⟨rfl, hinside⟩).1] at h
      split at h
      · rename_i hname
        obtain ⟨-, before, after, rfl, hbefore, hafter⟩ := trimmed_eq_iff.1 hname
        exact ⟨(Except.ok.inj h).symm, leftover, before, after, rfl, hbefore, hafter⟩
      · cases h
    · cases h
  · rintro ⟨rfl, leftover, before, after, heq, hbefore, hafter⟩
    obtain rfl := (List.cons.inj heq).2
    have hinside : ascii ']' ∉ before ++ sectionName ++ after := by
      simp only [List.mem_append, not_or]
      exact ⟨⟨hbefore.notMem rfl, by decide⟩, hafter.notMem rfl⟩
    have hname : trimmed (before ++ sectionName ++ after) = sectionName :=
      trimmed_eq_iff.2 ⟨bare_of_all (by decide), before, after, rfl, hbefore, hafter⟩
    rw [if_pos (by simp), (cut_iff.2 ⟨rfl, hinside⟩).1, if_pos hname]

theorem readAssignment_eq_ok_iff {opened : Bool} {l : Line} (hs : Bare isLayout s) :
    readAssignment opened s = .ok l ↔
      opened = true ∧ ∃ key value, l = .setting (fullName key) value ∧ Bare isLayout key ∧
        ascii '=' ∉ key ∧ Assigns s key value := by
  unfold readAssignment
  constructor
  · intro h
    split at h
    · cases h
    · rename_i b rest hdrop
      obtain rfl : b = ascii '=' := by
        have := head?_dropWhile (· != ascii '=') s b (by simp [hdrop])
        simpa using this
      obtain ⟨inside, htake⟩ : ∃ inside, s.takeWhile (· != ascii '=') = inside := ⟨_, rfl⟩
      rw [htake] at h
      obtain ⟨rfl, hinside⟩ := cut_iff.1 ⟨htake, hdrop⟩
      split at h
      · cases h
      · rename_i hopened
        obtain ⟨value, hvalue, rfl⟩ := map_eq_ok_iff.1 h
        have hwrites := (readValue_eq_ok_iff (bare_trim isLayout rest)).1 hvalue
        obtain ⟨hbare, lead, before, hin, hlead, hbefore⟩ :=
          trimmed_eq_iff.1 (Eq.refl (trimmed inside))
        obtain ⟨-, after, tail, hrest, hafter, htail⟩ := trimmed_eq_iff.1 (Eq.refl (trimmed rest))
        -- white space is cut off only between the key, the sign and the value
        obtain rfl : lead = [] := by
          refine hlead.eq_nil_of_head? (t := trimmed inside ++ before ++ ascii '=' :: rest) ?_
          rw [← List.append_assoc, ← List.append_assoc, ← hin]
          exact hs.1
        obtain rfl : tail = [] := by
          refine htail.eq_nil_of_getLast? (t := inside ++ ascii '=' :: (after ++ trimmed rest)) ?_
          rw [List.append_assoc, List.cons_append, ← hrest]
          exact hs.2
        rw [List.nil_append] at hin
        rw [List.append_nil] at hrest
        refine ⟨by simpa using hopened, trimmed inside, value, rfl, hbare, fun hm => hinside ?_,
          before, after, trimmed rest, by rw [← hin, ← hrest], hbefore, hafter, hwrites⟩
        rw [hin]
        exact List.mem_append_left before hm
  · rintro ⟨rfl, key, value, rfl, hbare, hkey, before, after, text, rfl, hbefore, hafter, hwrites⟩
    have hcut : ascii '=' ∉ key ++ before := by
      simp only [List.mem_append, not_or]
      exact ⟨hkey, hbefore.notMem rfl⟩
    obtain ⟨htake, hdrop⟩ := cut_iff.2 ⟨rfl, hcut⟩
    have hname : trimmed (key ++ before) = key :=
      trimmed_eq_iff.2 ⟨hbare, [], before, by simp, layout_nil, hbefore⟩
    have htext : trimmed (after ++ text) = text :=
      trimmed_eq_iff.2 ⟨hwrites.isBare, after, [], by simp, hafter, layout_nil⟩
    rw [hdrop]
    dsimp only
    rw [htake, hname, htext]
    exact map_eq_ok_iff.2 ⟨value, (readValue_eq_ok_iff hwrites.isBare).2 hwrites, rfl⟩

theorem IsHeader.head? {leftover : Bytes} (h : IsHeader s leftover) :
    s.head? = some (ascii '[') := by
  obtain ⟨before, after, rfl, -⟩ := h
  rfl

/-- What has content is a header if a bracket starts it, else a setting. -/
theorem says_cons_iff {opened : Bool} {b : UInt8} {l : Line} (hs : Bare isLayout (b :: s)) :
    (if b = ascii '[' then readHeader s else readAssignment opened (b :: s)) = .ok l ↔
      Says opened (b :: s) l := by
  constructor
  · intro h
    split at h
    · rename_i hb
      obtain ⟨rfl, leftover, hheader⟩ := readHeader_eq_ok_iff.1 h
      exact .header (hb ▸ hheader)
    · rename_i hb
      obtain ⟨hopened, key, value, rfl, hkey, hnot, hassigns⟩ := (readAssignment_eq_ok_iff hs).1 h
      exact .setting hopened (fun h => hb (Option.some.inj h)) hkey hnot hassigns
  · intro h
    cases h with
    | header h =>
      obtain rfl : b = ascii '[' := Option.some.inj h.head?
      rw [if_pos rfl]
      exact readHeader_eq_ok_iff.2 ⟨rfl, _, h⟩
    | setting hopened hb hkey hnot hassigns =>
      rw [if_neg fun h => hb (congrArg some h)]
      exact (readAssignment_eq_ok_iff hs).2 ⟨hopened, _, _, rfl, hkey, hnot, hassigns⟩

theorem not_assigns_nil : ¬ Assigns [] key value := by
  rintro ⟨before, after, text, h, -⟩
  simp at h

/-- **A line is read exactly as the grammar reads it**: without its comment and the white space
around it, it is blank, a header or a setting. -/
theorem readLine_eq_ok_iff {opened : Bool} {line : Bytes} {l : Line} :
    readLine opened line = .ok l ↔ ∃ s, Content line s ∧ Says opened s l := by
  simp only [content_iff, exists_eq_left']
  have hbare := bare_trim isLayout (stripComment false line)
  unfold readLine
  change Bare isLayout (trimmed _) at hbare
  cases h : trimmed (stripComment false line) with
  | nil =>
    constructor
    · rintro ⟨⟩
      exact .blank
    · intro h
      cases h with
      | blank => rfl
      | header h => cases h.head?
      | setting _ _ _ _ h => exact absurd h not_assigns_nil
  | cons b s => exact says_cons_iff (h ▸ hbare)

end Settings

end MacroConstants
