import MacroConstants.Proofs.Json.Document
import MacroConstants.Proofs.Lockstep
import Mathlib.Data.List.Forall2

/-!
# The answer about one constant concerns no other

A constant asks about its own name or text only, and what it is told it keeps to itself.  So if two
resolvers agree about every expression but one, then all that can differ between what they let
print is the part of the constant of that name.

* `Resolver.AgreesExcept` : two resolvers that differ about one expression at most.
* `Constant.AsksItself`, `Catalog.Fresh` : whom a constant asks about, and catalogs that were just
  put together.
* `Constant.SameExcept` : what the two leave of a constant.
* `Report.Format.piece`, `Report.Format.join` : a printed catalog as the pieces of its constants.
* `Catalog.report_isolated` : **printed catalogs differ in the piece of one constant at most.**

The states of the two resolvers are not compared: what was answered about the one expression may
change the state in any way, as long as the other answers do not depend on it.
-/

namespace MacroConstants

variable {σ τ : Type} {n : Bytes}

/-- The two resolvers give the same answers about every expression but `n`, whatever their
states. -/
def Resolver.AgreesExcept (n : Bytes) (r : Resolver σ) (r' : Resolver τ) : Prop :=
  ∀ e, e ≠ n → ∀ s t, (r.type e s).1 = (r'.type e t).1 ∧
    ∀ type, (r.value type e s).1 = (r'.value type e t).1

/-- Their states need not be compared. -/
theorem Resolver.AgreesExcept.lockstepOn {r : Resolver σ} {r' : Resolver τ}
    (h : r.AgreesExcept n r') : r.LockstepOn (· ≠ n) (fun _ _ => True) r' where
  type e s t he _ := ⟨(h e he s t).1, trivial⟩
  value type e s t _ he _ := ⟨(h e he s t).2 type, trivial⟩

/-! ### One constant -/

namespace Constant

/-- Nobody is asked about anything but the name of the constant, which for an expression is its
text. -/
def AsksItself (c : Constant) : Prop := ∀ e, c.subject = some e → e = c.name

theorem Origin.asksItself (o : Origin) : o.constant.AsksItself := by
  intro e he
  rw [o.subject_constant] at he
  cases o with
  | named name raw asks => exact (Option.some.inj (Option.ite_none_right_eq_some.1 he).2).symm
  | classified => cases he
  | expression text asserted asks =>
    exact (Option.some.inj (Option.ite_none_right_eq_some.1 he).2).symm

/-- Two states of a constant: they are the same unless its name is `n`. -/
structure SameExcept (n : Bytes) (c c' : Constant) : Prop where
  name : c.name = c'.name
  same : c.name ≠ n → c = c'

/-- Of another name it asks about another expression. -/
theorem AsksItself.asks {c : Constant} (hc : c.AsksItself) (hn : c.name ≠ n) : c.Asks (· ≠ n) :=
  fun e he heq => hn ((hc e he).symm.trans heq)

end Constant

/-! ### Pieces of a printed catalog -/

namespace Report.Format

/-- What a printed catalog shows of a constant, by what is known of it. -/
def piece : Format → Constant → Bytes
  | .text, c => c.knownRow.render
  | .json, c => Json.object c.knownRecord.members

/-- Pieces put together: lines one after the other, or the elements of an array. -/
def join : Format → List Bytes → Bytes
  | .text, pieces => pieces.flatten
  | .json, [] => bytes "[]\n"
  | .json, p :: pieces => bytes "[\n" ++ Json.separated (p :: pieces) ++ bytes "\n]\n"

end Report.Format

/-- A piece stands between bytes that do not depend on it. -/
theorem Json.exists_separated (left right : List Bytes) :
    ∃ before after, ∀ p, separated (left ++ p :: right) = before ++ p ++ after := by
  induction left with
  | nil =>
    rcases right with _ | ⟨q, right⟩
    · exact ⟨[], [], fun p => by simp⟩
    · refine ⟨[], ascii ',' :: ascii '\n' :: separated (q :: right), fun p => ?_⟩
      exact separated_cons_cons p q right
  | cons l left ih =>
    obtain ⟨before, after, h⟩ := ih
    refine ⟨l ++ ascii ',' :: ascii '\n' :: before, after, fun p => ?_⟩
    obtain ⟨q, rest, hrest⟩ := List.exists_cons_of_ne_nil (l := left ++ p :: right) (by simp)
    have hp := h p
    rw [hrest] at hp
    rw [List.cons_append, hrest, separated_cons_cons, hp]
    simp

theorem Report.Format.exists_join (format : Report.Format) (left right : List Bytes) :
    ∃ before after, ∀ p, format.join (left ++ p :: right) = before ++ p ++ after := by
  cases format with
  | text => exact ⟨left.flatten, right.flatten, fun p => by simp [join]⟩
  | json =>
    obtain ⟨before, after, h⟩ := Json.exists_separated left right
    refine ⟨bytes "[\n" ++ before, after ++ bytes "\n]\n", fun p => ?_⟩
    obtain ⟨q, rest, hrest⟩ := List.exists_cons_of_ne_nil (l := left ++ p :: right) (by simp)
    have hp := h p
    rw [hrest] at hp ⊢
    rw [join, hp]
    simp only [List.append_assoc]

namespace Catalog

theorem shown_eq_join (format : Report.Format) (k : Catalog) :
    k.shown format = format.join (k.items.map format.piece) := by
  cases format with
  | text =>
    have hpieces : k.items.map (Report.Format.piece .text) =
        (k.items.map Constant.knownRow).map Report.Row.render := by
      rw [List.map_map]
      rfl
    rw [hpieces]
    exact List.flatMap_def
  | json =>
    have hpieces : k.items.map (Report.Format.piece .json) =
        ((k.items.map Constant.knownRecord).map Report.Record.members).map Json.object := by
      rw [List.map_map, List.map_map]
      rfl
    rw [shown, hpieces]
    generalize (k.items.map Constant.knownRecord).map Report.Record.members = os
    cases os with
    | nil => rfl
    | cons o os => exact Json.document_of_ne_nil (List.cons_ne_nil o os)

/-! ### Catalogs -/

/-- The constants were just made, in any of the ways there are. -/
def Fresh (k : Catalog) : Prop := ∀ c ∈ k.items, ∃ o : Constant.Origin, c = o.constant

theorem Fresh.add {k : Catalog} (hk : k.Fresh) (o : Constant.Origin) :
    (k.add o.constant).1.Fresh :=
  forall_add hk ⟨o, rfl⟩

theorem fresh_ofDump (keep : Selector) (text : Bytes) : (Discovery.ofDump keep text).1.Fresh :=
  forall_addDefinitions (k := {}) (fun o _ => ⟨o, rfl⟩) (fun _ hc => absurd hc List.not_mem_nil)

/-- What two looks leave of each constant of a list, constant by constant. -/
theorem forall₂_visitAll_visitAll {α β : Type} (look : Look σ α) (look' : Look τ β)
    {R : Constant → Constant → Prop} {cs : List Constant}
    (h : ∀ c ∈ cs, ∀ s t, R (look.run c s).2.1 (look'.run c t).2.1) (s : σ) (t : τ) :
    List.Forall₂ R (visitAll look cs s).2.1 (visitAll look' cs t).2.1 := by
  induction cs generalizing s t with
  | nil => exact .nil
  | cons c cs ih =>
    rw [List.forall_mem_cons] at h
    exact .cons (h.1 s t) (ih h.2 _ _)

/-- Of lists without two constants of one name that are the same except for `n`, one element at
most differs. -/
theorem eq_or_exists_of_sameExcept {cs cs' : List Constant}
    (h : List.Forall₂ (Constant.SameExcept n) cs cs') (hnodup : (cs.map Constant.name).Nodup) :
    n ∉ cs.map Constant.name ∧ cs = cs' ∨
      ∃ left c c' right, c.name = n ∧ c'.name = n ∧
        cs = left ++ c :: right ∧ cs' = left ++ c' :: right := by
  induction h with
  | nil => exact .inl ⟨List.not_mem_nil, rfl⟩
  | cons hc hcs ih =>
    rename_i c c' cs cs'
    rw [List.map_cons, List.nodup_cons] at hnodup
    by_cases hn : c.name = n
    · -- the name is used up, so nothing after it can differ
      rcases ih hnodup.2 with ⟨-, rfl⟩ | ⟨left, d, d', right, hd, -, rfl, -⟩
      · exact .inr ⟨[], c, c', cs, hn, hc.name.symm.trans hn, rfl, rfl⟩
      · have hmem : c.name ∈ (left ++ d :: right).map Constant.name := by
          rw [hn, ← hd]
          exact List.mem_map_of_mem (by simp)
        exact absurd hmem hnodup.1
    · obtain rfl := hc.same hn
      rcases ih hnodup.2 with ⟨hnot, rfl⟩ | ⟨left, d, d', right, hd, hd', rfl, rfl⟩
      · refine .inl ⟨?_, rfl⟩
        rw [List.map_cons, List.mem_cons, not_or]
        exact ⟨Ne.symm hn, hnot⟩
      · exact .inr ⟨c :: left, d, d', right, hd, hd', rfl, rfl⟩

section Agreement

variable {r : Resolver σ} {r' : Resolver τ} {k : Catalog} (h : r.AgreesExcept n r')
include h

theorem sameExcept_report (hk : k.Fresh) (resolve : Bool) (format : Report.Format) (s : σ)
    (t : τ) :
    List.Forall₂ (Constant.SameExcept n) (k.report r resolve format s).2.1.items
      (k.report r' resolve format t).2.1.items := by
  have hself : ∀ c ∈ k.items, c.AsksItself := by
    intro c hc
    obtain ⟨o, rfl⟩ := hk c hc
    exact o.asksItself
  cases format with
  | text =>
    refine forall₂_visitAll_visitAll (Constant.rowLook r resolve) (Constant.rowLook r' resolve)
      (fun c hc s t => ⟨?_, fun hn => ?_⟩) s t
    · rw [(Constant.rowLook r resolve).keeps, (Constant.rowLook r' resolve).keeps]
    · rw [(Constant.rowLook r resolve).keeps] at hn
      exact (Constant.row_together h.lockstepOn ((hself c hc).asks hn) trivial resolve).rest
  | json =>
    refine forall₂_visitAll_visitAll (Constant.recordLook r resolve)
      (Constant.recordLook r' resolve) (fun c hc s t => ⟨?_, fun hn => ?_⟩) s t
    · rw [(Constant.recordLook r resolve).keeps, (Constant.recordLook r' resolve).keeps]
    · rw [(Constant.recordLook r resolve).keeps] at hn
      exact (Constant.record_together h.lockstepOn ((hself c hc).asks hn) trivial resolve).rest

end Agreement

theorem names_report (r : Resolver σ) (k : Catalog) (resolve : Bool) (format : Report.Format)
    (s : σ) : (k.report r resolve format s).2.1.names = k.names := by
  cases format with
  | text => exact map_name_visitAll (Constant.rowLook r resolve) k.items s
  | json => exact map_name_visitAll (Constant.recordLook r resolve) k.items s

/-- **The answer about one constant concerns no other.**  A catalog that was just put together is
printed as a piece for each constant, in the order of the catalog.  If two resolvers agree about
every expression but `n`, then what they let print, resolved or not, has the same pieces of all
constants that are not named `n`.  Byte for byte: without a constant of that name the same is
printed, and with one all that may differ is the piece of it, between bytes that are the same. -/
theorem report_isolated {r : Resolver σ} {r' : Resolver τ} (h : r.AgreesExcept n r') {k : Catalog}
    (hk : k.Fresh) (resolve : Bool) (format : Report.Format) (s : σ) (t : τ) :
    let printed := k.report r resolve format s
    let printed' := k.report r' resolve format t
    printed.1 = format.join (printed.2.1.items.map format.piece) ∧
    printed'.1 = format.join (printed'.2.1.items.map format.piece) ∧
    printed.2.1.names = k.names ∧ printed'.2.1.names = k.names ∧
    List.Forall₂ (fun c c' => c.name = c'.name ∧ (c.name ≠ n → format.piece c = format.piece c'))
      printed.2.1.items printed'.2.1.items ∧
    (n ∉ k.names → printed.1 = printed'.1) ∧
    (n ∈ k.names → ∃ before after, ∃ c ∈ printed.2.1.items, ∃ c' ∈ printed'.2.1.items,
      c.name = n ∧ c'.name = n ∧
      printed.1 = before ++ format.piece c ++ after ∧
      printed'.1 = before ++ format.piece c' ++ after) := by
  intro printed printed'
  have hprinted : printed.1 = format.join (printed.2.1.items.map format.piece) := by
    rw [← shown_eq_join]
    exact report_eq_shown r resolve k s format
  have hprinted' : printed'.1 = format.join (printed'.2.1.items.map format.piece) := by
    rw [← shown_eq_join]
    exact report_eq_shown r' resolve k t format
  have hnames : printed.2.1.names = k.names := names_report r k resolve format s
  have hnames' : printed'.2.1.names = k.names := names_report r' k resolve format t
  have hsame : List.Forall₂ (Constant.SameExcept n) printed.2.1.items printed'.2.1.items :=
    sameExcept_report h hk resolve format s t
  refine ⟨hprinted, hprinted', hnames, hnames', ?_, ?_⟩
  · exact hsame.imp fun {c c'} hc => ⟨hc.name, fun hn => congrArg format.piece (hc.same hn)⟩
  rw [← hnames]
  rcases eq_or_exists_of_sameExcept hsame printed.2.1.distinct with
    ⟨hnot, heq⟩ | ⟨left, c, c', right, hc, hc', hitems, hitems'⟩
  · refine ⟨fun _ => ?_, fun hmem => absurd hmem hnot⟩
    rw [hprinted, hprinted', heq]
  · have hmem : c ∈ printed.2.1.items := hitems ▸ by simp
    refine ⟨fun hnot => absurd (hc ▸ List.mem_map_of_mem hmem) hnot, fun _ => ?_⟩
    obtain ⟨before, after, hjoin⟩ :=
      format.exists_join (left.map format.piece) (right.map format.piece)
    refine ⟨before, after, c, hmem, c', hitems' ▸ by simp, hc, hc', ?_, ?_⟩
    · rw [hprinted, hitems, List.map_append, List.map_cons, hjoin]
    · rw [hprinted', hitems', List.map_append, List.map_cons, hjoin]

/-- A dump with a sum, a statement and a literal. -/
def isolationDump : Bytes := bytes "#define A (1+2)\n#define N return\n#define B 7\n"

/-- Whether `N` can be resolved or not, all else is printed alike, also an expression with `N`. -/
theorem report_isolated_sums :
    let known : Answers :=
      { types := [(bytes "A", .int), (bytes "A+N", .int)],
        values := [(bytes "A", .int 3), (bytes "A+N", .int 8)] }
    let r : Resolver Unit := Answers.resolver
      { types := (bytes "N", .int) :: known.types, values := (bytes "N", .int 5) :: known.values }
    let sum := Constant.Origin.expression (bytes "A+N") none true
    let k := ((Discovery.ofDump Selector.default isolationDump).1.add sum.constant).1
    let printed := (k.report r true .text ()).1
    let printed' := (k.report (known.resolver (σ := Unit)) true .text ()).1
    printed = bytes "A\tint\t3\nN\tint\t5\nB\tint\t7\nA+N\tint\t8\n" ∧
    printed' = bytes "A\tint\t3\nN\tother\t\nB\tint\t7\nA+N\tint\t8\n" ∧
    r.AgreesExcept (bytes "N") (known.resolver (σ := Unit)) ∧ k.Fresh ∧
    ∃ before after own own', printed = before ++ own ++ after ∧
      printed' = before ++ own' ++ after := by
  intro known r sum k printed printed'
  have hagree : r.AgreesExcept (bytes "N") (known.resolver (σ := Unit)) := by
    intro e he s t
    have hskip {α : Type} (a : α) (known : List (Bytes × α)) :
        ((bytes "N", a) :: known).lookup e = known.lookup e := by
      rw [List.lookup_cons, beq_eq_false_iff_ne.2 he]
    refine ⟨?_, fun type => hskip (Value.int 5) known.values⟩
    exact congrArg (fun found : Option TypeTag => found.getD .other) (hskip TypeTag.int known.types)
  have hfresh : k.Fresh := (fresh_ofDump Selector.default isolationDump).add sum
  have hisolated := report_isolated hagree hfresh true .text () ()
  obtain ⟨-, -, -, -, -, -, hpiece⟩ := hisolated
  obtain ⟨before, after, c, -, c', -, -, -, hprinted, hprinted'⟩ := hpiece (by decide)
  exact ⟨by decide, by decide, hagree, hfresh, before, after, _, _, hprinted, hprinted'⟩

end Catalog

end MacroConstants
