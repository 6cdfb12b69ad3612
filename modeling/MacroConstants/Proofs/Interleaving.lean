import MacroConstants.Proofs.Json.Written
import MacroConstants.Proofs.Steps
import Mathlib.Data.Fintype.Card
import Mathlib.Data.List.Nodup

/-!
# Calls at the same time

Any number of probers may be at work in one process, with steps of their calls in any order.  They
share the temporary directory, the host and the counter of probes.  The counter goes up in one step,
so no two calls have the same number as long as it does not come around; and the name of a probe's
file ends in the number, so a path tells it, whatever the directory, the kind of the call, the
process and the language are.  That directories have names of their own is not needed for this.  It
is true while they are there, as none is made where one is, but a name may be given again.

* `Probe.number_eq_of_path` : a path tells the number of its probe.
* `Interleaving`, `Interleaving.after` : what is shared and how far each call is, after steps of
  calls in some order.
* `Interleaving.Exclusive` : no two calls have the same directory at once.
* `Interleaving.Orderly` : calls take their numbers one after the other, and a command is run at
  most once for each number.
* `Interleaving.paths_distinct` : **no path is ever used for two files.**
-/

namespace MacroConstants

variable {ι τ τ' : Type}

/-! ### Numbers in paths -/

theorem Numeral.decimal_injective : Function.Injective Numeral.decimal := by
  intro m n h
  rw [← Numeral.denoted_decimal m, h, Numeral.denoted_decimal]

namespace Probe

variable {h : Host τ} {h' : Host τ'} {directory directory' stem stem' e e' : Bytes}
  {n n' : UInt64}

/-- A path tells the number of its probe: it is between the last hyphen and the point. -/
theorem number_eq_of_path (he : ascii '-' ∉ e) (he' : ascii '-' ∉ e')
    (heq : base h directory stem n ++ ascii '.' :: e =
      base h' directory' stem' n' ++ ascii '.' :: e') : n = n' := by
  have hcut : ∀ {τ : Type} (h : Host τ) (directory stem e : Bytes) (n : UInt64),
      base h directory stem n ++ ascii '.' :: e =
        (directory ++ bytes "/" ++ stem ++ bytes "-" ++ Numeral.decimal h.process) ++
          ascii '-' :: (Numeral.decimal n.toNat ++ ascii '.' :: e) := by
    intro τ h directory stem e n
    have hhyphen : bytes "-" = [ascii '-'] := rfl
    simp [base, hhyphen]
  have hplain : ∀ {n : UInt64} {e : Bytes}, ascii '-' ∉ e →
      ascii '-' ∉ Numeral.decimal n.toNat ++ ascii '.' :: e := by
    intro n e he
    simp only [List.mem_append, List.mem_cons, not_or]
    exact ⟨Numeral.notMem_decimal (by decide) _, by decide, he⟩
  rw [hcut, hcut] at heq
  have hlast := Bytes.eq_of_append_cons_last (hplain he) (hplain he') heq
  have hdigits := Bytes.eq_of_append_cons (Numeral.notMem_decimal (by decide) _)
    (Numeral.notMem_decimal (by decide) _) hlast
  exact UInt64.toNat_inj.1 (Numeral.decimal_injective hdigits)

/-- The files of a probe lie right in its directory. -/
theorem slash_notMem_base (hstem : ascii '/' ∉ stem) (he : ascii '/' ∉ e) :
    ∃ name, base h directory stem n ++ e = directory ++ bytes "/" ++ name ∧ ascii '/' ∉ name := by
  refine ⟨stem ++ bytes "-" ++ Numeral.decimal h.process ++ bytes "-" ++
    Numeral.decimal n.toNat ++ e, by simp [base], ?_⟩
  have hhyphen : ascii '/' ∉ bytes "-" := by decide
  simp [hstem, he, hhyphen, Numeral.slash_notMem_decimal]

end Probe

/-! ### Calls in any order -/

open Prober

/-- A command that a call ran, with the directory that the call had. -/
structure Run (ι : Type) where
  call : ι
  directory : Option Bytes
  command : Invocation

namespace Run

/-- The source file, on which the command works. -/
def source (r : Run ι) : Bytes := r.command.source

/-- The module, whose path is the last argument. -/
def module (r : Run ι) : Bytes := r.command.argv.getLast?.getD []

/-- The paths that the command is given. -/
def paths (r : Run ι) : List Bytes := [r.source, r.module]

variable {r : Run ι} {c : Configuration} {path base : Bytes}

theorem module_of_buildsAt (hr : c.BuildsAt base r.command) : r.module = base ++ bytes ".so" := by
  rw [module, hr.getLast?]
  rfl

/-- Both paths end in a suffix. -/
theorem exists_suffix (hr : c.BuildsAt base r.command) (hpath : path ∈ r.paths) :
    ∃ e, path = base ++ ascii '.' :: e ∧ ascii '-' ∉ e ∧ ascii '/' ∉ e := by
  have hpoint : bytes "." = [ascii '.'] := rfl
  rcases List.mem_pair.1 hpath with rfl | rfl
  · refine ⟨c.language.suffix, ?_, ?_, ?_⟩
    · rw [source, hr.source, hpoint, List.append_assoc, List.singleton_append]
    all_goals cases c.language <;> decide
  · exact ⟨bytes "so", module_of_buildsAt hr, by decide, by decide⟩

/-- The two paths of a command differ. -/
theorem nodup_paths (hr : c.BuildsAt base r.command) : r.paths.Nodup := by
  have hne : r.source ≠ r.module := by
    rw [module_of_buildsAt hr]
    exact hr.ne_source.symm
  simpa [paths] using hne

end Run

/-- What is shared by calls, how far each of them is, and which of them ran what. -/
structure Interleaving (ι τ : Type) where
  shared : RunState τ
  stage : ι → Stage := fun _ => .begun
  runs : List (Run ι) := []

namespace Interleaving

variable [DecidableEq ι] (calls : ι → Prober τ × Call)

/-- A step of one call. -/
def step (x : Interleaving ι τ) (i : ι) : Interleaving ι τ :=
  let (stage, shared) := (calls i).2.advance (calls i).1 (x.stage i) x.shared
  let ran := shared.invocations.drop x.shared.invocations.length
  { shared
    stage := Function.update x.stage i stage
    runs := x.runs ++ ran.map fun command => ⟨i, (x.stage i).directory?, command⟩ }

/-- Steps of calls in some order, from a state in which no call has begun. -/
def after (schedule : List ι) (s : RunState τ) : Interleaving ι τ :=
  schedule.foldl (step calls) { shared := s }

/-- The call makes some progress, and what was run meanwhile was run by it. -/
theorem exists_progress (x : Interleaving ι τ) (i : ι) :
    ∃ stage' s', (calls i).1.Progress x.shared (x.stage i) stage' s' ∧
      x.step calls i = ⟨s', Function.update x.stage i stage', x.runs ++
        (s'.invocations.drop x.shared.invocations.length).map fun command =>
          ⟨i, (x.stage i).directory?, command⟩⟩ :=
  ⟨_, _, (calls i).2.advance_progress (calls i).1 (x.stage i) x.shared, rfl⟩

/-! ### Directories -/

/-- The directory of a call is there, and no other call has it. -/
structure Exclusive (x : Interleaving ι τ) : Prop where
  held : ∀ i directory, (x.stage i).directory? = some directory → x.shared.taken directory = true
  own : ∀ i j directory, (x.stage i).directory? = some directory →
    (x.stage j).directory? = some directory → i = j

variable {calls} {x : Interleaving ι τ} {i : ι} {stage' : Stage} {s' : RunState τ}
  {runs : List (Run ι)}

/-- One call moves on: what it has then is there and is no other call's, and what the others have is
still there. -/
theorem Exclusive.update (hx : x.Exclusive)
    (hnew : ∀ directory, stage'.directory? = some directory → s'.taken directory = true ∧
      ∀ j, j ≠ i → (x.stage j).directory? ≠ some directory)
    (hrest : ∀ j directory, j ≠ i → (x.stage j).directory? = some directory →
      s'.taken directory = true) :
    Exclusive ⟨s', Function.update x.stage i stage', runs⟩ where
  held := by
    intro j directory hj
    dsimp only at hj ⊢
    by_cases hji : j = i
    · rw [hji, Function.update_self] at hj
      exact (hnew directory hj).1
    · rw [Function.update_of_ne hji] at hj
      exact hrest j directory hji hj
  own := by
    intro j k directory hj hk
    dsimp only at hj hk
    by_cases hji : j = i <;> by_cases hki : k = i
    · rw [hji, hki]
    · rw [hji, Function.update_self] at hj
      rw [Function.update_of_ne hki] at hk
      exact absurd hk ((hnew directory hj).2 k hki)
    · rw [hki, Function.update_self] at hk
      rw [Function.update_of_ne hji] at hj
      exact absurd hj ((hnew directory hk).2 j hji)
    · rw [Function.update_of_ne hji] at hj
      rw [Function.update_of_ne hki] at hk
      exact hx.own j k directory hj hk

/-- One call moves on and has nothing new, while the same paths are taken. -/
theorem Exclusive.keep (hx : x.Exclusive) (htaken : ∀ path, s'.taken path = x.shared.taken path)
    (hdirectory : ∀ directory, stage'.directory? = some directory →
      (x.stage i).directory? = some directory) :
    Exclusive ⟨s', Function.update x.stage i stage', runs⟩ := by
  refine hx.update (fun directory hd => ⟨?_, fun j hji hj => ?_⟩) fun j directory _ hj => ?_
  · rw [htaken]
    exact hx.held i directory (hdirectory directory hd)
  · exact hji (hx.own j i directory hj (hdirectory directory hd))
  · rw [htaken]
    exact hx.held j directory hj

theorem Exclusive.step (hx : x.Exclusive) (i : ι) : (x.step calls i).Exclusive := by
  obtain ⟨stage', s', hprogress, hstep⟩ := exists_progress calls x i
  rw [hstep]
  generalize hstage : x.stage i = stage at hprogress
  cases hprogress with
  | @made directory e _ hfree hfiles =>
    have htaken : ∀ path, s'.taken path = (x.shared.taken path || directory == path) := by
      intro path
      simp [RunState.taken, hfiles, TemporaryFiles.create]
    refine hx.update (fun path hpath => ?_) fun j path _ hj => ?_
    · obtain rfl := Option.some.inj hpath
      refine ⟨by simp [htaken], fun j _ hj => ?_⟩
      rw [hx.held j directory hj] at hfree
      cases hfree
    · rw [htaken, hx.held j path hj, Bool.true_or]
  | numbered => exact hx.keep (fun _ => rfl) fun _ hd => hstage ▸ hd
  | ran _ _ _ _ htaken => exact hx.keep htaken fun _ hd => hstage ▸ hd
  | @removed directory outcome =>
    have hheld : (x.stage i).directory? = some directory := by
      rw [hstage]
      rfl
    -- what is removed is this call's, so the directories of the others stay
    refine hx.update (fun _ hpath => by cases hpath) fun j path hji hj => ?_
    have hne : path ≠ directory := fun h => hji (hx.own j i path hj (h ▸ hheld))
    have htaken := hx.held j path hj
    rw [RunState.taken, List.any_eq_true] at htaken ⊢
    obtain ⟨f, hf, hpath⟩ := htaken
    refine ⟨f, List.mem_filter.2 ⟨hf, ?_⟩, hpath⟩
    rw [bne_iff_ne, beq_iff_eq.1 hpath]
    exact hne
  | quiet hquiet _ hdirectory => exact hx.keep hquiet.taken fun d hd => hstage ▸ hdirectory d hd

/-! ### Numbers -/

/-- The number that is taken after `k` others. -/
def ticket (s : RunState τ) (k : ℕ) : UInt64 := s.probes + UInt64.ofNat (k + 1)

/-- As long as the counter does not come around, numbers are different. -/
theorem ticket_inj {s : RunState τ} {k l : ℕ} (hk : k + 1 < UInt64.size)
    (hl : l + 1 < UInt64.size) (h : ticket s k = ticket s l) : k = l := by
  have hnat := congrArg UInt64.toNat ((UInt64.add_right_inj s.probes).1 h)
  rw [UInt64.toNat_ofNat_of_lt' hk, UInt64.toNat_ofNat_of_lt' hl] at hnat
  exact Nat.succ_inj.1 hnat

/-- Since the first state, the calls of the list have taken their numbers, in this order.  A call
has no other number than this, and has run at most one command, on the files of this number in the
directory that it had. -/
structure Orderly (calls : ι → Prober τ × Call) (s : RunState τ) (tickets : List ι)
    (x : Interleaving ι τ) : Prop where
  once : tickets.Nodup
  counter : x.shared.probes = s.probes + UInt64.ofNat tickets.length
  passed : ∀ i ∈ tickets, 3 ≤ (x.stage i).order
  number : ∀ i number, (x.stage i).number? = some number →
    ∃ k, tickets[k]? = some i ∧ number = ticket s k
  commands : x.shared.invocations = s.invocations ++ x.runs.map Run.command
  single : (x.runs.map Run.call).Nodup
  done : ∀ r ∈ x.runs, 5 ≤ (x.stage r.call).order
  builds : ∀ r ∈ x.runs, ∃ directory stem k, r.directory = some directory ∧ ascii '/' ∉ stem ∧
    tickets[k]? = some r.call ∧ (calls r.call).1.config.BuildsAt
      (Probe.base (calls r.call).1.host directory stem (ticket s k)) r.command

omit [DecidableEq ι] in
theorem orderly_start (calls : ι → Prober τ × Call) (s : RunState τ) :
    Orderly calls s [] { shared := s } where
  once := .nil
  counter := by simp
  passed := List.forall_mem_nil _
  number _ _ := nofun
  commands := by simp
  single := .nil
  done := List.forall_mem_nil _
  builds := List.forall_mem_nil _

variable {s : RunState τ} {tickets : List ι}

/-- A stage of one call is at least as late as before. -/
theorem order_update {n : ℕ} (horder : (x.stage i).order ≤ stage'.order) {j : ι}
    (hj : n ≤ (x.stage j).order) : n ≤ (Function.update x.stage i stage' j).order := by
  by_cases hji : j = i
  · rw [hji, Function.update_self]
    exact (hji ▸ hj).trans horder
  · rwa [Function.update_of_ne hji]

/-- One call moves on and takes no number. -/
theorem Orderly.keep (hx : Orderly calls s tickets x) (hprobes : s'.probes = x.shared.probes)
    (hinvocations : s'.invocations = x.shared.invocations)
    (horder : (x.stage i).order ≤ stage'.order)
    (hnumber : ∀ number, stage'.number? = some number → (x.stage i).number? = some number) :
    Orderly calls s tickets ⟨s', Function.update x.stage i stage', x.runs⟩ :=
  { hx with
    counter := hprobes.trans hx.counter
    passed := fun j hj => order_update horder (hx.passed j hj)
    number := by
      intro j number hj
      dsimp only at hj
      by_cases hji : j = i
      · rw [hji, Function.update_self] at hj
        exact hji ▸ hx.number i number (hnumber number hj)
      · rw [Function.update_of_ne hji] at hj
        exact hx.number j number hj
    commands := hinvocations.trans hx.commands
    done := fun r hr => order_update horder (hx.done r hr) }

/-- A call takes the next number. -/
theorem Orderly.take (hx : Orderly calls s tickets x) (hprobes : s'.probes = x.shared.probes + 1)
    (hinvocations : s'.invocations = x.shared.invocations) (hearly : (x.stage i).order < 3)
    (horder : 3 ≤ stage'.order) (hnumber : stage'.number? = some (x.shared.probes + 1)) :
    Orderly calls s (tickets ++ [i]) ⟨s', Function.update x.stage i stage', x.runs⟩ := by
  have hnew : i ∉ tickets := fun hi => absurd (hx.passed i hi) (Nat.not_le.2 hearly)
  have hlater : (x.stage i).order ≤ stage'.order := by omega
  have hticket : x.shared.probes + 1 = ticket s tickets.length := by
    rw [hx.counter, ticket, UInt64.ofNat_add, UInt64.add_assoc]
    rfl
  have hkeep : ∀ {k : ℕ} {j : ι}, tickets[k]? = some j → (tickets ++ [i])[k]? = some j := by
    intro k j hk
    rw [List.getElem?_append_left (List.getElem?_eq_some_iff.1 hk).1, hk]
  exact
    { hx with
      once := by
        rw [← List.concat_eq_append]
        exact hx.once.concat hnew
      counter := by
        rw [hprobes, hticket, List.length_append]
        rfl
      passed := by
        intro j hj
        rcases List.mem_append.1 hj with hj | hj
        · exact order_update hlater (hx.passed j hj)
        · rw [List.mem_singleton.1 hj]
          dsimp only
          rwa [Function.update_self]
      number := by
        intro j number hj
        dsimp only at hj
        by_cases hji : j = i
        · rw [hji, Function.update_self, hnumber] at hj
          obtain rfl := Option.some.inj hj
          exact ⟨tickets.length, by rw [hji, List.getElem?_concat_length], hticket⟩
        · rw [Function.update_of_ne hji] at hj
          obtain ⟨k, hk, hnumber⟩ := hx.number j number hj
          exact ⟨k, hkeep hk, hnumber⟩
      commands := hinvocations.trans hx.commands
      done := fun r hr => order_update hlater (hx.done r hr)
      builds := by
        intro r hr
        obtain ⟨directory, stem, k, hdirectory, hstem, hk, hbuilds⟩ := hx.builds r hr
        exact ⟨directory, stem, k, hdirectory, hstem, hkeep hk, hbuilds⟩ }

/-- A call runs the compiler on the files of its number. -/
theorem Orderly.run (hx : Orderly calls s tickets x) {directory stem : Bytes} {number : UInt64}
    {command : Invocation} (hstage : x.stage i = .written directory number)
    (hstem : ascii '/' ∉ stem) (hbuilds : (calls i).1.config.BuildsAt
      (Probe.base (calls i).1.host directory stem number) command)
    (hinvocations : s'.invocations = x.shared.invocations ++ [command])
    (hprobes : s'.probes = x.shared.probes) (horder : 5 ≤ stage'.order)
    (hnumber : stage'.number? = none) :
    Orderly calls s tickets ⟨s', Function.update x.stage i stage',
      x.runs ++ [⟨i, some directory, command⟩]⟩ := by
  have hearly : (x.stage i).order = 4 := by
    rw [hstage]
    rfl
  have hlater : (x.stage i).order ≤ stage'.order := by omega
  have hnew : i ∉ x.runs.map Run.call := by
    intro hi
    obtain ⟨r, hr, rfl⟩ := List.mem_map.1 hi
    have hdone := hx.done r hr
    omega
  -- the number was taken before, and the call takes no other
  obtain ⟨k, hk, rfl⟩ := hx.number i number (by rw [hstage]; rfl)
  exact
    { hx with
      counter := hprobes.trans hx.counter
      passed := fun j hj => order_update hlater (hx.passed j hj)
      number := by
        intro j number hj
        dsimp only at hj
        by_cases hji : j = i
        · rw [hji, Function.update_self, hnumber] at hj
          cases hj
        · rw [Function.update_of_ne hji] at hj
          exact hx.number j number hj
      commands := by
        rw [hinvocations, hx.commands, List.map_append, List.map_singleton, List.append_assoc]
      single := by
        rw [List.map_append, List.map_singleton, ← List.concat_eq_append]
        exact hx.single.concat hnew
      done := by
        intro r hr
        rcases List.mem_append.1 hr with hr | hr
        · exact order_update hlater (hx.done r hr)
        · rw [List.mem_singleton.1 hr]
          dsimp only
          rwa [Function.update_self]
      builds := by
        intro r hr
        rcases List.mem_append.1 hr with hr | hr
        · exact hx.builds r hr
        · rw [List.mem_singleton.1 hr]
          exact ⟨directory, stem, k, rfl, hstem, hk, hbuilds⟩ }

theorem Orderly.step (hx : Orderly calls s tickets x) (i : ι) :
    ∃ tickets, Orderly calls s tickets (x.step calls i) := by
  obtain ⟨stage', s', hprogress, hstep⟩ := exists_progress calls x i
  rw [hstep]
  generalize hstage : x.stage i = stage at hprogress
  have hidle : s'.invocations = x.shared.invocations → x.runs ++
      (s'.invocations.drop x.shared.invocations.length).map
        (fun command => (⟨i, stage.directory?, command⟩ : Run ι)) = x.runs := by
    intro h
    rw [h, List.drop_length, List.map_nil, List.append_nil]
  cases hprogress with
  | made hfree hfiles hprobes hinvocations =>
    rw [hidle hinvocations]
    exact ⟨tickets, hx.keep hprobes hinvocations (hstage ▸ Nat.zero_le _) nofun⟩
  | numbered =>
    rw [hidle rfl]
    exact ⟨tickets ++ [i], hx.take rfl rfl (hstage ▸ Nat.lt_succ_self 2) le_rfl rfl⟩
  | ran hstem hbuilds hinvocations hprobes htaken =>
    rw [hinvocations, List.drop_left]
    exact ⟨tickets, hx.run hstage hstem hbuilds hinvocations hprobes le_rfl rfl⟩
  | removed =>
    rw [hidle rfl]
    exact ⟨tickets, hx.keep rfl rfl (hstage ▸ Nat.le_succ 6) nofun⟩
  | quiet hquiet horder hdirectory hnumber =>
    rw [hidle hquiet.invocations]
    exact ⟨tickets, hx.keep hquiet.probes hquiet.invocations (hstage ▸ horder) fun n hn =>
      hstage ▸ hnumber n hn⟩

theorem Orderly.steps (hx : Orderly calls s tickets x) (schedule : List ι) :
    ∃ tickets, Orderly calls s tickets (schedule.foldl (Interleaving.step calls) x) := by
  induction schedule generalizing tickets x with
  | nil => exact ⟨tickets, hx⟩
  | cons i schedule ih =>
    obtain ⟨tickets', hnext⟩ := hx.step i
    exact ih hnext

theorem Exclusive.steps (hx : x.Exclusive) (schedule : List ι) :
    (schedule.foldl (Interleaving.step calls) x).Exclusive := by
  induction schedule generalizing x with
  | nil => exact hx
  | cons i schedule ih => exact ih (hx.step i)

omit [DecidableEq ι] in
/-- Two calls that are given the same path are one. -/
theorem Orderly.call_eq_of_path [Fintype ι] (hfew : Fintype.card ι < UInt64.size)
    (hx : Orderly calls s tickets x) {r r' : Run ι} (hr : r ∈ x.runs) (hr' : r' ∈ x.runs)
    {path : Bytes} (hpath : path ∈ r.paths) (hpath' : path ∈ r'.paths) : r.call = r'.call := by
  obtain ⟨directory, stem, k, -, -, hk, hbuilds⟩ := hx.builds r hr
  obtain ⟨directory', stem', l, -, -, hl, hbuilds'⟩ := hx.builds r' hr'
  obtain ⟨e, he, hhyphen, -⟩ := Run.exists_suffix hbuilds hpath
  obtain ⟨e', he', hhyphen', -⟩ := Run.exists_suffix hbuilds' hpath'
  have hnumber := Probe.number_eq_of_path hhyphen hhyphen' (he.symm.trans he')
  -- no call takes two numbers, so there are at most as many numbers as calls
  have hlength := hx.once.length_le_card
  have hk' := (List.getElem?_eq_some_iff.1 hk).1
  have hl' := (List.getElem?_eq_some_iff.1 hl).1
  obtain rfl := ticket_inj (by omega) (by omega) hnumber
  exact Option.some.inj (hk.symm.trans hl)

/-- **No path is ever used for two files.**  Of fewer calls than the counter can count, of any kinds
and of any probers in one process, each has its steps in order, and the steps of different calls
come in any order.  Alone, a call comes to what it comes to in one go.  Then the commands that were
run are those of the calls, at most one each; no two of the paths they are given are the same, be it
the two of one call or any of two calls; each command builds its module from its source file, and
both of them are right in the directory that the call had made; and while a call has a directory, no
other has. -/
theorem paths_distinct [Fintype ι] (calls : ι → Prober τ × Call)
    (hfew : Fintype.card ι < UInt64.size) (schedule : List ι) (s : RunState τ) :
    let x := after calls schedule s
    (∀ i s,
      (fun y : Stage × RunState τ => (calls i).2.advance (calls i).1 y.1 y.2)^[8] (.begun, s) =
        (.ended ((calls i).2.reply (calls i).1 s).1, ((calls i).2.reply (calls i).1 s).2)) ∧
    x.shared.invocations = s.invocations ++ x.runs.map Run.command ∧
    (x.runs.map Run.call).Nodup ∧
    (x.runs.flatMap Run.paths).Nodup ∧
    (∀ r ∈ x.runs,
      r.command.argv = (calls r.call).1.config.probeCommand r.source r.module ∧
      ∃ directory, r.directory = some directory ∧ ∀ path ∈ r.paths, ∃ name,
        path = directory ++ bytes "/" ++ name ∧ ascii '/' ∉ name) ∧
    ∀ i j directory, (x.stage i).directory? = some directory →
      (x.stage j).directory? = some directory → i = j := by
  have hempty : Exclusive ({ shared := s } : Interleaving ι τ) := ⟨nofun, nofun⟩
  obtain ⟨tickets, hx⟩ := (orderly_start calls s).steps schedule
  refine ⟨fun i s => (calls i).2.reply_eq_iterate (calls i).1 s, hx.commands, hx.single, ?_,
    fun r hr => ?_, (hempty.steps schedule).own⟩
  · refine List.nodup_flatMap.2 ⟨fun r hr => ?_, ?_⟩
    · obtain ⟨directory, stem, k, -, -, -, hbuilds⟩ := hx.builds r hr
      exact Run.nodup_paths hbuilds
    · refine (List.pairwise_map.1 hx.single).imp_of_mem fun hr hr' hne => ?_
      exact fun path hpath hpath' => hne (hx.call_eq_of_path hfew hr hr' hpath hpath')
  · obtain ⟨directory, stem, k, hdirectory, hstem, -, hbuilds⟩ := hx.builds r hr
    refine ⟨?_, directory, hdirectory, fun path hpath => ?_⟩
    · rw [Run.module_of_buildsAt hbuilds]
      exact hbuilds.argv
    · obtain ⟨e, rfl, -, hslash⟩ := Run.exists_suffix hbuilds hpath
      have hpoint : ascii '/' ≠ ascii '.' := by decide
      exact Probe.slash_notMem_base hstem (by simp [hslash, hpoint])

/-- A host that gives every directory the same name. -/
def repeating (temporary : Bytes) : Host Unit where
  temporary := temporary
  process := 7
  unique t := (.ok (bytes "x"), t)
  restrict t := (none, t)
  write _ t := (none, t)
  invoke _ t := ({ result := {} }, t)
  loaderError t := (none, t)

/-- Calls of both kinds, in both languages and with two temporary directories. -/
def crowd : Fin 3 → Prober Unit × Call
  | 0 => (⟨repeating (bytes "/tmp"), { compiler := [bytes "cc"] }, true⟩, .type (bytes "A"))
  | 1 => (⟨repeating (bytes "/tmp"), { compiler := [bytes "c++"], language := .cxx }, true⟩,
    .value .int (bytes "A"))
  | 2 => (⟨repeating (bytes "/var"), { compiler := [bytes "cc"] }, false⟩, .value .int (bytes "B"))

/-- Two calls at the same time, and then the third. -/
def crowded : List (Fin 3) := [0, 2, 0, 2, 2, 0, 0, 2, 0, 2, 0, 0, 0] ++ List.replicate 8 1

/-- The third call is given the directory of the first, and other paths. -/
theorem paths_distinct_crowded :
    Fintype.card (Fin 3) < UInt64.size ∧
      let x := after crowd crowded { host := () }
      x.runs.map Run.call = [0, 2, 1] ∧
      x.runs.map Run.directory =
        [some (bytes "/tmp/cmacros-probe-x"), some (bytes "/var/cmacros-probe-x"),
          some (bytes "/tmp/cmacros-probe-x")] ∧
      (x.runs.flatMap Run.paths).Nodup := by
  have hfew : Fintype.card (Fin 3) < UInt64.size := by decide
  obtain ⟨-, -, -, hpaths, -⟩ := paths_distinct crowd hfew crowded { host := () }
  exact ⟨hfew, by decide +kernel, by decide +kernel, hpaths⟩

end Interleaving

end MacroConstants
