import MacroConstants.Proofs.Evaluation
import MacroConstants.Proofs.HostState
import MacroConstants.Proofs.Selection
import Mathlib.Data.List.Forall2

/-!
# Hosts that differ in names

Temporary files have names that nobody chose, so two hosts may run the same commands on files of
different names.  A compiler that looks at nothing but its flags and the text of its source file
answers both alike.  Then a discovery and a probe come to the same on both, whatever their runners
show and whatever is noted about failures, as notes and what is shown are never looked at.

* `Configuration.SameCommand`, `Configuration.SameFault` : the same but for unique names.
* `Host.Alike` : two hosts that answer alike.
* `RunState.Alike` : two states with the same commands, the same warnings and hosts that are still
  alike.  Nothing is said of notes and of what was shown.
* `Probe.run_alike`, `Discovery.run_alike` : the two kinds of operations.
* `Prober.lockstep` : two probers, of which one may be verbose, **cannot be told apart.**
-/

namespace MacroConstants

variable {τ τ' α : Type}

/-! ### The same but for names -/

theorem Invocation.sourceText_congr {i i' : Invocation}
    (h : i.files.read? i.source = i'.files.read? i'.source) : i.sourceText = i'.sourceText := by
  rw [sourceText, h, sourceText]

/-- The source file of a discovery, by the unique part of its name. -/
def Discovery.sourcePath (h : Host τ) (c : Configuration) (unique : Bytes) : Bytes :=
  RunState.uniquePath h (bytes "c-macros") unique (bytes "." ++ c.language.suffix)

namespace Configuration

/-- The command lists the macros of the source file of a discovery. -/
structure Lists (c : Configuration) (h : Host τ) (unique : Bytes) (i : Invocation) : Prop where
  source : i.source = Discovery.sourcePath h c unique
  argv : i.argv = c.dumpCommand i.source

/-- Two commands that are the same but for the unique parts of names and the numbers of processes
and probes: the preprocessor's, or that of a probe, on source files with the same text. -/
inductive SameCommand (c : Configuration) (h : Host τ) (h' : Host τ') (i i' : Invocation) : Prop
  | dump {unique unique' : Bytes} : c.Lists h unique i → c.Lists h' unique' i' →
      i.sourceText = i'.sourceText → SameCommand c h h' i i'
  | probe {stem unique unique' : Bytes} {number number' : UInt64} :
      c.BuildsAt (Probe.base h (Probe.directory h unique) stem number) i →
      c.BuildsAt (Probe.base h' (Probe.directory h' unique') stem number') i' →
      i.sourceText = i'.sourceText → SameCommand c h h' i i'

theorem SameCommand.sourceText {c : Configuration} {h : Host τ} {h' : Host τ'} {i i' : Invocation}
    (hi : c.SameCommand h h' i i') : i.sourceText = i'.sourceText := by
  cases hi with
  | dump _ _ htext => exact htext
  | probe _ _ htext => exact htext

/-- Two faults that are the same but for the unique part of the name of a source file. -/
inductive SameFault (c : Configuration) (h : Host τ) (h' : Host τ') : Fault → Fault → Prop
  | refl (fault : Fault) : SameFault c h h' fault fault
  | sourceUnwritten (unique unique' reason : Bytes) : SameFault c h h'
      (.sourceUnwritten (Discovery.sourcePath h c unique) reason)
      (.sourceUnwritten (Discovery.sourcePath h' c unique') reason)
  | command (unique unique' stderr : Bytes) (status : Int) (signaled : Bool) : SameFault c h h'
      (.command ⟨c.dumpCommand (Discovery.sourcePath h c unique), stderr, status, signaled⟩)
      (.command ⟨c.dumpCommand (Discovery.sourcePath h' c unique'), stderr, status, signaled⟩)

/-- The same, or two faults that are the same but for a name. -/
inductive SameOutcome (c : Configuration) (h : Host τ) (h' : Host τ') :
    Except Fault α → Except Fault α → Prop
  | ok (a : α) : SameOutcome c h h' (.ok a) (.ok a)
  | error {fault fault' : Fault} : c.SameFault h h' fault fault' →
      SameOutcome c h h' (.error fault) (.error fault')

end Configuration

/-! ### Hosts and states -/

/-- A name that nothing stands in the way of: an entry with this name is a new one. -/
structure Host.Free (h : Host τ) (files : TemporaryFiles) (stem ending name : Bytes) : Prop where
  plain : ascii '/' ∉ name
  free : ∀ x ∈ files, x.1 ≠ RunState.uniquePath h stem name ending

/-- Two hosts that answer alike in states that belong together.  The names they give may differ, as
long as both are taken or both are free; so may what their runners show and the words of their
loaders.  Commands that are the same but for names end alike, and a probe's command leaves the same
at the path of its module. -/
structure Host.Alike (c : Configuration) (R : τ → τ' → Prop) (files files' : TemporaryFiles)
    (h : Host τ) (h' : Host τ') : Prop where
  plain : h.PlainNames
  plain' : h'.PlainNames
  placed : files.Placed h.temporary
  placed' : files'.Placed h'.temporary
  refused : ∀ t t', R t t' → ∀ reason,
    (h.unique t).1 = .error reason ↔ (h'.unique t').1 = .error reason
  taken : ∀ t t', R t t' → ∀ name name', (h.unique t).1 = .ok name → (h'.unique t').1 = .ok name' →
    ∀ stem ending, (∀ x ∈ files, x.1 ≠ RunState.uniquePath h stem name ending) ↔
      ∀ x ∈ files', x.1 ≠ RunState.uniquePath h' stem name' ending
  unique : ∀ t t', R t t' → R (h.unique t).2 (h'.unique t').2
  restrict : ∀ t t', R t t' → (h.restrict t).1 = (h'.restrict t').1 ∧
    R (h.restrict t).2 (h'.restrict t').2
  write : ∀ text t t', R t t' → (h.write text t).1 = (h'.write text t').1 ∧
    R (h.write text t).2 (h'.write text t').2
  command : ∀ i i' t t', R t t' → c.SameCommand h h' i i' →
    (h.invoke i t).1.result = (h'.invoke i' t').1.result ∧ R (h.invoke i t).2 (h'.invoke i' t').2
  module : ∀ i i' t t', R t t' → c.SameCommand h h' i i' → ∀ path path', c.BuildsAt path i →
    c.BuildsAt path' i' →
      (h.invoke i t).1.left? (path ++ bytes ".so") =
        (h'.invoke i' t').1.left? (path' ++ bytes ".so")
  loaderError : ∀ t t', R t t' → R (h.loaderError t).2 (h'.loaderError t').2

/-- The same host with another runner, which shows this. -/
def Host.showing (h : Host τ) (shown : Invocation → Bytes) : Host τ :=
  { h with
    invoke := fun i t =>
      let (response, t) := h.invoke i t
      ({ response with shown := shown i }, t) }

/-- Two states that have these temporary files, hosts that belong together, the same commands but
for names, and the same warnings. -/
structure RunState.Alike (c : Configuration) (R : τ → τ' → Prop) (h : Host τ) (h' : Host τ')
    (files files' : TemporaryFiles) (s : RunState τ) (s' : RunState τ') : Prop where
  files : s.files = files
  files' : s'.files = files'
  host : R s.host s'.host
  invocations : List.Forall₂ (c.SameCommand h h') s.invocations s'.invocations
  warnings : s.diagnostics.recorded.filter Finding.isWarning =
    s'.diagnostics.recorded.filter Finding.isWarning

variable {c : Configuration} {R : τ → τ' → Prop} {files files' g g' : TemporaryFiles} {h : Host τ}
  {h' : Host τ'} {s : RunState τ} {s' : RunState τ'}

theorem Configuration.SameCommand.of_showing {shown shown' : Invocation → Bytes}
    {i i' : Invocation} (hi : c.SameCommand (h.showing shown) (h'.showing shown') i i') :
    c.SameCommand h h' i i' := by
  cases hi with
  | dump hi hi' htext => exact .dump ⟨hi.source, hi.argv⟩ ⟨hi'.source, hi'.argv⟩ htext
  | probe hi hi' htext => exact .probe hi hi' htext

/-- What runners show is not compared. -/
theorem Host.Alike.showing (hh : h.Alike c R files files' h') (shown shown' : Invocation → Bytes) :
    (h.showing shown).Alike c R files files' (h'.showing shown') :=
  { hh with
    command := fun i i' t t' ht hi => hh.command i i' t t' ht hi.of_showing
    module := fun i i' t t' ht hi => hh.module i i' t t' ht hi.of_showing }

/-! ### Steps -/

namespace RunState

theorem Alike.remove (hs : Alike c R h h' g g' s s') (path path' : Bytes) :
    Alike c R h h' (g.remove path) (g'.remove path') (s.remove path) (s'.remove path') :=
  { hs with
    files := congrArg (TemporaryFiles.remove · path) hs.files
    files' := congrArg (TemporaryFiles.remove · path') hs.files' }

/-- What is made and removed again leaves things as they were. -/
theorem Alike.remove_create {path path' : Bytes} {e e' : Entry}
    (hs : Alike c R h h' (files.create path e) (files'.create path' e') s s')
    (hfree : ∀ x ∈ files, x.1 ≠ path) (hfree' : ∀ x ∈ files', x.1 ≠ path') :
    Alike c R h h' files files' (s.remove path) (s'.remove path') := by
  have hremoved := hs.remove path path'
  rwa [TemporaryFiles.remove_create hfree, TemporaryFiles.remove_create hfree'] at hremoved

theorem Alike.reportAll (hs : Alike c R h h' g g' s s') (ds : List Finding) :
    Alike c R h h' g g' (s.reportAll ds) (s'.reportAll ds) where
  files := (files_reportAll s ds).trans hs.files
  files' := (files_reportAll s' ds).trans hs.files'
  host := by
    rw [host_reportAll, host_reportAll]
    exact hs.host
  invocations := by
    rw [invocations_reportAll, invocations_reportAll]
    exact hs.invocations
  warnings := by
    rw [recorded_reportAll, recorded_reportAll, List.filter_append, List.filter_append, hs.warnings]

/-- Entries that the hosts are asked about before they are changed: both changes are refused with
the same reason, or both are made. -/
theorem Alike.touch {act : τ → Option Bytes × τ} {act' : τ' → Option Bytes × τ'}
    (hs : Alike c R h h' g g' s s')
    (hact : (act s.host).1 = (act' s'.host).1 ∧ R (act s.host).2 (act' s'.host).2)
    (path path' : Bytes) (f f' : Entry → Entry) :
    (∃ reason s₁ s₁', s.touch act path f = (some reason, s₁) ∧
      s'.touch act' path' f' = (some reason, s₁') ∧ Alike c R h h' g g' s₁ s₁') ∨
    ∃ s₁ s₁', s.touch act path f = (none, s₁) ∧ s'.touch act' path' f' = (none, s₁') ∧
      Alike c R h h' (g.modify path f) (g'.modify path' f') s₁ s₁' := by
  obtain ⟨hsame, hnext⟩ := hact
  cases hasked : act s.host with
  | mk refusal t =>
    cases hasked' : act' s'.host with
    | mk refusal' t' =>
      rw [hasked, hasked'] at hsame hnext
      obtain rfl : refusal = refusal' := hsame
      cases refusal with
      | some reason =>
        exact .inl ⟨reason, _, _, touch_of_some hasked, touch_of_some hasked',
          { hs with host := hnext }⟩
      | none =>
        exact .inr ⟨_, _, touch_of_none hasked, touch_of_none hasked', { hs with
          files := congrArg (TemporaryFiles.modify · path f) hs.files
          files' := congrArg (TemporaryFiles.modify · path' f') hs.files'
          host := hnext }⟩

section Steps

variable (hh : h.Alike c R files files' h')
include hh

theorem create_alike (hs : Alike c R h h' files files' s s') (stem ending : Bytes) (e : Entry) :
    (∃ reason s₁ s₁', s.create h stem ending e = (.error reason, s₁) ∧
      s'.create h' stem ending e = (.error reason, s₁') ∧ Alike c R h h' files files' s₁ s₁') ∨
    ∃ name name' s₁ s₁', h.Free files stem ending name ∧ h'.Free files' stem ending name' ∧
      s.create h stem ending e = (.ok (uniquePath h stem name ending), s₁) ∧
      s'.create h' stem ending e = (.ok (uniquePath h' stem name' ending), s₁') ∧
      Alike c R h h' (files.create (uniquePath h stem name ending) e)
        (files'.create (uniquePath h' stem name' ending) e) s₁ s₁' := by
  have hnext := hh.unique _ _ hs.host
  cases hname : h.unique s.host with
  | mk result t =>
    cases hname' : h'.unique s'.host with
    | mk result' t' =>
      rw [hname, hname'] at hnext
      have hrefused := hh.refused _ _ hs.host
      rw [hname, hname'] at hrefused
      cases result with
      | error reason =>
        obtain rfl : result' = .error reason := (hrefused reason).1 rfl
        exact .inl ⟨reason, _, _, create_of_refused hname, create_of_refused hname',
          { hs with host := hnext }⟩
      | ok name =>
        cases result' with
        | error reason => cases (hrefused reason).2 rfl
        | ok name' =>
          -- names on both sides: by `taken` both stand for something already, or neither does
          have htaken := hh.taken _ _ hs.host name name' (by rw [hname]) (by rw [hname']) stem
            ending
          rw [← hs.files, ← hs.files', ← taken_eq_false_iff, ← taken_eq_false_iff] at htaken
          cases hfree : s.taken (uniquePath h stem name ending) with
          | true =>
            have hfree' : s'.taken (uniquePath h' stem name' ending) = true := by
              rw [← Bool.not_eq_false, ← htaken, hfree]
              exact Bool.noConfusion
            exact .inl ⟨_, _, _, create_of_taken hname hfree, create_of_taken hname' hfree',
              { hs with host := hnext }⟩
          | false =>
            have hfree' := htaken.1 hfree
            have hplain : ascii '/' ∉ name := hh.plain s.host name (by rw [hname])
            have hplain' : ascii '/' ∉ name' := hh.plain' s'.host name' (by rw [hname'])
            refine .inr ⟨name, name', _, _, ⟨hplain, ?_⟩, ⟨hplain', ?_⟩,
              create_of_free hname hfree, create_of_free hname' hfree', ?_⟩
            · rwa [← hs.files, ← taken_eq_false_iff]
            · rwa [← hs.files', ← taken_eq_false_iff]
            · exact { hs with
                files := congrArg (TemporaryFiles.create · _ e) hs.files
                files' := congrArg (TemporaryFiles.create · _ e) hs.files'
                host := hnext }

theorem restrict_alike (hs : Alike c R h h' g g' s s') (path path' : Bytes) :
    (∃ reason s₁ s₁', s.restrict h path = (some reason, s₁) ∧
      s'.restrict h' path' = (some reason, s₁') ∧ Alike c R h h' g g' s₁ s₁') ∨
    ∃ s₁ s₁', s.restrict h path = (none, s₁) ∧ s'.restrict h' path' = (none, s₁') ∧
      Alike c R h h' (g.modify path Entry.restrict) (g'.modify path' Entry.restrict) s₁ s₁' :=
  hs.touch (hh.restrict _ _ hs.host) path path' _ _

theorem write_alike (hs : Alike c R h h' g g' s s') (entry entry' path path' text : Bytes) :
    (∃ reason s₁ s₁', s.write h entry path text = (some reason, s₁) ∧
      s'.write h' entry' path' text = (some reason, s₁') ∧ Alike c R h h' g g' s₁ s₁') ∨
    ∃ s₁ s₁', s.write h entry path text = (none, s₁) ∧
      s'.write h' entry' path' text = (none, s₁') ∧
      Alike c R h h' (g.modify entry (Entry.put path (.text text)))
        (g'.modify entry' (Entry.put path' (.text text))) s₁ s₁' :=
  hs.touch (hh.write text _ _ hs.host) entry entry' _ _

end Steps

end RunState

/-! ### Probes -/

namespace Probe

open RunState

/-- Two probes with the same answer, if they have one, that leave states which are still alike. -/
def Agree (c : Configuration) (R : τ → τ' → Prop) (h : Host τ) (h' : Host τ')
    (files files' : TemporaryFiles) (x : Except ProbeFailure α × RunState τ)
    (y : Except ProbeFailure α × RunState τ') : Prop :=
  x.1.toOption = y.1.toOption ∧ Alike c R h h' files files' x.2 y.2

variable (hh : h.Alike c R files files' h')
include hh

theorem createDirectory_alike (hs : Alike c R h h' files files' s s') :
    (∃ reason s₁ s₁', s.createDirectory h (bytes "cmacros-probe") = (.error reason, s₁) ∧
      s'.createDirectory h' (bytes "cmacros-probe") = (.error reason, s₁') ∧
      Alike c R h h' files files' s₁ s₁') ∨
    ∃ name name' s₁ s₁', h.Free files (bytes "cmacros-probe") [] name ∧
      h'.Free files' (bytes "cmacros-probe") [] name' ∧
      s.createDirectory h (bytes "cmacros-probe") = (.ok (directory h name), s₁) ∧
      s'.createDirectory h' (bytes "cmacros-probe") = (.ok (directory h' name'), s₁') ∧
      Alike c R h h' (files.create (directory h name) (.directory false []))
        (files'.create (directory h' name') (.directory false [])) s₁ s₁' :=
  create_alike hh hs _ _ _

/-- What is done in a fresh directory agrees if it does so whatever the name of the directory. -/
theorem withDirectory_alike {body : Bytes → RunState τ → Except ProbeFailure α × RunState τ}
    {body' : Bytes → RunState τ' → Except ProbeFailure α × RunState τ'}
    (hbody : ∀ name name' s s', h.Free files (bytes "cmacros-probe") [] name →
      h'.Free files' (bytes "cmacros-probe") [] name' →
      Alike c R h h' (files.create (directory h name) (.directory true []))
        (files'.create (directory h' name') (.directory true [])) s s' →
      ∃ e e', Agree c R h h' (files.create (directory h name) e)
        (files'.create (directory h' name') e') (body (directory h name) s)
        (body' (directory h' name') s'))
    (hs : Alike c R h h' files files' s s') :
    Agree c R h h' files files' (withDirectory h body s) (withDirectory h' body' s') := by
  unfold withDirectory
  rcases createDirectory_alike hh hs with
    ⟨reason, s₁, s₁', heq, heq', h₁⟩ | ⟨name, name', s₁, s₁', hfree, hfree', heq, heq', h₁⟩
  · rw [heq, heq']
    exact ⟨rfl, h₁⟩
  · have hnew : ∀ x ∈ files, x.1 ≠ directory h name := hfree.free
    have hnew' : ∀ x ∈ files', x.1 ≠ directory h' name' := hfree'.free
    rw [heq, heq']
    dsimp only
    rcases restrict_alike hh h₁ (directory h name) (directory h' name') with
      ⟨reason, s₂, s₂', heq₂, heq₂', h₂⟩ | ⟨s₂, s₂', heq₂, heq₂', h₂⟩
    · rw [heq₂, heq₂']
      exact ⟨rfl, h₂.remove_create hnew hnew'⟩
    · rw [heq₂, heq₂']
      rw [TemporaryFiles.modify_create hnew, TemporaryFiles.modify_create hnew'] at h₂
      obtain ⟨e, e', hanswer, hleft⟩ := hbody name name' s₂ s₂' hfree hfree' h₂
      -- what is in the directories by now need not be the same, but goes with them
      exact ⟨hanswer, hleft.remove_create hnew hnew'⟩

/-- Two builds on the same text: the same result, and the same is left for the loader. -/
theorem build_alike {name name' stem text source source' path path' : Bytes}
    {number number' : UInt64} (hfree : h.Free files (bytes "cmacros-probe") [] name)
    (hfree' : h'.Free files' (bytes "cmacros-probe") [] name')
    (hpath : path = base h (directory h name) stem number)
    (hpath' : path' = base h' (directory h' name') stem number')
    (hsource : source = path ++ (bytes "." ++ c.language.suffix))
    (hsource' : source' = path' ++ (bytes "." ++ c.language.suffix))
    (hs : Alike c R h h' (files.create (directory h name) (.directory true [(source, .text text)]))
      (files'.create (directory h' name') (.directory true [(source', .text text)])) s s') :
    ∃ (r r' : Response) (s₁ : _) (s₁' : _),
      build h (directory h name) (c.probeCommand source (path ++ bytes ".so")) source s =
        (r.result, s₁) ∧
      build h' (directory h' name') (c.probeCommand source' (path' ++ bytes ".so")) source' s' =
        (r'.result, s₁') ∧
      r.result = r'.result ∧ r.left? (path ++ bytes ".so") = r'.left? (path' ++ bytes ".so") ∧
      Alike c R h h'
        (files.create (directory h name)
          ((Entry.directory true [(source, .text text)]).putAll r.leaves))
        (files'.create (directory h' name')
          ((Entry.directory true [(source', .text text)]).putAll r'.leaves)) s₁ s₁' := by
  have htext : s.files.read? source = some (.text text) := by
    rw [hs.files, hsource, hpath]
    exact read?_created_text hh.placed hfree.plain hfree.free text stem _ number
  have htext' : s'.files.read? source' = some (.text text) := by
    rw [hs.files', hsource', hpath']
    exact read?_created_text hh.placed' hfree'.plain hfree'.free text stem _ number'
  have hbuilds : c.BuildsAt path ⟨c.probeCommand source (path ++ bytes ".so"), source, s.files⟩ :=
    ⟨by rw [hsource, List.append_assoc], rfl⟩
  have hbuilds' :
      c.BuildsAt path' ⟨c.probeCommand source' (path' ++ bytes ".so"), source', s'.files⟩ :=
    ⟨by rw [hsource', List.append_assoc], rfl⟩
  have hsame : c.SameCommand h h' ⟨c.probeCommand source (path ++ bytes ".so"), source, s.files⟩
      ⟨c.probeCommand source' (path' ++ bytes ".so"), source', s'.files⟩ := by
    have hread := htext.trans htext'.symm
    rw [hpath] at hbuilds ⊢
    rw [hpath'] at hbuilds' ⊢
    exact .probe hbuilds hbuilds' (Invocation.sourceText_congr hread)
  obtain ⟨hresult, hnext⟩ := hh.command _ _ _ _ hs.host hsame
  have hleft := hh.module _ _ _ _ hs.host hsame path path' hbuilds hbuilds'
  refine ⟨_, _, _, _, build_spec hfree.free hs.files rfl, build_spec hfree'.free hs.files' rfl,
    hresult, hleft, ?_⟩
  exact { hs with
    files := rfl
    files' := rfl
    host := hnext
    invocations := List.rel_append hs.invocations (.cons hsame .nil) }

/-- Two loads agree if there is the same to be loaded. -/
theorem load_alike {path path' symbol : Bytes} {function : Bytes → SharedObject → Option α}
    (hs : Alike c R h h' g g' s s') (hread : ∀ object, g.read? path = some (.shared object) ↔
      g'.read? path' = some (.shared object)) :
    Agree c R h h' g g' (load h path symbol function s) (load h' path' symbol function s') := by
  have hunknown : Alike c R h h' g g' (s.step h.loaderError).2 (s'.step h'.loaderError).2 :=
    { hs with host := hh.loaderError _ _ hs.host }
  rw [← hs.files, ← hs.files'] at hread
  unfold load
  split
  · rename_i object hobject
    rw [(hread object).1 hobject]
    dsimp only
    split
    · exact ⟨rfl, hs⟩
    · exact ⟨rfl, hunknown⟩
  · rename_i hnone
    -- there is nothing to load, or no module: neither here nor there, by `hread`
    rcases hfound : s'.files.read? path' with _ | text | object
    · exact ⟨rfl, hunknown⟩
    · exact ⟨rfl, hunknown⟩
    · exact absurd ((hread object).2 hfound) (hnone object)

/-- Two probes agree. -/
theorem run_alike (stem text symbol : Bytes) (function : Bytes → SharedObject → Option α)
    (hs : Alike c R h h' files files' s s') :
    Agree c R h h' files files' (run h c stem text symbol function s)
      (run h' c stem text symbol function s') := by
  refine withDirectory_alike hh (fun name name' s s' hfree hfree' hs => ?_) hs
  have hnew : ∀ x ∈ files, x.1 ≠ directory h name := hfree.free
  have hnew' : ∀ x ∈ files', x.1 ≠ directory h' name' := hfree'.free
  dsimp only
  -- the numbers are part of the names only, so that any two will do
  generalize s.probes + 1 = number, s'.probes + 1 = number'
  rw [List.append_assoc, List.append_assoc]
  have hnumbered : Alike c R h h' (files.create (directory h name) (.directory true []))
      (files'.create (directory h' name') (.directory true []))
      { s with probes := number } { s' with probes := number' } := { hs with }
  rcases write_alike hh hnumbered (directory h name) (directory h' name')
      (base h (directory h name) stem number ++ (bytes "." ++ c.language.suffix))
      (base h' (directory h' name') stem number' ++ (bytes "." ++ c.language.suffix)) text with
    ⟨reason, s₁, s₁', heq, heq', h₁⟩ | ⟨s₁, s₁', heq, heq', h₁⟩
  · rw [heq, heq']
    exact ⟨_, _, rfl, h₁⟩
  · rw [heq, heq']
    rw [TemporaryFiles.modify_create hnew, TemporaryFiles.modify_create hnew', Entry.put_empty,
      Entry.put_empty] at h₁
    obtain ⟨r, r', s₂, s₂', heq₂, heq₂', hresult, hleft, h₂⟩ :=
      build_alike hh hfree hfree' rfl rfl rfl rfl h₁
    dsimp only
    rw [heq₂, heq₂', hresult]
    dsimp only
    split
    · refine ⟨_, _, load_alike hh h₂ fun object => ?_⟩
      rw [read?_created_module hh.placed hfree.plain hnew,
        read?_created_module hh.placed' hfree'.plain hnew', hleft]
    · exact ⟨_, _, rfl, h₂⟩

end Probe

/-! ### Probers -/

/-- A configuration that is verbose or not. -/
def Configuration.speaking (c : Configuration) (verbose : Bool) : Configuration :=
  { c with verbose }

theorem Configuration.check_speaking (c : Configuration) (verbose : Bool) :
    (c.speaking verbose).check = c.check := rfl

theorem Discovery.dump_speaking (verbose : Bool) (s : RunState τ) :
    dump h (c.speaking verbose) s = dump h c s := rfl

theorem Probe.run_speaking (verbose : Bool) (stem text symbol : Bytes)
    (function : Bytes → SharedObject → Option α) (s : RunState τ) :
    run h (c.speaking verbose) stem text symbol function s =
      run h c stem text symbol function s := rfl

namespace Prober

variable {p : Prober τ} {p' : Prober τ'}

/-- A note is no warning. -/
theorem warnings_note (f : ProbeFailure) (s : RunState τ) :
    (p.note f s).diagnostics.recorded.filter Finding.isWarning =
      s.diagnostics.recorded.filter Finding.isWarning := by
  unfold note
  split
  · change (s.diagnostics.recorded ++ [_]).filter Finding.isWarning = _
    rw [List.filter_append]
    exact List.append_nil _
  · rfl

theorem files_note (f : ProbeFailure) (s : RunState τ) : (p.note f s).files = s.files := by
  unfold note
  split <;> rfl

theorem invocations_note (f : ProbeFailure) (s : RunState τ) :
    (p.note f s).invocations = s.invocations := by
  unfold note
  split <;> rfl

/-- Whatever is noted on either side, the states are still alike. -/
theorem note_alike (f f' : ProbeFailure) (hs : RunState.Alike c R h h' g g' s s') :
    RunState.Alike c R h h' g g' (p.note f s) (p'.note f' s') where
  files := (files_note f s).trans hs.files
  files' := (files_note f' s').trans hs.files'
  host := by
    rw [host_note, host_note]
    exact hs.host
  invocations := by
    rw [invocations_note, invocations_note]
    exact hs.invocations
  warnings := by
    rw [warnings_note, warnings_note]
    exact hs.warnings

section Asking

variable (hh : h.Alike c R files files' h') (hs : RunState.Alike c R h h' files files' s s')
  (verbose verbose' attached attached' : Bool)
include hh hs

theorem ask_alike (stem text symbol : Bytes) (function : Bytes → SharedObject → Option α) :
    (ask ⟨h, c.speaking verbose, attached⟩ stem text symbol function s).1 =
        (ask ⟨h', c.speaking verbose', attached'⟩ stem text symbol function s').1 ∧
      RunState.Alike c R h h' files files'
        (ask ⟨h, c.speaking verbose, attached⟩ stem text symbol function s).2
        (ask ⟨h', c.speaking verbose', attached'⟩ stem text symbol function s').2 := by
  have hrun := Probe.run_alike hh stem text symbol function hs
  unfold ask
  dsimp only
  rw [Probe.run_speaking, Probe.run_speaking]
  generalize Probe.run h c stem text symbol function s = x at hrun ⊢
  generalize Probe.run h' c stem text symbol function s' = x' at hrun ⊢
  obtain ⟨failure | answer, t⟩ := x <;> obtain ⟨failure' | answer', t'⟩ := x' <;>
    obtain ⟨hanswer, hstate⟩ := hrun
  · exact ⟨rfl, note_alike failure failure' hstate⟩
  · cases hanswer
  · cases hanswer
  · exact ⟨hanswer, hstate⟩

theorem type_alike (expression : Bytes) :
    (type ⟨h, c.speaking verbose, attached⟩ expression s).1 =
        (type ⟨h', c.speaking verbose', attached'⟩ expression s').1 ∧
      RunState.Alike c R h h' files files'
        (type ⟨h, c.speaking verbose, attached⟩ expression s).2
        (type ⟨h', c.speaking verbose', attached'⟩ expression s').2 := by
  obtain ⟨hanswer, hstate⟩ := ask_alike hh hs verbose verbose' attached attached' (bytes "cet")
    (Probe.Source.forType ⟨c.headers, c.language⟩ expression) Probe.Source.typeSymbol
    SharedObject.typeFunctionAt
  rw [type_fst, type_fst, type_snd, type_snd]
  exact ⟨congrArg (fun a => (Option.map _ (Option.join a)).getD _) hanswer, hstate⟩

theorem value_alike {t : TypeTag} (ht : t ≠ .other) (expression : Bytes) :
    (value ⟨h, c.speaking verbose, attached⟩ t expression s).1 =
        (value ⟨h', c.speaking verbose', attached'⟩ t expression s').1 ∧
      RunState.Alike c R h h' files files'
        (value ⟨h, c.speaking verbose, attached⟩ t expression s).2
        (value ⟨h', c.speaking verbose', attached'⟩ t expression s').2 := by
  obtain ⟨text, htext⟩ := exists_forValue ⟨h, c.speaking verbose, attached⟩ ht expression
  obtain ⟨hanswer, hstate⟩ := ask_alike hh hs verbose verbose' attached attached' (bytes "cev")
    text Probe.Source.valueSymbol SharedObject.valueFunctionAt
  rw [value_eq htext, value_eq (p := ⟨h', c.speaking verbose', attached'⟩) htext]
  exact ⟨congrArg (Option.bind · (decode t)) hanswer, hstate⟩

end Asking

/-- **Two probers on hosts that answer alike cannot be told apart**, whether they are verbose, and
whether there is someone to report failures to. -/
theorem lockstep (hh : h.Alike c R files files' h') (verbose verbose' attached attached' : Bool) :
    (resolver ⟨h, c.speaking verbose, attached⟩).Lockstep (RunState.Alike c R h h' files files')
      (resolver ⟨h', c.speaking verbose', attached'⟩) where
  type e _ _ _ hs := type_alike hh hs verbose verbose' attached attached' e
  value _ e _ _ ht _ hs := value_alike hh hs verbose verbose' attached attached' ht e

end Prober

/-! ### Discoveries -/

/-- The source file of a discovery is read if it was just made. -/
theorem Host.Free.read?_source {unique : Bytes}
    (hfree : h.Free files (bytes "c-macros") (bytes "." ++ c.language.suffix) unique)
    (hplaced : files.Placed h.temporary) (content : Content) :
    (files.create (Discovery.sourcePath h c unique) (.file content)).read?
      (Discovery.sourcePath h c unique) = some content := by
  have hpath : Discovery.sourcePath h c unique = h.temporary ++ bytes "/" ++
      (bytes "c-macros-" ++ unique ++ (bytes "." ++ c.language.suffix)) := by
    have hname : bytes "c-macros-" = bytes "c-macros" ++ bytes "-" := by decide
    simp [Discovery.sourcePath, RunState.uniquePath, hname]
  have hplain : ascii '/' ∉ bytes "c-macros-" ++ unique ++ (bytes "." ++ c.language.suffix) := by
    simp only [List.mem_append, not_or]
    exact ⟨⟨by decide, hfree.plain⟩, by decide, by cases c.language <;> decide⟩
  have hnew : ∀ x ∈ files, x.1 ≠ Discovery.sourcePath h c unique := hfree.free
  rw [hpath] at hnew ⊢
  exact hplaced.read?_create_file hplain hnew content

namespace Discovery

section Running

variable (hh : h.Alike c R files files' h')
include hh

theorem createFile_alike (hs : RunState.Alike c R h h' files files' s s') :
    (∃ reason s₁ s₁',
      s.createFile h (bytes "c-macros") c.language.suffix = (.error reason, s₁) ∧
      s'.createFile h' (bytes "c-macros") c.language.suffix = (.error reason, s₁') ∧
      RunState.Alike c R h h' files files' s₁ s₁') ∨
    ∃ name name' s₁ s₁',
      h.Free files (bytes "c-macros") (bytes "." ++ c.language.suffix) name ∧
      h'.Free files' (bytes "c-macros") (bytes "." ++ c.language.suffix) name' ∧
      s.createFile h (bytes "c-macros") c.language.suffix = (.ok (sourcePath h c name), s₁) ∧
      s'.createFile h' (bytes "c-macros") c.language.suffix = (.ok (sourcePath h' c name'), s₁') ∧
      RunState.Alike c R h h' (files.create (sourcePath h c name) (.file (.text [])))
        (files'.create (sourcePath h' c name') (.file (.text []))) s₁ s₁' :=
  RunState.create_alike hh hs _ _ _

/-- Two runs of the preprocessor on the same text. -/
theorem invokeOrFail_alike {unique unique' : Bytes} {text : Content}
    (hs : RunState.Alike c R h h' g g' s s')
    (htext : g.read? (sourcePath h c unique) = some text)
    (htext' : g'.read? (sourcePath h' c unique') = some text) :
    let x := invokeOrFail h (c.dumpCommand (sourcePath h c unique)) (sourcePath h c unique) s
    let x' := invokeOrFail h' (c.dumpCommand (sourcePath h' c unique')) (sourcePath h' c unique') s'
    c.SameOutcome h h' x.1 x'.1 ∧ RunState.Alike c R h h' g g' x.2 x'.2 := by
  rw [← hs.files] at htext
  rw [← hs.files'] at htext'
  have hread := htext.trans htext'.symm
  have hsame : c.SameCommand h h' ⟨c.dumpCommand (sourcePath h c unique), _, s.files⟩
      ⟨c.dumpCommand (sourcePath h' c unique'), _, s'.files⟩ :=
    .dump ⟨rfl, rfl⟩ ⟨rfl, rfl⟩ (Invocation.sourceText_congr hread)
  obtain ⟨hresult, hnext⟩ := hh.command _ _ _ _ hs.host hsame
  have hstate : RunState.Alike c R h h' g g'
      (s.invoke h (c.dumpCommand (sourcePath h c unique)) (sourcePath h c unique)).2
      (s'.invoke h' (c.dumpCommand (sourcePath h' c unique')) (sourcePath h' c unique')).2 :=
    { hs with
      host := hnext
      invocations := List.rel_append hs.invocations (.cons hsame .nil) }
  have houtcome :
      (s.invoke h (c.dumpCommand (sourcePath h c unique)) (sourcePath h c unique)).1.result =
      (s'.invoke h' (c.dumpCommand (sourcePath h' c unique')) (sourcePath h' c unique')).1.result :=
    hresult
  unfold invokeOrFail
  dsimp only
  rw [houtcome]
  split
  · exact ⟨.ok _, hstate⟩
  · exact ⟨.error (.command ..), hstate⟩

/-- Two discoveries ask the preprocessor for the same. -/
theorem dump_alike (hs : RunState.Alike c R h h' files files' s s') :
    c.SameOutcome h h' (dump h c s).1 (dump h' c s').1 ∧
      RunState.Alike c R h h' files files' (dump h c s).2 (dump h' c s').2 := by
  unfold dump withSource
  rcases createFile_alike hh hs with
    ⟨reason, s₁, s₁', heq, heq', h₁⟩ | ⟨name, name', s₁, s₁', hfree, hfree', heq, heq', h₁⟩
  · rw [heq, heq']
    exact ⟨.error (.refl _), h₁⟩
  · have hnew : ∀ x ∈ files, x.1 ≠ sourcePath h c name := hfree.free
    have hnew' : ∀ x ∈ files', x.1 ≠ sourcePath h' c name' := hfree'.free
    rw [heq, heq']
    dsimp only
    rcases RunState.write_alike hh h₁ (sourcePath h c name) (sourcePath h' c name')
        (sourcePath h c name) (sourcePath h' c name') (includeLines c.headers) with
      ⟨reason, s₂, s₂', heq₂, heq₂', h₂⟩ | ⟨s₂, s₂', heq₂, heq₂', h₂⟩
    · rw [heq₂, heq₂']
      exact ⟨.error (.sourceUnwritten ..), h₂.remove_create hnew hnew'⟩
    · rw [heq₂, heq₂']
      rw [TemporaryFiles.modify_create hnew, TemporaryFiles.modify_create hnew'] at h₂
      obtain ⟨houtcome, h₃⟩ := invokeOrFail_alike hh h₂ (hfree.read?_source hh.placed _)
        (hfree'.read?_source hh.placed' _)
      exact ⟨houtcome, h₃.remove_create hnew hnew'⟩

/-- Two discoveries, of which one may be verbose, find the same. -/
theorem run_alike {d d' : Discovery} {verbose verbose' : Bool} (hd : d.config = c.speaking verbose)
    (hd' : d'.config = c.speaking verbose') (hs : RunState.Alike c R h h' files files' s s') :
    c.SameOutcome h h' (d.run h s).1 (d'.run h' s').1 ∧
      RunState.Alike c R h h' files files' (d.run h s).2 (d'.run h' s').2 := by
  have hkeep : d.keep = d'.keep := by
    have husable := d.usable
    have husable' := d'.usable
    rw [hd, Configuration.check_speaking] at husable
    rw [hd', Configuration.check_speaking, husable] at husable'
    exact Except.ok.inj husable'
  obtain ⟨houtcome, hstate⟩ := dump_alike hh hs
  unfold run
  rw [hd, hd', dump_speaking, dump_speaking, hkeep]
  generalize dump h c s = x at houtcome hstate ⊢
  generalize dump h' c s' = x' at houtcome hstate ⊢
  obtain ⟨result, t⟩ := x
  obtain ⟨result', t'⟩ := x'
  cases houtcome with
  | ok text => exact ⟨.ok _, hstate.reportAll _⟩
  | error hfault => exact ⟨.error hfault, hstate⟩

end Running

end Discovery

end MacroConstants
