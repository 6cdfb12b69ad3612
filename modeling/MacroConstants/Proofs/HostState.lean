import MacroConstants.Discovery
import MacroConstants.Probe
import MacroConstants.Proofs.RunState

/-!
# The state of the host

A run changes the state of its host only by the steps of the host: whatever these keep, no operation
can break, whether it succeeds or not.

* `Host.Keeps` : every step of a host keeps something.
* `Probe.host_run`, `Prober.host_type`, `Prober.host_value`, `Discovery.host_dump` : then so does
  every operation.
-/

namespace MacroConstants

variable {τ α : Type} {h : Host τ} {P : τ → Prop} {s : RunState τ}

/-- Every step of the host keeps `P`. -/
structure Host.Keeps (h : Host τ) (P : τ → Prop) : Prop where
  unique : ∀ t, P t → P (h.unique t).2
  restrict : ∀ t, P t → P (h.restrict t).2
  write : ∀ text t, P t → P (h.write text t).2
  invoke : ∀ i t, P t → P (h.invoke i t).2
  loaderError : ∀ t, P t → P (h.loaderError t).2

/-! ### Steps -/

theorem RunState.host_touch {act : τ → Option Bytes × τ} (hact : P (act s.host).2) (path : Bytes)
    (f : Entry → Entry) : P (s.touch act path f).2.host := by
  have hstep : P (s.step act).2.host := hact
  unfold touch
  split <;> rename_i heq <;> rw [heq] at hstep <;> exact hstep

section Steps

variable (hkeeps : h.Keeps P) (hs : P s.host)
include hkeeps hs

namespace RunState

theorem host_create (stem ending : Bytes) (e : Entry) : P (s.create h stem ending e).2.host := by
  have hunique : P (s.step h.unique).2.host := hkeeps.unique s.host hs
  unfold create
  split
  · rename_i heq
    rwa [heq] at hunique
  · rename_i heq
    rw [heq] at hunique
    dsimp only
    split <;> exact hunique

theorem host_restrict (path : Bytes) : P (s.restrict h path).2.host :=
  host_touch (hkeeps.restrict s.host hs) path _

theorem host_write (entry path text : Bytes) : P (s.write h entry path text).2.host :=
  host_touch (hkeeps.write text s.host hs) entry _

theorem host_invoke (argv : List Bytes) (source : Bytes) : P (s.invoke h argv source).2.host :=
  hkeeps.invoke _ s.host hs

end RunState

end Steps

@[simp] theorem RunState.host_reportAll (s : RunState τ) (ds : List Finding) :
    (s.reportAll ds).host = s.host := by
  induction ds generalizing s with
  | nil => rfl
  | cons d ds ih => exact ih (s.report d)

/-! ### Probes -/

namespace Probe

theorem host_withDirectory (hkeeps : h.Keeps P)
    {body : Bytes → RunState τ → Except ProbeFailure α × RunState τ}
    (hbody : ∀ path s, P s.host → P (body path s).2.host) (hs : P s.host) :
    P (withDirectory h body s).2.host := by
  have hcreate : P (s.createDirectory h (bytes "cmacros-probe")).2.host :=
    RunState.host_create hkeeps hs _ _ _
  unfold withDirectory
  split
  · rename_i heq
    rwa [heq] at hcreate
  · rename_i path s' heq
    rw [heq] at hcreate
    have hrestrict := RunState.host_restrict hkeeps hcreate path
    split
    · rename_i heq
      rwa [heq] at hrestrict
    · rename_i heq
      rw [heq] at hrestrict
      exact hbody path _ hrestrict

theorem host_load (hkeeps : h.Keeps P) (path symbol : Bytes)
    (function : Bytes → SharedObject → Option α) (hs : P s.host) :
    P (load h path symbol function s).2.host := by
  have herror : P (s.step h.loaderError).2.host := hkeeps.loaderError s.host hs
  unfold load
  split
  · split
    · exact hs
    · exact herror
  · exact herror

theorem host_run (hkeeps : h.Keeps P) (config : Configuration) (stem text symbol : Bytes)
    (function : Bytes → SharedObject → Option α) (hs : P s.host) :
    P (run h config stem text symbol function s).2.host := by
  refine host_withDirectory hkeeps (fun directory s hs => ?_) hs
  dsimp only
  have hnumbered : P { s with probes := s.probes + 1 }.host := hs
  have hwrite := RunState.host_write hkeeps hnumbered directory
    (base h directory stem (s.probes + 1) ++ bytes "." ++ config.language.suffix) text
  split
  · rename_i heq
    rwa [heq] at hwrite
  · rename_i heq
    rw [heq] at hwrite
    have hbuild := RunState.host_invoke hkeeps hwrite (config.probeCommand
      (base h directory stem (s.probes + 1) ++ bytes "." ++ config.language.suffix)
      (base h directory stem (s.probes + 1) ++ bytes ".so"))
      (base h directory stem (s.probes + 1) ++ bytes "." ++ config.language.suffix)
    split
    · exact host_load hkeeps _ symbol function hbuild
    · exact hbuild

end Probe

namespace Prober

variable {p : Prober τ}

theorem host_note (f : ProbeFailure) (s : RunState τ) : (p.note f s).host = s.host := by
  unfold note
  split <;> rfl

section Asking

variable (hkeeps : p.host.Keeps P) (hs : P s.host)
include hkeeps hs

theorem host_ask (stem text symbol : Bytes) (function : Bytes → SharedObject → Option α) :
    P (p.ask stem text symbol function s).2.host := by
  have hrun := Probe.host_run hkeeps p.config stem text symbol function hs
  unfold ask
  split
  · rename_i heq
    rwa [heq] at hrun
  · rename_i heq
    rw [heq] at hrun
    dsimp only
    rwa [host_note]

theorem host_type (expression : Bytes) : P (p.type expression s).2.host := by
  unfold type
  dsimp only
  split <;> exact host_ask hkeeps hs _ _ _ _

theorem host_value (type : TypeTag) (expression : Bytes) :
    P (p.value type expression s).2.host := by
  unfold value
  split
  · exact hs
  · exact host_ask hkeeps hs _ _ _ _

end Asking

end Prober

/-! ### Discoveries -/

namespace Discovery

theorem host_dump (hkeeps : h.Keeps P) (config : Configuration) (hs : P s.host) :
    P (dump h config s).2.host := by
  have hcreate : P (s.createFile h (bytes "c-macros") config.language.suffix).2.host :=
    RunState.host_create hkeeps hs _ _ _
  unfold dump withSource
  split
  · rename_i heq
    rwa [heq] at hcreate
  · rename_i path s' heq
    rw [heq] at hcreate
    have hwrite := RunState.host_write hkeeps hcreate path path (includeLines config.headers)
    split
    · rename_i heq
      rwa [heq] at hwrite
    · rename_i heq
      rw [heq] at hwrite
      have hinvoke := RunState.host_invoke hkeeps hwrite (config.dumpCommand path) path
      unfold invokeOrFail
      dsimp only
      split <;> exact hinvoke

end Discovery

end MacroConstants
