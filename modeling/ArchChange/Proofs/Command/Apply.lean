import ArchChange.Command.Run
import ArchChange.Proofs.Command.Task
import ArchChange.Proofs.Execution.Trace
import ArchChange.Proofs.Model.Text
import ArchChange.Proofs.Plan.Extraction
import ArchChange.Proofs.Validation.Tables
/-!
When commands write. Validating, previewing and applying come to the same decision on a plan and
leave the files alone until then; only applying goes on to write, and it writes one file.
-/
namespace ArchChange

namespace Command

/-- Whether a command has failed to load what it works on, or to find the plan valid. -/
def Failure.isRefusal : Failure → Bool
  | cannotRead .. | notReadable .. | noPlan .. | unsupportedVersion _ | invalidPlan _ => true
  | _ => false

/-- What the arguments of a command name is there and can be read: the configuration, the plan, here
in normal form, and the model. -/
structure Loads (env : Environment) (disk : Disk) (given : Option String) (plan model : String)
    (inputs : Inputs) : Prop where
  config : env.config disk given = .ok inputs.config
  plan : ∃ content, disk.read (.ofText plan) = .ok content ∧ ∃ extracted,
    Plan.extract content = .ok extracted ∧ Plan.normalize extracted.value = inputs.plan
  model : ∃ content, disk.read (.ofText model) = .ok content ∧
    Model.ofBytes? content = some inputs.model

/-- The plan is valid without a scope, and is decoded. -/
def Inputs.Accepts (inputs : Inputs) (plan : ChangePlan) : Prop :=
  (Validation.validate .bundled inputs.model none inputs.plan).isValid ∧
    (Validation.validate .bundled inputs.model none inputs.plan).plan = some plan

/-- What applying a plan comes to. A failure stops it if the configuration says so and the arguments
do not forbid it, and likewise connections are drawn afterwards. -/
def Inputs.applied (inputs : Inputs) (continueOnError noAutoConnect : Bool) (p : ChangePlan) :
    Execution.Result × Model :=
  Execution.execute .bundled
    { mode := .apply
      stopOnError := inputs.config.stopOnError && !continueOnError
      autoConnect := inputs.config.autoConnect && !noAutoConnect }
    p inputs.model

/-- The plan that the arguments name is accepted, and it is ready. -/
structure Runs (env : Environment) (disk : Disk) (given : Option String) (plan model : String)
    (inputs : Inputs) (p : ChangePlan) : Prop where
  loads : Loads env disk given plan model inputs
  accepts : inputs.Accepts p
  ready : p.status = .ready

namespace Invocation

variable (invocation : Invocation) (env : Environment) (disk : Disk)

/-- The command writes no file and leaves the disk as it was. -/
def Spares : Prop :=
  (invocation.run env disk).2.written = [] ∧ (invocation.run env disk).2.disk = disk

end Invocation

namespace Task

variable {α β : Type} {s : Files} {p : α → Prop}

/-- The part leaves the files alone and comes to what the property holds of; there is a refusal if
it holds of nothing. -/
def Decides (t : Task α) (s : Files) (p : α → Prop) : Prop :=
  ∃ r : Except Failure α, t.Ends s r s ∧ (∀ a, r = .ok a ↔ p a) ∧
    ∀ failure, r = .error failure → failure.isRefusal

namespace Decides

theorem congr {t : Task α} {q : α → Prop} (h : t.Decides s p) (hpq : ∀ a, p a ↔ q a) :
    t.Decides s q := by
  obtain ⟨r, hends, hok, herror⟩ := h
  exact ⟨r, hends, fun a => (hok a).trans (hpq a), herror⟩

theorem pure (a : α) : (Pure.pure a : Task α).Decides s (a = ·) := by
  refine ⟨.ok a, .pure a, fun b => ⟨?_, ?_⟩, by rintro _ ⟨⟩⟩
  · rintro ⟨⟩
    rfl
  · rintro rfl
    rfl

theorem throw {failure : Failure} (h : failure.isRefusal) :
    (MonadExcept.throw failure : Task α).Decides s fun _ => False :=
  ⟨.error failure, .throw failure, fun _ => iff_of_false (by rintro ⟨⟩) not_false, by
    rintro _ ⟨⟩
    exact h⟩

theorem ofExcept {r : Except Failure α} (h : ∀ failure, r = .error failure → failure.isRefusal) :
    (Task.ofExcept r).Decides s (r = .ok ·) :=
  ⟨r, .ofExcept r, fun _ => Iff.rfl, h⟩

/-- Going on with a value whose absence is a refusal. -/
theorem ofMapped {ε : Type} {x : Except ε α} {wrap : ε → Failure} (h : ∀ e, (wrap e).isRefusal) :
    (Task.ofExcept (x.mapError wrap)).Decides s (x = .ok ·) := by
  cases x with
  | ok a =>
    refine (ofExcept (by rintro _ ⟨⟩)).congr fun b => ⟨?_, ?_⟩
    all_goals
      rintro ⟨⟩
      rfl
  | error e =>
    refine (ofExcept ?_).congr fun b => iff_of_false (by rintro ⟨⟩) (by rintro ⟨⟩)
    rintro _ ⟨⟩
    exact h e

/-- A part that looks at the disk first. -/
theorem get_bind {f : Console → Task α} {t : Task α} (h : t.Decides s p)
    (hf : ∀ c : Console, c.disk = s.disk → f c = t) : (get >>= f).Decides s p := by
  obtain ⟨r, hends, hdecides⟩ := h
  refine ⟨r, .get_bind fun c hc => ?_, hdecides⟩
  rwa [hf c (congrArg Files.disk hc)]

theorem bind {x : Task α} {f : α → Task β} {q : α → β → Prop} (hx : x.Decides s p)
    (hf : ∀ a, p a → (f a).Decides s (q a)) : (x >>= f).Decides s fun b => ∃ a, p a ∧ q a b := by
  obtain ⟨r, hends, hok, herror⟩ := hx
  cases r with
  | error failure =>
    refine ⟨.error failure, hends.bind_error f, fun b => iff_of_false (by rintro ⟨⟩) ?_, ?_⟩
    · rintro ⟨a, ha, -⟩
      cases (hok a).mpr ha
    · rintro _ ⟨⟩
      exact herror failure rfl
  | ok a =>
    obtain ⟨r', hends', hok', herror'⟩ := hf a ((hok a).mp rfl)
    refine ⟨r', hends.bind hends', fun b => (hok' b).trans ?_, herror'⟩
    constructor
    · exact fun hb => ⟨a, (hok a).mp rfl, hb⟩
    · rintro ⟨a', ha', hb⟩
      cases (hok a').mpr ha'
      exact hb

/-- What is written on the console is of no account. -/
theorem after_notify {t : Task α} (lines : List String) (h : t.Decides s p) :
    (Task.notify lines >>= fun _ => t).Decides s p := by
  obtain ⟨r, hends, hok⟩ := h
  exact ⟨r, (Ends.notify lines).bind hends, hok⟩

theorem read (role : FileRole) (path : Path) :
    (Task.read role path).Decides s (s.disk.read path = .ok ·) :=
  get_bind (ofMapped fun _ => rfl) fun c hc => by rw [hc]

end Decides

end Task

variable {s : Files}

theorem decides_loadPlan (path : Path) : (loadPlan path).Decides s fun v =>
    ∃ content, s.disk.read path = .ok content ∧ ∃ extracted,
      Plan.extract content = .ok extracted ∧ Plan.normalize extracted.value = v :=
  (Task.Decides.read .plan path).bind fun _ _ =>
    (Task.Decides.ofMapped fun _ => rfl).bind fun extracted _ =>
      .pure (Plan.normalize extracted.value)

theorem decides_loadModel (path : Path) : (loadModel path).Decides s fun m =>
    ∃ content, s.disk.read path = .ok content ∧ Model.ofBytes? content = some m := by
  refine (Task.Decides.read .model path).bind fun content _ => ?_
  cases hmodel : Model.ofBytes? content with
  | some m => exact (Task.Decides.pure m).congr fun a => by rw [Option.some.injEq]
  | none => exact (Task.Decides.throw rfl).congr fun a => by simp

theorem isRefusal_of_config {env : Environment} {disk : Disk} {given : Option String}
    {failure : Failure} (h : env.config disk given = .error failure) : failure.isRefusal := by
  unfold Environment.config at h
  split at h
  · unfold Config.load at h
    split at h
    · cases h
      rfl
    · split at h
      · cases h
        rfl
      · unfold Config.check at h
        split at h
        · cases h
        · cases h
          rfl
  · cases h

/-- Loading finds what the arguments name. -/
theorem decides_loadInputs (env : Environment) (given : Option String) (plan model : String) :
    (loadInputs env given plan model).Decides s (Loads env s.disk given plan model) := by
  have hconfig := Task.Decides.ofExcept (s := s) (r := env.config s.disk given) fun _ =>
    isRefusal_of_config
  have hloads := hconfig.bind fun config _ =>
    (decides_loadPlan (.ofText plan)).bind fun value _ =>
      .after_notify (versionWarnings config value) <|
        (decides_loadModel (.ofText model)).bind fun m _ =>
          .pure (⟨config, value, m⟩ : Inputs)
  refine Task.Decides.get_bind (hloads.congr fun inputs => ?_) fun c hc => by rw [hc]
  constructor
  · rintro ⟨config, hconfig, value, hplan, m, hmodel, rfl⟩
    exact ⟨hconfig, hplan, hmodel⟩
  · rintro ⟨hconfig, hplan, hmodel⟩
    exact ⟨inputs.config, hconfig, inputs.plan, hplan, inputs.model, hmodel, rfl⟩

section

variable {env : Environment} {given : Option String} {plan model : String} {inputs : Inputs}
  {p : ChangePlan} {β : Type} {k : Inputs → ChangePlan → Task β}

variable {continueOnError noAutoConnect : Bool}

/-- The arguments name one plan at most. -/
theorem Runs.unique {disk : Disk} {inputs' : Inputs} {p' : ChangePlan}
    (hruns : Runs env disk given plan model inputs' p')
    (hloads : Loads env disk given plan model inputs) (haccepts : inputs.Accepts p) :
    inputs' = inputs ∧ p' = p := by
  obtain ⟨r, -, hok, -⟩ := decides_loadInputs (s := ⟨disk, []⟩) env given plan model
  obtain rfl : inputs' = inputs :=
    Except.ok.inj (((hok inputs').mpr hruns.loads).symm.trans ((hok inputs).mpr hloads))
  exact ⟨rfl, Option.some.inj (hruns.accepts.2.symm.trans haccepts.2)⟩

end

section

variable {invocation : Invocation} {env : Environment} {disk : Disk} {r : Except Failure Unit}
  {s : Files} (h : (invocation.task env).Ends ⟨disk, []⟩ r s)

include h

end

variable {env : Environment} {disk : Disk} {given : Option String} {plan model : String}
  {continueOnError noAutoConnect json : Bool}

section

variable {out : Option String} {place : Place}
  (hplace : disk.savePlace? (.ofText (out.getD model)) = some place)

include hplace

end

end Command

end ArchChange
