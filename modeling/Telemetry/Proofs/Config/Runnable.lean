import Telemetry.Config.Environment
import Telemetry.Exporter
import Telemetry.Proofs.Binary64.Whole

/-!
Configurations that can be run: which of those that pass their own check an exporter can be made
of.

Proved here:

* `isFinite_thousandfold_iff`: a positive number of seconds is a number of milliseconds exactly if
  it is at most `longestStep`;
* `ExportConfig.ofEnvironment_spec`: what an environment gives as numbers;
* `ExportConfig.validate_iff`: the check of a configuration with such numbers;
* `ExportConfig.runs_iff`: an environment's configuration that passes its check runs exactly if
  its step is at most `longestStep`, and requests of it hold one to two hundred records.
-/

namespace Telemetry

/-! ## The longest step -/

namespace Binary64

theorem isFinite_iff_rank_lt {x : Binary64} (hnan : x.isNaN = false) (h0 : 0 ≤ x.rank) :
    x.isFinite = true ↔ x.rank < unitsAtOverflow := by
  cases x with
  | nan => cases hnan
  | infinite s =>
    obtain rfl := not_negative_of_rank_nonneg h0
    simp [isFinite, rank]
  | finite s m =>
    have hm := m.property.1
    refine iff_of_true rfl ?_
    cases s <;> simp only [rank] <;> omega

theorem isNaN_mul {x y : Binary64} (hx : x.isFinite = true) (hy : y.isFinite = true) :
    (x * y).isNaN = false := by
  cases x with
  | nan => cases hx
  | infinite s => cases hx
  | finite s m =>
    cases y with
    | nan => cases hy
    | infinite t => cases hy
    | finite t n =>
      rw [mul_eq, mul]
      rcases ofRatio_eq (s != t) (m.val * n.val) unitsPerOne with ⟨_, -, -, heq⟩ | ⟨-, heq⟩
      · rw [heq]; rfl
      · rw [heq]; rfl

/-- The longest time in seconds that is a finite number of milliseconds, about 1.8e305. -/
def longestStep : Binary64 := .ofInt (4611686018427387 * 2 ^ 962)

/-- The next number. -/
def overlongStep : Binary64 := .ofInt (4611686018427388 * 2 ^ 962)

/-- A positive number of seconds is a number of milliseconds if it is not too long. -/
theorem isFinite_thousandfold_iff {x : Binary64} (hpos : x.leInt 0 = false) :
    (x * 1000).isFinite = true ↔ x.le longestStep = true := by
  have hthousand : (1000 : Binary64).isFinite = true := by decide +kernel
  have hlongest : longestStep.isFinite = true ∧
      longestStep.rank = 4611686018427387 * twoTo (962 + 1074) := by decide +kernel
  have hoverlong : overlongStep.isFinite = true ∧
      overlongStep.rank = 4611686018427388 * twoTo (962 + 1074) := by decide +kernel
  cases x with
  | nan => exact iff_of_false Bool.false_ne_true Bool.false_ne_true
  | infinite s =>
    cases s with
    | true => cases hpos
    | false => decide +kernel
  | finite s m =>
    generalize hx : Binary64.finite s m = x at *
    have hfinite : x.isFinite = true := by rw [← hx]; rfl
    have h0 : 0 < x.rank := by
      have := mt (leInt_iff hfinite 0).mpr (by rw [hpos]; exact Bool.false_ne_true)
      omega
    have hproduct := isFinite_iff_rank_lt (isNaN_mul hfinite hthousand)
      (rank_mul_nonneg (Int.le_of_lt h0) (by decide +kernel))
    rw [le_iff (isNaN_of_isFinite hfinite) (isNaN_of_isFinite hlongest.1), hproduct]
    constructor
    · intro hlt
      by_contra hnot
      have hnext : overlongStep.rank ≤ x.rank := by
        have := (representable_rank hfinite).succ_le
          (show twoTo 52 ≤ 4611686018427387 by decide)
          (show 4611686018427387 * twoTo (962 + 1074) < x.rank.natAbs by omega)
        omega
      have hmono := rank_mul_mono hoverlong.1 hfinite hthousand (by decide +kernel) hnext
        (by decide +kernel)
      have hleast : unitsAtOverflow ≤ (overlongStep * 1000).rank := by decide +kernel
      omega
    · intro hle
      have hmono := rank_mul_mono hfinite hlongest.1 hthousand (Int.le_of_lt h0) hle
        (by decide +kernel)
      have hmost : (longestStep * 1000).rank < unitsAtOverflow := by decide +kernel
      omega

theorem toInteger_of_not_isFinite {x : Binary64} (h : x.isFinite = false) :
    x.toInteger = .error (if x.isNaN = true then .nanToInteger else .infinityToInteger) := by
  cases x with
  | nan => rfl
  | infinite s => rfl
  | finite s m => cases h

theorem isNaN_thousandfold {x : Binary64} (hpos : x.leInt 0 = false) :
    (x * 1000).isNaN = x.isNaN := by
  cases x with
  | nan => rfl
  | infinite s =>
    cases s with
    | true => cases hpos
    | false => decide +kernel
  | finite s m => exact isNaN_mul rfl (by decide +kernel)

end Binary64

/-! ## The check of a configuration of numbers -/

namespace ExportConfig

variable {environment : OrderedMap String String} {start : String} {c : ExportConfig}

theorem exists_float_of_realSetting {x : Binary64} {text : Option String} {v : Value}
    (h : realSetting (.float x) text = .ok v) :
    ∃ y, v = .float y ∧ (text = none → y = x) := by
  cases text with
  | none => exact ⟨x, (Except.ok.inj h).symm, fun _ => rfl⟩
  | some s =>
    rw [realSetting] at h
    split at h
    · next y _ => exact ⟨y, (Except.ok.inj h).symm, nofun⟩
    · cases h

theorem exists_int_of_integerSetting {n : Int} {text : Option String} {v : Value}
    (h : integerSetting (.int n) text = .ok v) :
    ∃ m, v = .int m ∧ (text = none → m = n) := by
  cases text with
  | none => exact ⟨n, (Except.ok.inj h).symm, fun _ => rfl⟩
  | some s =>
    rw [integerSetting] at h
    split at h
    · next m _ => exact ⟨m, (Except.ok.inj h).symm, nofun⟩
    · cases h

/-- A configuration with a double for its step and its timeout, and whole numbers of records and
workers. -/
structure HasNumbers (c : ExportConfig) (step : Binary64) (batch workers : Int)
    (timeout : Binary64) : Prop where
  step : c.stepSeconds = .float step
  batch : c.batchSize = .int batch
  workers : c.maxWorkers = .int workers
  timeout : c.timeoutSeconds = .float timeout

/-- The numbers of an environment, which are those of the default where no variable is set. -/
theorem ofEnvironment_spec (h : ofEnvironment environment start = .ok c) :
    ∃ step batch workers timeout, c.HasNumbers step batch workers timeout ∧
      (environment.get? (start ++ "STEP_SECONDS") = none → step = 60) ∧
      (environment.get? (start ++ "BATCH_SIZE") = none → batch = 10000) ∧
      (environment.get? (start ++ "MAX_WORKERS") = none → workers = 1) ∧
      (environment.get? (start ++ "TIMEOUT_SECONDS") = none → timeout = 30) := by
  obtain ⟨labels, -, h⟩ := Fault.exists_of_bind_eq_ok h
  obtain ⟨stepValue, hstep, h⟩ := Fault.exists_of_bind_eq_ok h
  obtain ⟨batchValue, hbatch, h⟩ := Fault.exists_of_bind_eq_ok h
  obtain ⟨workersValue, hworkers, h⟩ := Fault.exists_of_bind_eq_ok h
  obtain ⟨timeoutValue, htimeout, h⟩ := Fault.exists_of_bind_eq_ok h
  cases h
  obtain ⟨step, rfl, hstepSet⟩ := exists_float_of_realSetting hstep
  obtain ⟨batch, rfl, hbatchSet⟩ := exists_int_of_integerSetting hbatch
  obtain ⟨workers, rfl, hworkersSet⟩ := exists_int_of_integerSetting hworkers
  obtain ⟨timeout, rfl, htimeoutSet⟩ := exists_float_of_realSetting htimeout
  exact ⟨step, batch, workers, timeout, ⟨rfl, rfl, rfl, rfl⟩, hstepSet, hbatchSet,
    hworkersSet, htimeoutSet⟩

section Numbers

variable {step : Binary64} {batch workers : Int} {timeout : Binary64}
  (h : c.HasNumbers step batch workers timeout)

include h

/-- **The check** of a configuration with numbers. -/
theorem validate_iff :
    c.validate = .ok () ↔
      (c.enabled.truthy = true → c.projectId.truthy = true) ∧ step.leInt 0 = false ∧
      0 < batch ∧ 0 < workers ∧ timeout.leInt 0 = false ∧ c.resourceType.truthy = true := by
  have hstep : positiveProblem .step c.stepSeconds =
      .ok (if step.leInt 0 = true then [.notPositive .step] else []) := by rw [h.step]; rfl
  have hbatch : positiveProblem .batch c.batchSize =
      .ok (if decide (batch ≤ 0) = true then [.notPositive .batch] else []) := by
    rw [h.batch]; rfl
  have hworkers : positiveProblem .workers c.maxWorkers =
      .ok (if decide (workers ≤ 0) = true then [.notPositive .workers] else []) := by
    rw [h.workers]; rfl
  have htimeout : positiveProblem .timeout c.timeoutSeconds =
      .ok (if timeout.leInt 0 = true then [.notPositive .timeout] else []) := by
    rw [h.timeout]; rfl
  rw [validate, problems]
  simp only [hstep, hbatch, hworkers, htimeout, bind, Except.bind, pure, Except.pure]
  simp

/-- The records of a request of a configuration that passes its check. -/
theorem partitionSize_of_validate (hvalid : c.validate = .ok ()) :
    c.partitionSize = .ok (.int (min batch 200)) ∧ 1 ≤ min batch 200 ∧ min batch 200 ≤ 200 := by
  obtain ⟨-, -, hbatch, -, -, -⟩ := (validate_iff h).mp hvalid
  refine ⟨?_, by omega, by omega⟩
  have hmin : c.partitionSize =
      .ok (if decide (seriesPerRequest < batch) = true then .int seriesPerRequest
        else .int batch) := by
    rw [partitionSize, h.batch]; rfl
  rw [hmin, seriesPerRequest]
  by_cases hmore : 200 < batch
  · rw [if_pos (decide_eq_true hmore), min_eq_right (Int.le_of_lt hmore)]
  · rw [if_neg (by simpa using hmore), min_eq_left (Int.not_lt.mp hmore)]

theorem stepMillis_eq : c.stepMillis = (step * 1000).toInteger := by
  rw [stepMillis, h.step]
  rfl

/-- The schedule of a step that passes the check: that of its milliseconds. -/
theorem ofValue_step (hpos : step.leInt 0 = false) :
    StepSchedule.ofValue c.stepSeconds = c.stepMillis.map .ofMillis := by
  have hmost : c.stepSeconds.atMost 0 = .ok false := by
    rw [h.step]
    exact congrArg Except.ok hpos
  rw [StepSchedule.ofValue, hmost, stepMillis]
  cases c.stepSeconds.thousandfold <;> rfl

end Numbers

end ExportConfig

/-! ## Exporters of a configuration -/

section Exporters

variable {σ ρ : Type}

/-- An exporter of a configuration that passes its check can be made if its step can be
scheduled. -/
theorem Exporter.create_of_validate {setup : ExporterSetup σ ρ}
    (hvalid : setup.config.validate = .ok ()) (client : Option (Client σ)) (now : Int)
    (backend : σ) (source : ρ) :
    create setup client now backend source =
      (StepSchedule.ofValue setup.config.stepSeconds).map fun schedule =>
        { setup, schedule, client, now, backend, source, scheduler := .idle
          cache := client.map fun _ => .empty, previousEnd := now, lastResult := none } := by
  rw [create, hvalid]
  cases StepSchedule.ofValue setup.config.stepSeconds with
  | error fault => rfl
  | ok schedule => cases client <;> rfl

end Exporters

namespace ExportConfig

/-- Exporters of a configuration can be made, whatever they are connected to; their step is that of
the configuration in whole milliseconds, and at least one. -/
def Runs (c : ExportConfig) : Prop :=
  ∃ millis, c.stepMillis = .ok millis ∧
    ∀ {σ ρ : Type} (setup : ExporterSetup σ ρ) (client : Option (Client σ)) (now : Int)
      (backend : σ) (source : ρ), setup.config = c →
        ∃ e, Exporter.create setup client now backend source = .ok e ∧
          e.schedule.stepMillis = max 1 millis

/-- No exporter of a configuration can be made, as its step is no number of milliseconds. -/
def FailsWith (c : ExportConfig) (fault : Fault) : Prop :=
  c.stepMillis = .error fault ∧
    ∀ {σ ρ : Type} (setup : ExporterSetup σ ρ) (client : Option (Client σ)) (now : Int)
      (backend : σ) (source : ρ), setup.config = c →
        Exporter.create setup client now backend source = .error fault

variable {c : ExportConfig} {step : Binary64} {batch workers : Int} {timeout : Binary64}

theorem FailsWith.not_runs {fault : Fault} (h : c.FailsWith fault) : ¬ c.Runs := by
  rintro ⟨millis, hmillis, -⟩
  rw [h.1] at hmillis
  cases hmillis

section Valid

variable (h : c.HasNumbers step batch workers timeout) (hvalid : c.validate = .ok ())

include h hvalid

theorem runs_of_le (hle : step.le Binary64.longestStep = true) : c.Runs := by
  obtain ⟨-, hpos, -⟩ := (validate_iff h).mp hvalid
  obtain ⟨millis, hmillis⟩ :=
    Binary64.exists_toInteger ((Binary64.isFinite_thousandfold_iff hpos).mpr hle)
  rw [← stepMillis_eq h] at hmillis
  refine ⟨millis, hmillis, fun setup client now backend source hconfig => ?_⟩
  subst hconfig
  rw [Exporter.create_of_validate hvalid, ofValue_step h hpos, hmillis]
  exact ⟨_, rfl, rfl⟩

theorem failsWith_of_not_le (hle : step.le Binary64.longestStep = false) :
    c.FailsWith (if step.isNaN = true then .nanToInteger else .infinityToInteger) := by
  obtain ⟨-, hpos, -⟩ := (validate_iff h).mp hvalid
  have hfinite : (step * 1000).isFinite = false := by
    rw [← Bool.not_eq_true, Binary64.isFinite_thousandfold_iff hpos, hle]
    exact Bool.false_ne_true
  have hmillis := Binary64.toInteger_of_not_isFinite hfinite
  rw [Binary64.isNaN_thousandfold hpos, ← stepMillis_eq h] at hmillis
  refine ⟨hmillis, fun setup client now backend source hconfig => ?_⟩
  subst hconfig
  rw [Exporter.create_of_validate hvalid, ofValue_step h hpos, hmillis]
  rfl

end Valid

/-- **Configurations of an environment** that pass their check. A request of one holds one to two
hundred records. Exporters of it can be made exactly if its step is at most the longest, as it is
if no variable is set for it. -/
theorem runs_iff_of_environment {environment : OrderedMap String String} {start : String}
    (hc : ofEnvironment environment start = .ok c) (hvalid : c.validate = .ok ()) :
    (∃ size, c.partitionSize = .ok (.int size) ∧ 1 ≤ size ∧ size ≤ 200) ∧
    ∃ step, c.stepSeconds = .float step ∧
      (c.Runs ↔ step.le Binary64.longestStep = true) ∧
      (step.le Binary64.longestStep = false →
        c.FailsWith (if step.isNaN = true then .nanToInteger else .infinityToInteger)) ∧
      (environment.get? (start ++ "STEP_SECONDS") = none → step = 60 ∧ c.Runs) := by
  obtain ⟨step, batch, workers, timeout, h, hunset, -⟩ := ofEnvironment_spec hc
  have hruns : c.Runs ↔ step.le Binary64.longestStep = true := by
    refine ⟨fun hruns => ?_, runs_of_le h hvalid⟩
    by_contra hle
    exact (failsWith_of_not_le h hvalid (Bool.eq_false_iff.mpr hle)).not_runs hruns
  refine ⟨⟨_, partitionSize_of_validate h hvalid⟩, step, h.step, hruns,
    failsWith_of_not_le h hvalid, fun hnone => ?_⟩
  obtain rfl := hunset hnone
  exact ⟨rfl, hruns.mpr (by decide +kernel)⟩

/-! ## Steps of environments -/

private theorem eq_ok_of_toOption {α : Type} {x : Except Fault α} {a : α}
    (h : x.toOption = some a) : x = .ok a := by
  cases x with
  | error fault => cases h
  | ok b => exact congrArg Except.ok (Option.some.inj h)

/-- The step of an environment's configuration that passes its check. -/
def validStep? (environment : OrderedMap String String) : Option Value.Number :=
  (ofEnvironment environment defaultVariableStart).toOption.bind fun c =>
    c.validate.toOption.bind fun _ => c.stepSeconds.number?

theorem exists_of_validStep? {environment : OrderedMap String String} {step : Binary64}
    (h : validStep? environment = some (.float step)) :
    ∃ c, ofEnvironment environment defaultVariableStart = .ok c ∧ c.validate = .ok () ∧
      c.stepSeconds = .float step := by
  obtain ⟨c, hc, h⟩ := Option.bind_eq_some_iff.mp h
  obtain ⟨_, hvalid, h⟩ := Option.bind_eq_some_iff.mp h
  refine ⟨c, eq_ok_of_toOption hc, eq_ok_of_toOption hvalid, ?_⟩
  cases hvalue : c.stepSeconds with
  | float x =>
    rw [hvalue] at h
    cases h
    rfl
  | _ =>
    rw [hvalue] at h
    cases h

/-- The variables of a project with a step as it is spelled. -/
def environmentWithStep (step : String) : OrderedMap String String :=
  .ofList [("STACKDRIVER_PROJECT_ID", "p"), ("STACKDRIVER_STEP_SECONDS", step),
    ("STACKDRIVER_BATCH_SIZE", "1_000")]

theorem runs_iff_of_environment_brisk :
    ∃ c, ofEnvironment (environmentWithStep " 5e-1") defaultVariableStart = .ok c ∧
      c.validate = .ok () ∧ c.stepSeconds = .float (1 / 2) ∧ c.Runs ∧
      ∃ size, c.partitionSize = .ok (.int size) ∧ 1 ≤ size ∧ size ≤ 200 := by
  have hhalf : validStep? (environmentWithStep " 5e-1") = some (.float (1 / 2)) := by
    decide +kernel
  obtain ⟨c, hc, hvalid, hstep⟩ := exists_of_validStep? hhalf
  obtain ⟨hsize, step, hfloat, hruns, -, -⟩ := runs_iff_of_environment hc hvalid
  rw [hstep] at hfloat
  cases hfloat
  exact ⟨c, hc, hvalid, hstep, hruns.mpr (by decide +kernel), hsize⟩

/-- A step that passes the check of its configuration but is not within the longest. -/
theorem failsWith_of_validStep? {environment : OrderedMap String String} {step : Binary64}
    (h : validStep? environment = some (.float step))
    (hle : step.le Binary64.longestStep = false) :
    ∃ c, ofEnvironment environment defaultVariableStart = .ok c ∧ c.validate = .ok () ∧
      c.FailsWith (if step.isNaN = true then .nanToInteger else .infinityToInteger) := by
  obtain ⟨c, hc, hvalid, hstep⟩ := exists_of_validStep? h
  obtain ⟨own, batch, workers, timeout, hnumbers, -⟩ := ofEnvironment_spec hc
  have heq := hnumbers.step
  rw [hstep] at heq
  cases heq
  exact ⟨c, hc, hvalid, failsWith_of_not_le hnumbers hvalid hle⟩

/-- A step of NaN seconds passes the check, as it is not at most zero, and so does one of 10^306
seconds; no exporter can be made with either. -/
theorem valid_steps_fail :
    (∃ c, ofEnvironment (environmentWithStep "nan") defaultVariableStart = .ok c ∧
      c.validate = .ok () ∧ c.FailsWith .nanToInteger ∧ ¬ c.Runs) ∧
    (∃ c, ofEnvironment (environmentWithStep "1e306") defaultVariableStart = .ok c ∧
      c.validate = .ok () ∧ c.FailsWith .infinityToInteger ∧ ¬ c.Runs) := by
  constructor
  · have hnan : validStep? (environmentWithStep "nan") = some (.float .nan) := by decide +kernel
    obtain ⟨c, hc, hvalid, hfails⟩ := failsWith_of_validStep? hnan rfl
    exact ⟨c, hc, hvalid, hfails, hfails.not_runs⟩
  · have hhuge : validStep? (environmentWithStep "1e306") = some (.float (.ofInt (10 ^ 306))) := by
      decide +kernel
    have hnumber : (Binary64.ofInt (10 ^ 306)).isNaN = false := by decide +kernel
    obtain ⟨c, hc, hvalid, hfails⟩ := failsWith_of_validStep? hhuge (by decide +kernel)
    rw [hnumber] at hfails
    exact ⟨c, hc, hvalid, hfails, hfails.not_runs⟩

end ExportConfig
end Telemetry
