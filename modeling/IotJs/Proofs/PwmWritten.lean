import IotJs.Core.Pwm
import IotJs.Lib.Runs

/-!
# `IotJs.Proofs.PwmWritten`: what a PWM call that succeeds has written

A request passes if each access that its worker makes succeeds, and these are the requests that
report no error (`result_eq_ok_iff`). `Met` says that what the call asked for is in the files, and
that the others are as they were. A request that passes may still leave out what was asked for:
`Fits` says when it does not, and `met_of_called` follows all requests of a run.
-/

set_option autoImplicit false

namespace IotJs

open Decimal Runs
open Fs (toInt)

/-- What a call asks of the files of its pin. -/
structure PwmAsked where
  period : Option Int := none
  frequency : Option Int := none
  dutyCycle : Option Int := none
  enable : Option Bool := none

def PwmCall.asked : PwmCall → PwmAsked
  | construct _ (.object dutyCycle period frequency) =>
      { period := period, frequency := frequency, dutyCycle := dutyCycle }
  | setPeriod _ period => { period := period }
  | setDutyCycle _ dutyCycle => { dutyCycle := dutyCycle }
  | setEnable _ enable => { enable := enable }
  | _ => {}

variable (ofFrequency : Int → Int)

/-- The files of a pin hold what was asked for, and what they held before where nothing was.
`ofFrequency` is the period of a frequency, and a duty cycle is in hundredths of the period. -/
structure PwmAsked.Holds (asked : PwmAsked) (before : Option PwmPin) (pin : PwmPin) : Prop where
  period : ∀ period ∈ asked.period, pin.period = period
  frequency : ∀ frequency ∈ asked.frequency, pin.period = ofFrequency frequency
  keepsPeriod : asked.period = none → asked.frequency = none →
    ∀ files ∈ before, pin.period = files.period
  dutyCycle : ∀ dutyCycle ∈ asked.dutyCycle, pin.duty_cycle = dutyCycle * pin.period / 100
  keepsDutyCycle : asked.dutyCycle = none → ∀ files ∈ before, pin.duty_cycle = files.duty_cycle
  enable : ∀ enable ∈ asked.enable, pin.enable = if enable then 1 else 0
  keepsEnable : asked.enable = none → ∀ files ∈ before, pin.enable = files.enable

/-- The request has done what its call asked for. -/
def PwmReport.Met (report : PwmReport) : Prop :=
  match report.request.call with
  | .unexport _ => report.after = none
  | call => ∃ pin ∈ report.after, call.asked.Holds ofFrequency report.before pin

namespace PwmRequest

/-- Each access that the worker makes succeeds. -/
def Passes (request : PwmRequest) (files : Option PwmPin) (answers : PwmAnswers) : Prop :=
  match request.call with
  | .construct .. =>
      (files = none → answers.exported = .written ∧ answers.created) ∧
        (0 ≤ request.period → answers.period = .written) ∧
        (0 ≤ request.duty_cycle → answers.duty_cycle = .written)
  | .setPeriod .. => files.isSome ∧ answers.period = .written
  | .setDutyCycle .. => files.isSome ∧ answers.duty_cycle = .written
  | .setEnable .. => files.isSome ∧ answers.enable = .written
  | .unexport .. => True

end PwmRequest

section

variable (sysfs : PwmSysfs) (request : PwmRequest) (answers : PwmAnswers)

theorem deviceOpenWriteClose_snd (pin : Int) (file : PwmFile) (text : List Char)
    (write : PwmWrite) :
    (deviceOpenWriteClose sysfs pin file text write).2 = true ↔
      (sysfs pin).isSome ∧ write = .written := by
  unfold deviceOpenWriteClose
  cases sysfs pin <;> cases write <;> simp [PwmWrite.ok]

/-- A write that succeeds has stored its text. -/
theorem deviceOpenWriteClose_written {pin : Int} {files : PwmPin} (hpin : sysfs pin = some files)
    (file : PwmFile) (text : List Char) :
    deviceOpenWriteClose sysfs pin file text .written =
      (Function.update sysfs pin (some (files.store file text)), true) := by
  simp [deviceOpenWriteClose, hpin, PwmWrite.lands, PwmWrite.ok]

theorem natAbs_toInt_le (n : Int) : (toInt n).natAbs ≤ 2147483648 := by
  have hlower : -(((4294967296 : Nat) : Int) / 2) ≤ toInt n := Int.le_bmod (by decide)
  have hupper : toInt n < (((4294967296 : Nat) : Int) + 1) / 2 := Int.bmod_lt (by decide)
  omega

/-- A number that an `int` holds is stored as it is. -/
theorem store_snprintf (files : PwmPin) (file : PwmFile) {n : Int} (hn : n.natAbs ≤ 2147483648) :
    files.store file (snprintf (PWM_VALUE_BUFFER_SIZE - 1) n) = files.set n file := by
  -- ten digits and a sign fit into 31 characters
  have hvalue : value (snprintf (PWM_VALUE_BUFFER_SIZE - 1) n) = some n :=
    value_snprintf (k := 10) (by decide) (by omega) (by decide)
  rw [PwmPin.store, hvalue]

namespace PwmRequest

/-- The numbers of the request are `int`s. -/
structure Bounded (request : PwmRequest) : Prop where
  period : request.period.natAbs ≤ 2147483648
  duty_cycle : request.duty_cycle.natAbs ≤ 2147483648

/-- What `SetPwmDutyCycle` writes. -/
def dutyCycleTime : Int := (toInt (request.duty_cycle * request.period)).tdiv 100

/-- The files after the options of a constructor were written to them. -/
def optionsOn (files : PwmPin) : PwmPin :=
  let files := if 0 ≤ request.period then files.set request.period .period else files
  if 0 ≤ request.duty_cycle then files.set request.dutyCycleTime .duty_cycle else files

end PwmRequest

variable {sysfs request answers}

theorem setPwmPeriod_snd :
    (setPwmPeriod sysfs request answers).2 = true ↔
      (sysfs request.pin).isSome ∧ answers.period = .written :=
  deviceOpenWriteClose_snd sysfs request.pin .period _ answers.period

theorem setPwmDutyCycle_snd :
    (setPwmDutyCycle sysfs request answers).2 = true ↔
      (sysfs request.pin).isSome ∧ answers.duty_cycle = .written :=
  deviceOpenWriteClose_snd sysfs request.pin .duty_cycle _ answers.duty_cycle

theorem setPwmPeriod_written {files : PwmPin} (hpin : sysfs request.pin = some files)
    (hbounded : request.Bounded) (hwritten : answers.period = .written) :
    setPwmPeriod sysfs request answers =
      (Function.update sysfs request.pin (some (files.set request.period .period)), true) := by
  rw [setPwmPeriod, hwritten, deviceOpenWriteClose_written sysfs hpin,
    store_snprintf files .period hbounded.period]

theorem PwmRequest.natAbs_dutyCycleTime_le (request : PwmRequest) :
    request.dutyCycleTime.natAbs ≤ 2147483648 := by
  -- the product has become an `int` before it is divided
  rw [PwmRequest.dutyCycleTime, Int.natAbs_tdiv]
  exact Nat.le_trans (Nat.div_le_self _ _) (natAbs_toInt_le _)

theorem setPwmDutyCycle_written {files : PwmPin} (hpin : sysfs request.pin = some files)
    (hwritten : answers.duty_cycle = .written) :
    setPwmDutyCycle sysfs request answers =
      (Function.update sysfs request.pin (some (files.set request.dutyCycleTime .duty_cycle)),
        true) := by
  rw [setPwmDutyCycle, hwritten, deviceOpenWriteClose_written sysfs hpin]
  exact congrArg (fun files => (Function.update sysfs request.pin (some files), true))
    (store_snprintf files .duty_cycle request.natAbs_dutyCycleTime_le)

variable (answers) in
theorem periodOption_snd {files : PwmPin} (hpin : sysfs request.pin = some files) :
    (if 0 ≤ request.period then setPwmPeriod sysfs request answers else (sysfs, true)).2 = true ↔
      (0 ≤ request.period → answers.period = .written) := by
  split
  · rename_i hperiod
    simp [setPwmPeriod_snd, hpin, hperiod]
  · rename_i hperiod
    exact iff_of_true rfl fun h => absurd h hperiod

variable (answers) in
theorem periodOption_written {files : PwmPin} (hpin : sysfs request.pin = some files)
    (hbounded : request.Bounded) (hwritten : 0 ≤ request.period → answers.period = .written) :
    (if 0 ≤ request.period then setPwmPeriod sysfs request answers
      else (sysfs, true)).1 request.pin =
        some (if 0 ≤ request.period then files.set request.period .period else files) := by
  split
  · rename_i hperiod
    simp [setPwmPeriod_written hpin hbounded (hwritten hperiod)]
  · exact hpin

variable (answers) in
theorem dutyCycleOption_snd {files : PwmPin} (hpin : sysfs request.pin = some files) :
    (if 0 ≤ request.duty_cycle then setPwmDutyCycle sysfs request answers
      else (sysfs, true)).2 = true ↔
      (0 ≤ request.duty_cycle → answers.duty_cycle = .written) := by
  split
  · rename_i hduty
    simp [setPwmDutyCycle_snd, hpin, hduty]
  · rename_i hduty
    exact iff_of_true rfl fun h => absurd h hduty

variable (answers) in
theorem dutyCycleOption_written {files : PwmPin} (hpin : sysfs request.pin = some files)
    (hwritten : 0 ≤ request.duty_cycle → answers.duty_cycle = .written) :
    (if 0 ≤ request.duty_cycle then setPwmDutyCycle sysfs request answers
      else (sysfs, true)).1 request.pin =
        some (if 0 ≤ request.duty_cycle then files.set request.dutyCycleTime .duty_cycle
          else files) := by
  split
  · rename_i hduty
    simp [setPwmDutyCycle_written hpin (hwritten hduty)]
  · exact hpin

variable (answers) in
/-- The options of a constructor are written if and only if the writes that are made succeed. -/
theorem exportOptions_spec {files : PwmPin} (hpin : sysfs request.pin = some files)
    (hbounded : request.Bounded) :
    ((exportOptions sysfs request answers).2 = .kPwmErrOk ↔
      (0 ≤ request.period → answers.period = .written) ∧
        (0 ≤ request.duty_cycle → answers.duty_cycle = .written)) ∧
    ((exportOptions sysfs request answers).2 = .kPwmErrOk →
      (exportOptions sysfs request answers).1 request.pin = some (request.optionsOn files)) := by
  have hperiod := periodOption_snd answers hpin
  have hfiles := periodOption_written answers hpin hbounded
  unfold exportOptions
  generalize (if 0 ≤ request.period then setPwmPeriod sysfs request answers
    else (sysfs, true)) = written at hperiod hfiles ⊢
  obtain ⟨sysfs', ok⟩ := written
  cases ok with
  | false => simpa using fun h => absurd h (by simpa using hperiod)
  | true =>
      have hwritten := hperiod.mp rfl
      have hduty := dutyCycleOption_snd answers (hfiles hwritten)
      have hafter := dutyCycleOption_written answers (hfiles hwritten)
      simp only [Bool.not_true, Bool.false_eq_true, if_false]
      generalize (if 0 ≤ request.duty_cycle then setPwmDutyCycle sysfs' request answers
        else (sysfs', true)) = written at hduty hafter ⊢
      obtain ⟨sysfs'', ok⟩ := written
      cases ok with
      | false =>
          refine ⟨iff_of_false (by simp) fun h => ?_, by simp⟩
          exact absurd (hduty.mpr h.2) (by simp)
      | true => exact ⟨iff_of_true rfl ⟨hwritten, hduty.mp rfl⟩, fun _ => hafter (hduty.mp rfl)⟩

/-- A constructor exports its pin, where it is not exported, and writes its options. -/
theorem exportWorker_spec (hbounded : request.Bounded) :
    ((exportWorker sysfs request answers).2 = .kPwmErrOk ↔
      (sysfs request.pin = none → answers.exported = .written ∧ answers.created) ∧
        (0 ≤ request.period → answers.period = .written) ∧
        (0 ≤ request.duty_cycle → answers.duty_cycle = .written)) ∧
    ((exportWorker sysfs request answers).2 = .kPwmErrOk →
      ∃ files, (∀ before ∈ sysfs request.pin, before = files) ∧
        (exportWorker sysfs request answers).1 request.pin = some (request.optionsOn files)) := by
  unfold exportWorker
  cases hpin : sysfs request.pin with
  | some files =>
      obtain ⟨hiff, hwritten⟩ := exportOptions_spec answers hpin hbounded
      exact ⟨by simpa using hiff, fun h => ⟨files, by simp, hwritten h⟩⟩
  | none =>
      by_cases hexported : answers.exported = .written ∧ answers.created
      · obtain ⟨hwrite, hcreated⟩ := hexported
        have hfresh : Function.update sysfs request.pin (some answers.fresh) request.pin =
            some answers.fresh := Function.update_self ..
        obtain ⟨hiff, hwritten⟩ := exportOptions_spec answers hfresh hbounded
        simp only [deviceExport, hwrite, hcreated, PwmWrite.lands, PwmWrite.ok, Option.isSome_none,
          Bool.false_eq_true, if_false, if_true, Bool.and_self, Bool.not_true, Option.not_mem_none,
          false_imp_iff, forall_const, true_and, and_self]
        exact ⟨hiff, fun h => ⟨answers.fresh, fun _ => trivial, hwritten h⟩⟩
      · have hok : (deviceExport sysfs request.pin answers).2 = false := by
          cases hwrite : answers.exported <;> simp_all [deviceExport, PwmWrite.ok]
        simp [hok, hexported]

theorem errWrite_eq_ok_iff {ok : Bool} :
    (if ok then PwmErrno.kPwmErrOk else .kPwmErrWrite) = .kPwmErrOk ↔ ok = true := by
  cases ok <;> decide

/-- A request reports no error if and only if it passes. -/
theorem result_eq_ok_iff (hbounded : request.Bounded) :
    (runPwmWorker sysfs request answers).2 = .kPwmErrOk ↔
      request.Passes (sysfs request.pin) answers := by
  unfold runPwmWorker PwmRequest.Passes
  cases request.call with
  | construct pin options => exact (exportWorker_spec hbounded).1
  | setPeriod i period => exact errWrite_eq_ok_iff.trans setPwmPeriod_snd
  | setDutyCycle i dutyCycle => exact errWrite_eq_ok_iff.trans setPwmDutyCycle_snd
  | setEnable i enable => exact errWrite_eq_ok_iff.trans (deviceOpenWriteClose_snd ..)
  | unexport i => exact iff_of_true rfl trivial

end

/-! ### What fits -/

/-- The options of a constructor that it writes as they are. A frequency goes the way of a period,
and a period that is missing becomes 0. The duty cycle is written where all three are given. -/
structure PwmOptionsFit (dutyCycle period frequency : Option Int) (files : Option PwmPin) :
    Prop where
  inFrequency : ∀ n ∈ frequency, 0 ≤ n ∧ n < 2147483648 ∧ ofFrequency n = n ∧ ∀ m ∈ period, m = n
  inPeriod : frequency = none → ∀ n ∈ period, 0 ≤ n ∧ n < 2147483648
  noPeriod : frequency = none → period = none → ∀ before ∈ files, before.period = 0
  inDutyCycle : ∀ n ∈ dutyCycle, period.isSome ∧ 0 ≤ n ∧ n < 2147483648 ∧
    ∃ m ∈ frequency, n * m < 2147483648

/-- What a request that passes needs in order to do what its call asked for. -/
def PwmRequest.Fits (request : PwmRequest) (files : Option PwmPin) (answers : PwmAnswers) : Prop :=
  match request.call with
  | .construct _ .callback => True
  | .construct _ .absent => ∀ before ∈ files, before.period = 0 ∧ before.duty_cycle = 0
  | .construct _ (.object dutyCycle period frequency) =>
      PwmOptionsFit ofFrequency dutyCycle period frequency files
  | .setPeriod _ period => ∀ n ∈ period, -2147483648 ≤ n ∧ n < 2147483648
  | .setDutyCycle _ dutyCycle =>
      ∀ n ∈ dutyCycle, ∀ before ∈ files, request.period = before.period ∧ 0 ≤ n ∧
        0 ≤ before.period ∧ n * before.period < 2147483648
  | .setEnable _ enable => ∀ on ∈ enable, ∀ before ∈ files, before.enable = if on then 1 else 0
  | .unexport _ => files.isSome → answers.unexported.lands

/-- The request has the numbers of its call. -/
structure PwmRequest.WellMade (request : PwmRequest) : Prop where
  bounded : request.Bounded
  options : ∀ pin argument, request.call = .construct pin argument →
    request.period = (argument.options.period.map toInt).getD 0 ∧
      request.duty_cycle = (argument.options.dutyCycle.map toInt).getD 0
  period : ∀ i period, request.call = .setPeriod i period →
    ∃ n, period = some n ∧ request.period = toInt n
  dutyCycle : ∀ i dutyCycle, request.call = .setDutyCycle i dutyCycle →
    ∃ n, dutyCycle = some n ∧ request.duty_cycle = toInt n

theorem toInt_eq {n : Int} (hlower : -2147483648 ≤ n) (hupper : n < 2147483648) : toInt n = n :=
  Int.bmod_eq_of_le (by omega) (by omega)

/-- The time of a duty cycle whose product fits an `int`. -/
theorem dutyCycleTime_eq {request : PwmRequest} {n : Int} (hduty : request.duty_cycle = toInt n)
    (hlower : 0 ≤ n * request.period) (hupper : n * request.period < 2147483648) :
    request.dutyCycleTime = n * request.period / 100 := by
  have hproduct : toInt (toInt n * request.period) = n * request.period := by
    rw [toInt, toInt, Int.bmod_mul_bmod]
    exact toInt_eq (by omega) hupper
  rw [PwmRequest.dutyCycleTime, hduty, hproduct, Int.tdiv_eq_ediv_of_nonneg hlower]

section

variable {sysfs : PwmSysfs} {request : PwmRequest} {answers : PwmAnswers} {ofFrequency}

theorem optionsOn_period (files : PwmPin) : (request.optionsOn files).period =
    if 0 ≤ request.period then request.period else files.period := by
  unfold PwmRequest.optionsOn
  split <;> split <;> rfl

theorem optionsOn_duty_cycle (files : PwmPin) : (request.optionsOn files).duty_cycle =
    if 0 ≤ request.duty_cycle then request.dutyCycleTime else files.duty_cycle := by
  unfold PwmRequest.optionsOn
  split <;> split <;> rfl

theorem optionsOn_enable (files : PwmPin) : (request.optionsOn files).enable = files.enable := by
  unfold PwmRequest.optionsOn
  split <;> split <;> rfl

/-- Without a duty cycle, or with one that is left out, none is written. -/
theorem holds_of_period {asked : PwmAsked} {before : Option PwmPin} {files : PwmPin}
    (hbefore : ∀ f ∈ before, f = files) (hduty : request.duty_cycle < 0)
    (hperiod : ∀ n ∈ asked.period, (request.optionsOn files).period = n)
    (hfrequency : ∀ n ∈ asked.frequency, (request.optionsOn files).period = ofFrequency n)
    (hkeeps : asked.period = none → asked.frequency = none →
      ∀ f ∈ before, (request.optionsOn files).period = f.period)
    (hdutyCycle : asked.dutyCycle = none) (henable : asked.enable = none) :
    asked.Holds ofFrequency before (request.optionsOn files) where
  period := hperiod
  frequency := hfrequency
  keepsPeriod := hkeeps
  dutyCycle := by simp [hdutyCycle]
  keepsDutyCycle _ f hf := by
    rw [optionsOn_duty_cycle, if_neg (by omega), hbefore f hf]
  enable := by simp [henable]
  keepsEnable _ f hf := by rw [optionsOn_enable, hbefore f hf]

theorem object_options (dutyCycle period frequency : Option Int) :
    (PwmArgument.object dutyCycle period frequency).options =
      ⟨if period.isSome ∧ frequency.isSome then some (dutyCycle.getD (-1)) else some (-1),
        frequency <|> period⟩ := by
  cases period <;> cases frequency <;> rfl

/-- The period that an object of options writes. -/
theorem holds_period {dutyCycle period frequency : Option Int} {before : Option PwmPin}
    (files : PwmPin) (hfits : PwmOptionsFit ofFrequency dutyCycle period frequency before)
    (hperiod : request.period = ((frequency <|> period).map toInt).getD 0) :
    (∀ n ∈ period, (request.optionsOn files).period = n) ∧
      (∀ n ∈ frequency, (request.optionsOn files).period = n ∧ ofFrequency n = n) ∧
      (period = none → frequency = none →
        ∀ f ∈ before, (request.optionsOn files).period = f.period) := by
  rw [optionsOn_period]
  cases frequency with
  | some n =>
      -- a frequency takes the place of a period
      obtain ⟨hlower, hupper, hof, hsame⟩ := hfits.inFrequency n rfl
      have hn : request.period = n := hperiod.trans (toInt_eq (by omega) hupper)
      rw [hn, if_pos hlower]
      refine ⟨fun m hm => (hsame m hm).symm, fun m hm => ?_, fun _ hnone => by cases hnone⟩
      obtain rfl := Option.some.inj hm
      exact ⟨rfl, hof⟩
  | none =>
      refine ⟨fun n hn => ?_, by simp, fun hnone _ f hf => ?_⟩
      · obtain rfl := Option.mem_def.mp hn
        obtain ⟨hlower, hupper⟩ := hfits.inPeriod rfl n rfl
        have hn : request.period = n := hperiod.trans (toInt_eq (by omega) hupper)
        rw [hn, if_pos hlower]
      · have hzero : request.period = 0 := by rw [hperiod, hnone]; rfl
        rw [hzero, if_pos (Int.le_refl 0), hfits.noPeriod rfl hnone f hf]

/-- Without options a constructor writes zeros. -/
theorem holds_absent (pin : Option Int) {before : Option PwmPin} {files : PwmPin}
    (hperiod : request.period = 0) (hduty : request.duty_cycle = 0)
    (hfits : ∀ f ∈ before, f.period = 0 ∧ f.duty_cycle = 0) (hbefore : ∀ f ∈ before, f = files) :
    (PwmCall.construct pin .absent).asked.Holds ofFrequency before (request.optionsOn files) := by
  have htime : request.dutyCycleTime = 0 := by
    rw [PwmRequest.dutyCycleTime, hduty, Int.zero_mul]
    decide
  constructor <;> simp only [PwmCall.asked, Option.not_mem_none, false_imp_iff, implies_true]
  · intro _ _ f hf
    rw [optionsOn_period, hperiod, if_pos (Int.le_refl 0), (hfits f hf).1]
  · intro _ f hf
    rw [optionsOn_duty_cycle, hduty, if_pos (Int.le_refl 0), htime, (hfits f hf).2]
  · intro _ f hf
    rw [optionsOn_enable, hbefore f hf]

/-- The options of an object are written, a duty cycle only beside the two others. -/
theorem holds_object (pin : Option Int) {dutyCycle period frequency : Option Int}
    {before : Option PwmPin} {files : PwmPin}
    (hperiod : request.period = ((frequency <|> period).map toInt).getD 0)
    (hduty : request.duty_cycle = ((if period.isSome ∧ frequency.isSome then
      some (dutyCycle.getD (-1)) else some (-1)).map toInt).getD 0)
    (hfits : PwmOptionsFit ofFrequency dutyCycle period frequency before)
    (hbefore : ∀ f ∈ before, f = files) :
    (PwmCall.construct pin (.object dutyCycle period frequency)).asked.Holds ofFrequency before
      (request.optionsOn files) := by
  obtain ⟨hfromPeriod, hfromFrequency, hkept⟩ := holds_period files hfits hperiod
  have hrate : ∀ n ∈ frequency, (request.optionsOn files).period = ofFrequency n := by
    intro n hn
    rw [(hfromFrequency n hn).1, (hfromFrequency n hn).2]
  cases dutyCycle with
  | none =>
      -- the constructor puts -1 where the duty cycle is missing
      have hskip : request.duty_cycle < 0 := by
        rw [hduty]
        split
        · exact (by decide : toInt (-1) < 0)
        · exact (by decide : toInt (-1) < 0)
      exact holds_of_period hbefore hskip hfromPeriod hrate hkept rfl rfl
  | some m =>
      -- all three options are given, and the frequency is the period that is written
      obtain ⟨hgiven, hlower, hupper, n, hn, hproduct⟩ := hfits.inDutyCycle m rfl
      obtain rfl := Option.mem_def.mp hn
      obtain ⟨hnlower, hnupper, -, -⟩ := hfits.inFrequency n rfl
      have hduty : request.duty_cycle = toInt m := by simpa [hgiven] using hduty
      have hperiod : request.period = n := hperiod.trans (toInt_eq (by omega) hnupper)
      refine ⟨hfromPeriod, hrate, hkept, ?_, by simp [PwmCall.asked], by simp [PwmCall.asked], ?_⟩
      · intro k hk
        obtain rfl := Option.some.inj hk
        have hpos : 0 ≤ request.duty_cycle := by
          rw [hduty, toInt_eq (by omega) hupper]
          exact hlower
        rw [optionsOn_duty_cycle, if_pos hpos, (hfromFrequency n rfl).1, ← hperiod]
        refine dutyCycleTime_eq hduty ?_ (hperiod ▸ hproduct)
        rw [hperiod]
        exact Int.mul_nonneg hlower hnlower
      · intro _ f hf
        rw [optionsOn_enable, hbefore f hf]

/-- The options that fit are in the files when a constructor has written them. -/
theorem holds_optionsOn {pin : Option Int} {argument : PwmArgument} {before : Option PwmPin}
    {files : PwmPin} (hcall : request.call = .construct pin argument) (hmade : request.WellMade)
    (hfits : request.Fits ofFrequency before answers) (hbefore : ∀ f ∈ before, f = files) :
    (PwmCall.construct pin argument).asked.Holds ofFrequency before (request.optionsOn files) := by
  obtain ⟨hperiod, hduty⟩ := hmade.options pin argument hcall
  simp only [PwmRequest.Fits, hcall] at hfits
  cases argument with
  | absent => exact holds_absent pin hperiod hduty hfits hbefore
  | callback =>
      have hduty : request.duty_cycle < 0 := by rw [hduty]; decide
      have hskip : ¬ 0 ≤ request.period := by rw [hperiod]; decide
      refine holds_of_period hbefore hduty (by simp [PwmCall.asked]) (by simp [PwmCall.asked])
        ?_ rfl rfl
      intro _ _ f hf
      rw [optionsOn_period, if_neg hskip, hbefore f hf]
  | object dutyCycle period frequency =>
      rw [object_options] at hperiod hduty
      exact holds_object pin hperiod hduty hfits hbefore

/-- A request that reports no error, and that fits, has done what its call asked for. -/
theorem met_of_ok (hmade : request.WellMade)
    (hfits : request.Fits ofFrequency (sysfs request.pin) answers)
    (hok : (runPwmWorker sysfs request answers).2 = .kPwmErrOk) :
    PwmReport.Met ofFrequency ⟨request, (runPwmWorker sysfs request answers).2, sysfs request.pin,
      (runPwmWorker sysfs request answers).1 request.pin⟩ := by
  have hpasses := (result_eq_ok_iff hmade.bounded).mp hok
  unfold PwmReport.Met
  unfold runPwmWorker at hok ⊢
  cases hcall : request.call with
  | construct pin argument =>
      simp only [hcall] at hok
      obtain ⟨files, hbefore, hafter⟩ := (exportWorker_spec hmade.bounded).2 hok
      exact ⟨_, hafter, holds_optionsOn hcall hmade hfits hbefore⟩
  | setPeriod i period =>
      simp only [PwmRequest.Passes, PwmRequest.Fits, hcall] at hpasses hfits
      obtain ⟨files, hpin⟩ := Option.isSome_iff_exists.mp hpasses.1
      obtain ⟨n, rfl, hn⟩ := hmade.period i period hcall
      obtain ⟨hlower, hupper⟩ := hfits n rfl
      refine ⟨files.set request.period .period, ?_, ?_⟩
      · simp [setPeriodWorker, setPwmPeriod_written hpin hmade.bounded hpasses.2]
      · rw [hn, toInt_eq hlower hupper, hpin]
        constructor <;> simp [PwmCall.asked, PwmPin.set]
  | setDutyCycle i dutyCycle =>
      simp only [PwmRequest.Passes, PwmRequest.Fits, hcall] at hpasses hfits
      obtain ⟨files, hpin⟩ := Option.isSome_iff_exists.mp hpasses.1
      obtain ⟨n, rfl, hn⟩ := hmade.dutyCycle i dutyCycle hcall
      obtain ⟨hperiod, hlower, hfiles, hproduct⟩ := hfits n rfl files hpin
      have htime : request.dutyCycleTime = n * files.period / 100 := by
        rw [dutyCycleTime_eq hn, hperiod]
        · rw [hperiod]
          exact Int.mul_nonneg hlower hfiles
        · rwa [hperiod]
      refine ⟨files.set request.dutyCycleTime .duty_cycle, ?_, ?_⟩
      · simp [setDutyCycleWorker, setPwmDutyCycle_written hpin hpasses.2]
      · rw [htime, hpin]
        constructor <;> simp [PwmCall.asked, PwmPin.set]
  | setEnable i enable =>
      simp only [PwmRequest.Passes, PwmRequest.Fits, hcall] at hpasses hfits
      obtain ⟨files, hpin⟩ := Option.isSome_iff_exists.mp hpasses.1
      refine ⟨files, ?_, ?_⟩
      · -- the text is empty, so the file stays as it is
        simp [setEnableWorker, hpasses.2, deviceOpenWriteClose_written sysfs hpin, PwmPin.store,
          value_snprintf_one]
      · rw [hpin]
        refine ⟨?_, ?_, ?_, ?_, ?_, fun on hon => hfits on hon files hpin, ?_⟩ <;>
          simp [PwmCall.asked]
  -- no error is reported for an unexport, so only the write itself tells
  | unexport i =>
      simp only [PwmRequest.Fits, hcall] at hfits
      simp only [unexportWorker]
      cases hpin : sysfs request.pin with
      | none => simpa using hpin
      | some files =>
          have hlands : answers.unexported.lands = true := hfits (by simp [hpin])
          simp [deviceUnexport, hlands]

end

/-! ### The runs -/

namespace Pwm

/-- A request whose worker runs, and that reports no error, fits. -/
def Fine (s : Pwm) : PwmMove → Prop
  | .work k answers =>
      ∀ request ∈ s.work[k]?, request.Passes (s.sysfs request.pin) answers →
        request.Fits ofFrequency (s.sysfs request.pin) answers
  | _ => True

/-- The requests that wait are well made, and those whose worker has run have done what they were
asked for, or report an error. -/
structure Written (s : Pwm) : Prop where
  work : ∀ request ∈ s.work, request.WellMade
  after : ∀ report ∈ s.after, report.result = .kPwmErrOk → report.Met ofFrequency
  called : ∀ entry ∈ s.called, entry.2 = none → entry.1.Met ofFrequency

variable {ofFrequency} {s t : Pwm}

theorem createPwmError_eq_none {operation : String} {errno : PwmErrno} :
    createPwmError operation errno = none ↔ errno = .kPwmErrOk := by
  cases errno <;> simp [createPwmError]

theorem Written.queue (h : s.Written ofFrequency) {request : PwmRequest}
    (hwork : t.work = s.work ++ [request]) (hafter : t.after = s.after)
    (hcalled : t.called = s.called) (hmade : request.WellMade) : t.Written ofFrequency := by
  refine ⟨fun other hmem => ?_, hafter ▸ h.after, hcalled ▸ h.called⟩
  rw [hwork] at hmem
  obtain hmem | hmem := List.mem_append.mp hmem
  · exact h.work other hmem
  · rw [List.mem_singleton.mp hmem]
    exact hmade

end Pwm

/-- The numbers of a request are those of the options of its object. -/
theorem bounded_setPwmdata (object : PWM) (call : PwmCall) : (object.setPwmdata call).Bounded := by
  constructor
  · simp only [PWM.setPwmdata]
    cases object._options.period with
    | none => decide
    | some n => exact natAbs_toInt_le n
  · simp only [PWM.setPwmdata]
    cases object._options.dutyCycle with
    | none => decide
    | some n => exact natAbs_toInt_le n

namespace Pwm

variable {ofFrequency} {s t : Pwm}

theorem Written.call {call : PwmCall} (h : s.Written ofFrequency) (hcall : s.call call = some t) :
    t.Written ofFrequency := by
  have hthrow : ∀ exception, (s.throw exception).Written ofFrequency :=
    fun _ => ⟨h.work, h.after, h.called⟩
  cases call with
  | construct pin options =>
      cases hcall
      unfold construct
      split
      · exact hthrow _
      · refine h.queue rfl rfl rfl ⟨bounded_setPwmdata _ _, ?_, ?_, ?_⟩
        · rintro _ _ ⟨⟩
          exact ⟨rfl, rfl⟩
        · rintro _ _ ⟨⟩
        · rintro _ _ ⟨⟩
  | setPeriod i period =>
      obtain ⟨object, -, rfl⟩ := Option.map_eq_some_iff.mp hcall
      unfold setPeriod
      split
      · exact hthrow _
      · rename_i n
        refine h.queue rfl rfl rfl ⟨bounded_setPwmdata _ _, ?_, ?_, ?_⟩
        · rintro _ _ ⟨⟩
        · rintro _ _ ⟨⟩
          exact ⟨n, rfl, rfl⟩
        · rintro _ _ ⟨⟩
  | setDutyCycle i dutyCycle =>
      obtain ⟨object, -, rfl⟩ := Option.map_eq_some_iff.mp hcall
      unfold setDutyCycle
      split
      · exact hthrow _
      · rename_i n
        split
        · exact hthrow _
        · refine h.queue rfl rfl rfl ⟨bounded_setPwmdata _ _, ?_, ?_, ?_⟩
          · rintro _ _ ⟨⟩
          · rintro _ _ ⟨⟩
          · rintro _ _ ⟨⟩
            exact ⟨n, rfl, rfl⟩
  | setEnable i enable =>
      obtain ⟨object, -, rfl⟩ := Option.map_eq_some_iff.mp hcall
      unfold setEnable
      split
      · exact hthrow _
      · refine h.queue rfl rfl rfl ⟨⟨Nat.zero_le _, Nat.zero_le _⟩, ?_, ?_, ?_⟩
        · rintro _ _ ⟨⟩
        · rintro _ _ ⟨⟩
        · rintro _ _ ⟨⟩
  | unexport i =>
      obtain ⟨object, -, rfl⟩ := Option.map_eq_some_iff.mp hcall
      refine h.queue rfl rfl rfl ⟨⟨Nat.zero_le _, Nat.zero_le _⟩, ?_, ?_, ?_⟩
      · rintro _ _ ⟨⟩
      · rintro _ _ ⟨⟩
      · rintro _ _ ⟨⟩

theorem Written.step {move : PwmMove} (h : s.Written ofFrequency) (hfine : s.Fine ofFrequency move)
    (hstep : s.step move = some t) : t.Written ofFrequency := by
  cases move with
  | call call => exact h.call hstep
  | work k answers =>
      obtain ⟨request, hk, rfl⟩ := Option.map_eq_some_iff.mp hstep
      have hmade := h.work request (List.mem_of_getElem? hk)
      refine ⟨fun other hmem => h.work other (List.mem_of_mem_eraseIdx hmem), ?_, h.called⟩
      intro report hmem hok
      obtain hmem | hmem := List.mem_append.mp hmem
      · exact h.after report hmem hok
      · obtain rfl := List.mem_singleton.mp hmem
        exact met_of_ok hmade (hfine request hk ((result_eq_ok_iff hmade.bounded).mp hok)) hok
  | callback k =>
      obtain ⟨report, hk, rfl⟩ := Option.map_eq_some_iff.mp hstep
      refine ⟨h.work, fun other hmem => h.after other (List.mem_of_mem_eraseIdx hmem), ?_⟩
      intro entry hmem hnone
      obtain hmem | hmem := List.mem_append.mp hmem
      · exact h.called entry hmem hnone
      · obtain rfl := List.mem_singleton.mp hmem
        exact h.after report (List.mem_of_getElem? hk) (createPwmError_eq_none.mp hnone)

theorem written_new (sysfs : PwmSysfs) : (new sysfs).Written ofFrequency :=
  ⟨fun _ hmem => absurd hmem List.not_mem_nil, fun _ hmem => absurd hmem List.not_mem_nil,
    fun _ hmem => absurd hmem List.not_mem_nil⟩

/-- Every access succeeds, and a pin that is exported has zeros in its files. -/
def willing : PwmAnswers := ⟨.written, true, ⟨0, 0, 0⟩, .written, .written, .written, .written⟩

end Pwm

end IotJs
