import IotJs.Core.FsRange
import IotJs.Proofs.PwmWritten

/-!
# `IotJs.Proofs.PwmDutyCycle`: the time of a duty cycle

`SetPwmDutyCycle` takes the hundredth of `duty_cycle * period`, and this product is an `int` before
it becomes a `double`. A period of 30 milliseconds in nanoseconds makes it too large at a duty cycle
of 72. `dutyCycleExact_iff` bounds the period.
-/

set_option autoImplicit false

namespace IotJs

open Fs (toInt)
open FsRange (IsInt)

namespace PwmRequest

variable {request : PwmRequest}

/-- The product is an `int`, and what reaches the file of an exported pin is the whole part of its
hundredth, between 0 and the period. -/
structure DutyCycleExact (request : PwmRequest) : Prop where
  product : IsInt (request.duty_cycle * request.period)
  written : ∀ sysfs answers, (sysfs request.pin).isSome → answers.duty_cycle.lands = true →
    ∃ pin ∈ (setPwmDutyCycle sysfs request answers).1 request.pin,
      pin.duty_cycle = request.duty_cycle * request.period / 100 ∧
        0 ≤ pin.duty_cycle ∧ pin.duty_cycle ≤ request.period

/-! ### The value in the file -/

/-- A write that lands leaves the time in the file, also where the file is not closed well. -/
theorem setPwmDutyCycle_lands {sysfs : PwmSysfs} {answers : PwmAnswers} {files : PwmPin}
    (hpin : sysfs request.pin = some files) (hlands : answers.duty_cycle.lands = true) :
    (setPwmDutyCycle sysfs request answers).1 request.pin =
      some (files.set request.dutyCycleTime .duty_cycle) := by
  have hstore := store_snprintf files .duty_cycle request.natAbs_dutyCycleTime_le
  rw [setPwmDutyCycle, deviceOpenWriteClose]
  simp only [hpin, hlands, if_true, Function.update_self]
  exact congrArg some hstore

/-! ### The product -/

/-- A product above the range of `int` is smaller by a multiple of `2^32` after the conversion, so
the hundredth of it is smaller too. -/
theorem tdiv_toInt_eq_iff {n : Int} (hn : 0 ≤ n) :
    (toInt n).tdiv 100 = n / 100 ↔ n < 2147483648 := by
  constructor
  · intro hexact
    by_contra hlarge
    have hupper : toInt n < (((4294967296 : Nat) : Int) + 1) / 2 := Int.bmod_lt (by decide)
    have hmod : ∃ k, n = toInt n + 4294967296 * k :=
      ⟨Int.bdiv n 4294967296, (Int.bmod_add_bdiv n 4294967296).symm⟩
    obtain ⟨k, hk⟩ := hmod
    have hk : 1 ≤ k := by omega
    rcases Int.le_total 0 (toInt n) with hsign | hsign
    · rw [Int.tdiv_eq_ediv_of_nonneg hsign] at hexact
      omega
    · have hneg : (toInt n).tdiv 100 ≤ 0 := by
        rw [← Int.neg_nonneg, ← Int.neg_tdiv]
        exact Int.tdiv_nonneg (by omega) (by decide)
      omega
  · intro hsmall
    rw [toInt_eq (by omega) hsmall, Int.tdiv_eq_ediv_of_nonneg hn]

/-- The bound for the product is a bound for the period. -/
theorem mul_lt_iff {duty period : Int} (hduty : 0 ≤ duty) :
    duty * period < 2147483648 ↔ duty = 0 ∨ period ≤ 2147483647 / duty := by
  rcases Int.lt_or_eq_of_le hduty with hpos | hzero
  · rw [Int.le_ediv_iff_mul_le hpos, Int.mul_comm period duty]
    omega
  · rw [← hzero, Int.zero_mul]
    exact iff_of_true (by decide) (Or.inl rfl)

/-- The hundredth of a part of the period in percent is no longer than the period. -/
theorem ediv_le_period {duty period : Int} (hperiod : 0 ≤ period) (hduty : duty ≤ 100) :
    duty * period / 100 ≤ period := by
  have hle : duty * period ≤ 100 * period := Int.mul_le_mul_of_nonneg_right hduty hperiod
  omega

/-- For each period that is not negative and each duty cycle in percent. -/
theorem dutyCycleExact_iff (request : PwmRequest) (hperiod : 0 ≤ request.period)
    (hlower : 0 ≤ request.duty_cycle) (hupper : request.duty_cycle ≤ 100) :
    request.DutyCycleExact ↔
      request.duty_cycle = 0 ∨ request.period ≤ 2147483647 / request.duty_cycle := by
  have hproduct : 0 ≤ request.duty_cycle * request.period := Int.mul_nonneg hlower hperiod
  rw [← mul_lt_iff hlower]
  constructor
  · intro hexact
    -- any exported pin shows the value
    obtain ⟨pin, hpin, hvalue, -⟩ :=
      hexact.written (fun _ => some ⟨0, 0, 0⟩)
        ⟨.written, true, ⟨0, 0, 0⟩, .written, .written, .written, .written⟩ rfl rfl
    rw [setPwmDutyCycle_lands rfl rfl] at hpin
    obtain rfl := Option.some.inj hpin
    exact (tdiv_toInt_eq_iff hproduct).mp hvalue
  · intro hsmall
    have htime : request.dutyCycleTime = request.duty_cycle * request.period / 100 :=
      (tdiv_toInt_eq_iff hproduct).mpr hsmall
    refine ⟨⟨by omega, by omega⟩, fun sysfs answers hexported hlands => ?_⟩
    obtain ⟨files, hfiles⟩ := Option.isSome_iff_exists.mp hexported
    refine ⟨_, setPwmDutyCycle_lands hfiles hlands, htime, ?_, ?_⟩
    · show 0 ≤ request.dutyCycleTime
      rw [htime]
      exact Int.ediv_nonneg hproduct (by decide)
    · show request.dutyCycleTime ≤ request.period
      rw [htime]
      exact ediv_le_period hperiod hupper

/-- Half of a period of 20 milliseconds. -/
theorem dutyCycleExact_half :
    (⟨.setDutyCycle 0 (some 50), 0, 50, 20000000, false⟩ : PwmRequest).DutyCycleExact :=
  (dutyCycleExact_iff _ (by decide) (by decide) (by decide)).mpr (Or.inr (by decide))

/-- The whole of a period of 30 milliseconds is written as a negative number. -/
theorem dutyCycle_negative :
    ¬ (⟨.setDutyCycle 0 (some 100), 0, 100, 30000000, false⟩ : PwmRequest).DutyCycleExact ∧
      ∀ sysfs answers, (sysfs 0).isSome → answers.duty_cycle.lands = true →
        ∃ pin ∈ (setPwmDutyCycle sysfs ⟨.setDutyCycle 0 (some 100), 0, 100, 30000000, false⟩
          answers).1 0, pin.duty_cycle = -12949672 := by
  constructor
  · intro hexact
    exact absurd ((dutyCycleExact_iff _ (by decide) (by decide) (by decide)).mp hexact) (by decide)
  · intro sysfs answers hexported hlands
    obtain ⟨files, hfiles⟩ := Option.isSome_iff_exists.mp hexported
    exact ⟨_, setPwmDutyCycle_lands hfiles hlands, rfl⟩

end PwmRequest

end IotJs
