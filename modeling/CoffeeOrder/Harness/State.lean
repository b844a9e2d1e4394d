import CoffeeOrder.Kit.Checked
import CoffeeOrder.Python.Json
import Mathlib.Data.List.MinMax

/-!
# States, violations and check results

What `agent-harness.py` reports: the result of each check, and the state that a list
of results adds up to.
-/

namespace CoffeeOrder.Harness

open Kit Python

/-- `State`. -/
inductive State
  | PASS
  | FAIL
  | BLOCKED
  | REPLAN_REQUIRED
  deriving DecidableEq

/-- `State.name`. -/
def State.name : State → Str
  | .PASS => "PASS"
  | .FAIL => "FAIL"
  | .BLOCKED => "BLOCKED"
  | .REPLAN_REQUIRED => "REPLAN_REQUIRED"

/-- `STATE_PRIORITY`. -/
def State.priority : State → ℕ
  | .PASS => 0
  | .BLOCKED => 1
  | .FAIL => 2
  | .REPLAN_REQUIRED => 3

/-- A `HarnessViolation`, or any other exception. -/
inductive Failure
  | HarnessViolation (state : State) (check_id reason : Str)
  | raised (e : Exc)
  deriving DecidableEq

/-- Go on with a value, or raise what was raised. -/
def orRaise {α : Type} (x : Except Exc α) : Except Failure α := x.mapError .raised

/-- A violation in other terms; other exceptions stay. -/
def Failure.restate (terms : State → Str → Str → Failure) : Failure → Failure
  | .HarnessViolation state check_id reason => terms state check_id reason
  | .raised e => .raised e

/-- The failure is not a violation that claims to pass. -/
def Failure.Rejects : Failure → Prop
  | .HarnessViolation state _ _ => state ≠ .PASS
  | .raised _ => True

/-- `CheckResult`. -/
structure CheckResult where
  check_id : Str
  state : State
  reason : Str
  command : List Str := []
  exit_code : Option ℤ := none
  duration_ms : Option ℤ := none
  deriving DecidableEq

/-- `aggregate_state`. -/
def aggregateState (checks : List CheckResult) : State :=
  ((checks.map (·.state)).argmax State.priority).getD .PASS

/-- The checks add up to `PASS` only if each of them passed. -/
theorem aggregateState_eq_pass {checks : List CheckResult} :
    aggregateState checks = .PASS ↔ ∀ check ∈ checks, check.state = .PASS := by
  rw [aggregateState]
  cases hmax : (checks.map (·.state)).argmax State.priority with
  | none => simp [List.map_eq_nil_iff.mp (List.argmax_eq_none.mp hmax)]
  | some top =>
    have hle : ∀ check ∈ checks, check.state.priority ≤ top.priority := fun check hcheck =>
      List.le_of_mem_argmax (List.mem_map_of_mem hcheck) hmax
    constructor
    · rintro rfl check hcheck
      have hzero := hle check hcheck
      revert hzero
      cases check.state <;> simp [State.priority]
    · intro hpass
      obtain ⟨check, hcheck, rfl⟩ := List.mem_map.mp (List.argmax_mem hmax)
      exact hpass check hcheck

/-- The checks add up to `BLOCKED` if one is blocked and none is worse. -/
theorem aggregateState_eq_blocked {checks : List CheckResult} :
    aggregateState checks = .BLOCKED ↔ (∃ check ∈ checks, check.state = .BLOCKED) ∧
      ∀ check ∈ checks, check.state = .PASS ∨ check.state = .BLOCKED := by
  rw [aggregateState]
  cases hmax : (checks.map (·.state)).argmax State.priority with
  | none => simp [List.map_eq_nil_iff.mp (List.argmax_eq_none.mp hmax)]
  | some top =>
    have hle : ∀ check ∈ checks, check.state.priority ≤ top.priority := fun check hcheck =>
      List.le_of_mem_argmax (List.mem_map_of_mem hcheck) hmax
    obtain ⟨worst, hworst, htop⟩ := List.mem_map.mp (List.argmax_mem hmax)
    constructor
    · rintro rfl
      refine ⟨⟨worst, hworst, htop⟩, fun check hcheck => ?_⟩
      have hpriority := hle check hcheck
      revert hpriority
      cases check.state <;> simp [State.priority]
    · rintro ⟨⟨blocked, hblocked, hstate⟩, hall⟩
      have hpriority := hle blocked hblocked
      rw [hstate] at hpriority
      obtain hpass | hbad := hall worst hworst
      · rw [← htop, hpass] at hpriority
        exact absurd hpriority (by decide)
      · rw [Option.getD_some, ← htop, hbad]

/-- A value that is given back is the one given. -/
theorem orRaise_eq_ok {α : Type} {x : Except Exc α} {a : α} : orRaise x = .ok a ↔ x = .ok a :=
  Checked.mapError_eq_ok

/-- A violation with another state than `PASS` rejects. -/
theorem Failure.rejects_of_ne {state : State} {check_id reason : Str}
    (h : state ≠ .PASS := by decide) : (HarnessViolation state check_id reason).Rejects := h

/-- The failure is a violation. -/
def Failure.IsViolation : Failure → Prop
  | .HarnessViolation _ _ _ => True
  | .raised _ => False

/-- All violations with another state than `PASS` are among the errors `P`. -/
def Refused (P : Failure → Prop) : Prop :=
  ∀ {state check_id reason}, state ≠ State.PASS → P (.HarnessViolation state check_id reason)

/-- A refusal does not claim to pass. -/
theorem refused_rejects : Refused Failure.Rejects := fun h => h

/-- A violation in other terms is one of those. -/
theorem Failure.restate_violation {P : Failure → Prop} {terms : State → Str → Str → Failure}
    (h : ∀ state check_id reason, P (terms state check_id reason)) (e : Failure)
    (he : e.IsViolation) : P (e.restate terms) := by
  cases e with
  | HarnessViolation state check_id reason => exact h state check_id reason
  | raised e => exact absurd he id

/-- A violation in other terms does not claim to pass. -/
theorem Failure.restate_rejects {terms : State → Str → Str → Failure}
    (h : ∀ state check_id reason, (terms state check_id reason).Rejects) (e : Failure) :
    (e.restate terms).Rejects := by
  cases e with
  | HarnessViolation state check_id reason => exact h state check_id reason
  | raised e => trivial

/-- An exception is no violation. -/
theorem orRaise_rejects {α : Type} (x : Except Exc α) : ErrorsIn Failure.Rejects (orRaise x) := by
  cases x with
  | ok a => exact .ok
  | error e => exact ErrorsIn.error.mpr trivial

end CoffeeOrder.Harness
