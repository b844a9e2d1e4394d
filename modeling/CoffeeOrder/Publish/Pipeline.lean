import CoffeeOrder.Harness.CommandLine
import CoffeeOrder.Publish.TraceSafety

/-!
# Publication behind the harness

`agent-publish.py` starts `agent-harness.py evaluate` as a process and goes by its exit status. Here
the two scripts are put together: what the harness has verified is what is published.
-/

namespace CoffeeOrder.Publish

open Kit Python

section Gate

variable [ByteRuntime]

/-- What `argparse` makes of the arguments that the script passes: a plan that starts with a hyphen
may be taken for an option. -/
def Parses (plan_path : Str) (arguments : Harness.Arguments) : Prop :=
  plan_path.startsWith "-" = false → arguments = .parsed "evaluate" (.ofStr plan_path)

/-- A process of the harness that has ended by itself. -/
structure HarnessProcess (plan_path : Str) where
  arguments : Harness.Arguments
  parses : Parses plan_path arguments
  terminal : Harness.Terminal
  steps : Harness.Trace
  report : Harness.Report
  replay : ((Harness.main arguments terminal).handle Harness.builtin).replay steps =
    some (.ok report)

/-- The exit status of `evaluate` is that of the harness, unless the process was killed. -/
def StartsHarness : (op : Op) → op.Answer → Prop
  | .run (.evaluate plan_path), .ok result => result.returncode ≠ 0 ∨
      ∃ process : HarnessProcess plan_path, result.returncode = process.report.status
  | _, _ => True

/-- The command changes the remote repository. -/
def Command.Publishes : Command → Prop
  | .push _ | .prCreate _ _ _ _ | .prMerge _ => True
  | _ => False

/-- What lies behind such a command: it was verified before, by a process of the harness that has
run every check of the plan. -/
structure Backed (plan_path : Str) (before_ : Trace) where
  v : Verification
  valid : v.Valid
  begins : v.trace plan_path <+: before_
  process : HarnessProcess plan_path
  exited : v.evaluateResult.returncode = process.report.status
  run : Harness.VerifiedRun (.ofStr plan_path) process.steps

variable {plan_path : Str} {merge : Bool}

/-- Such commands are issued only after the verification. -/
theorem Allowed.begins {before_ : Trace} {command : Command}
    (h : Allowed plan_path merge before_ (.run command)) (hpublishes : command.Publishes) :
    AllSucceeded before_ ∧ ∃ v : Verification, v.Valid ∧ v.trace plan_path <+: before_ := by
  obtain ⟨hsucceeded, hallowed⟩ := h
  refine ⟨hsucceeded, ?_⟩
  cases command with
  | push branch =>
    obtain ⟨v, hv, -, rfl⟩ := hallowed
    exact ⟨v, hv, List.prefix_rfl⟩
  | prCreate base branch title body =>
    obtain ⟨v, _, _, hv, -, -, -, rfl⟩ := hallowed
    exact ⟨v, hv, List.prefix_append _ _⟩
  | prMerge number =>
    obtain ⟨-, v, _, _, _, _, hv, -, rfl⟩ := hallowed
    refine ⟨v, hv, ?_⟩
    rw [List.append_assoc, List.append_assoc]
    exact List.prefix_append _ _
  | _ => exact hpublishes.elim

/-- **Publication.** In every run of `finalize`, also in one that is cut short, a branch is pushed,
and a pull request is created or merged, only after a process of the harness has verified the
plan: the candidate was read and accepted, every required command has exited with zero after that,
and the same candidate was read again. -/
theorem publication_backed {title : Option Str} {trace : Trace}
    (hoption : plan_path.startsWith "-" = false)
    (hbegins : (finalize plan_path merge title).Begins trace)
    (hharness : ∀ step ∈ trace, StartsHarness step.op step.answer) :
    ∀ before_ command answer after_, trace = before_ ++ ⟨.run command, answer⟩ :: after_ →
      command.Publishes → Nonempty (Backed plan_path before_) := by
  rintro before_ command answer after_ rfl hpublishes
  have hallowed : Allowed plan_path merge before_ (.run command) :=
    (finalize_safe title).begins hbegins before_ _ after_ rfl
  obtain ⟨hsucceeded, v, hv, hprefix⟩ := Allowed.begins hallowed hpublishes
  have hmem : ran (.evaluate plan_path) v.evaluateResult ∈ before_ :=
    hprefix.subset (by simp [Verification.trace])
  have hzero : v.evaluateResult.returncode = 0 := hsucceeded _ hmem
  obtain hkilled | ⟨process, hstatus⟩ := hharness _ (List.mem_append_left _ hmem)
  · exact absurd hzero hkilled
  have hreport : process.report.status = 0 := Int.natCast_eq_zero.mp (hstatus.symm.trans hzero)
  have hreplay := process.replay
  rw [process.parses hoption] at hreplay
  have hverified := Harness.parsed_verified hreplay hreport
  obtain ⟨hprepare, -⟩ | ⟨-, ⟨run⟩⟩ := hverified
  · exact absurd hprepare (by decide)
  · exact ⟨⟨v, hv, hprefix, process, hstatus, run⟩⟩

end Gate

namespace Sample

/-- The text of the plan. -/
def planText : Str := Harness.Sample.textOf Harness.Sample.rawPlan

/-- The steps of a publication whose push is refused. -/
def refusedPush : Trace :=
  let prints (command : Command) (stdout : Str) : Step Op.Answer := ran command ⟨0, stdout, []⟩
  [⟨.resolvePlan, .ok "harness/plans/7.json"⟩, ⟨.readPlan, .ok planText⟩,
    prints .branchShowCurrent "docs/7-guide\n",
    prints .revParseHead "3333333333333333333333333333333333333333\n",
    prints .statusPorcelain "", prints (.evaluate "harness/plans/7.json") "",
    ⟨.readEvidence, .ok ("\x7b\"state\":\"PASS\",\"candidateHeadSha\":" ++
      ("\"3333333333333333333333333333333333333333\"\x7d" : Str))⟩,
    ran (.push "docs/7-guide") ⟨1, [], "rejected"⟩]

/-- A run of `finalize` begins with these steps. -/
theorem refusedPush_begins :
    (@finalize Harness.Sample.shellRuntime.toRuntime "harness/plans/7.json" false none).Begins
      refusedPush :=
  Script.begins_of_isSome (by decide +kernel)

end Sample

/-- The candidate that the harness verifies may be pushed. -/
theorem publication_backed_refused :
    ∃ before_ command answer, Sample.refusedPush = before_ ++ [⟨.run command, answer⟩] ∧
      command = .push "docs/7-guide" ∧
      Nonempty (@Backed Harness.Sample.shellRuntime "harness/plans/7.json" before_) := by
  let _ := Harness.Sample.shellRuntime
  obtain ⟨report, hreplay, hzero⟩ := Harness.Sample.verification_replay
  have hprocess : ∃ process : HarnessProcess "harness/plans/7.json",
      ((0 : ℤ) = process.report.status) :=
    ⟨⟨_, fun _ => rfl, _, _, report, hreplay⟩, (congrArg Int.ofNat hzero).symm⟩
  have hharness : ∀ step ∈ Sample.refusedPush, StartsHarness step.op step.answer := by
    simp only [Sample.refusedPush, List.forall_mem_cons]
    exact ⟨trivial, trivial, trivial, trivial, trivial, .inr hprocess, trivial, trivial, by simp⟩
  have hne : Sample.refusedPush ≠ [] := by simp [Sample.refusedPush]
  exact ⟨_, _, _, (List.dropLast_append_getLast hne).symm, rfl,
    publication_backed (by decide) Sample.refusedPush_begins hharness _ _ _ [] rfl trivial⟩

end CoffeeOrder.Publish
