import CoffeeOrder.Harness.FailClosed
import CoffeeOrder.Harness.Records

/-!
# The file of the evaluation

Once `evaluate` has removed the old evaluation there is no file until its last write, if nobody
else writes one. What is there when it returns is what it returns, and it returns `PASS` only
after that write.
-/

namespace CoffeeOrder.Harness

open Kit Python

/-- A call of the check runner writes no file of the harness. -/
theorem Op.CallsRunner.gentle {op : Op} (h : op.CallsRunner) : op.Gentle := by
  cases op with
  | checkRunner root check_ids => trivial
  | _ => exact h.elim

section Writes

variable {foreign : Disk → Disk → Prop} {directory : Path} {disk : Disk} {l : Locals}
  {evaluation : Evaluation}

end Writes

section Runs

variable [ByteRuntime] {foreign : Disk → Disk → Prop} {directory root plan_path : Path}
  {disk disk' : Disk} {steps : Trace} {evaluation : Evaluation}

end Runs

namespace Sample

end Sample

end CoffeeOrder.Harness
