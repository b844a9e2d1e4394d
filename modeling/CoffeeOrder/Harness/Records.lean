import CoffeeOrder.Harness.Loaders
import CoffeeOrder.Harness.PassedRuns
import CoffeeOrder.Harness.World

/-!
# What is left of the evidence

The two evidence files while `evaluate` runs, also if the process is killed, and when it has
ended. The file of the evaluation is the old one, missing or that of the run; the lock is missing
or the one that was there.
-/

namespace CoffeeOrder.Harness

open Kit Python

section Evaluation

variable [ByteRuntime] {w : World} {plan_path : Path} {start disk : Disk} {l : Locals} {α β : Type}

/-- Where the plan lock is. -/
def lockPath (resolved_root : Path) : Path := (evidenceDirectory resolved_root).child lockName

/-- Where the evaluation is. -/
def evaluationPath (resolved_root : Path) : Path :=
  (evidenceDirectory resolved_root).child evaluationName

/-- The file of the lock spells this lock. -/
def Recorded (resolved_root : Path) (disk : Disk) (lock : PlanLock) : Prop :=
  ∃ content, disk (lockPath resolved_root) = some (.file content) ∧ parsePlanLock content = .ok lock

/-- A lock that is there was there before, if nobody has written it. -/
theorem Recorded.of_intact {lock : PlanLock} (h : Recorded w.resolved_root disk lock)
    (hintact : Intact w.resolved_root start disk) : Recorded w.resolved_root start lock := by
  obtain ⟨content, hcontent, hparsed⟩ := h
  obtain hsame | hgone := hintact lockName (by decide)
  · exact ⟨content, hsame.symm.trans hcontent, hparsed⟩
  · cases hgone.symm.trans hcontent

/-- A lock that is loaded is the one on the disk. -/
theorem loadPlanLock_ensures (hregular : disk (lockPath w.resolved_root) = none ∨
      ∃ content, disk (lockPath w.resolved_root) = some (.file content)) :
    (loadPlanLock (lockPath w.resolved_root)).Ensures (w.Happens)
      (Script.returning fun _ => Recorded w.resolved_root disk) disk := by
  refine Script.ensures_ask fun answer disk' hE => ?_
  cases answer with
  | error error => exact Script.keeps_ite (fun _ => Script.returning_error) fun _ =>
      Script.returning_error
  | ok raw =>
    obtain ⟨hthere, hsame⟩ := hE.observes
    obtain ⟨content, hcontent⟩ := hregular.resolve_left hthere
    obtain rfl := hsame content hcontent
    exact Script.keeps_ofExcept.mpr fun lock hlock => ⟨raw, hcontent, hlock⟩

omit [ByteRuntime] in
/-- A sound script writes no file. -/
theorem Sound.gentle {p : HarnessM α} (hp : Sound p) : p.Within Op.Gentle fun _ => True :=
  (hp.imp fun _ => Op.Quiet.gentle).mono fun _ _ => trivial

omit [ByteRuntime] in
/-- What asks nothing writes no file. -/
theorem gentle_lift (x : Except Failure α) :
    (liftM x : HarnessM α).Within Op.Gentle fun _ => True :=
  Script.Within.ofExcept fun _ _ => trivial

/-- The local variables at the end of the body of `try`. -/
def Locals.after : Except (Failure × Locals) Locals → Locals
  | .ok l => l
  | .error error => error.2

/-- No evidence has been written, and a lock among the local variables is that of the file. -/
def Remembers (resolved_root : Path) (start disk : Disk) (l : Locals) : Prop :=
  Intact resolved_root start disk ∧ ∀ lock, l.lock = some lock → Recorded resolved_root start lock

omit [ByteRuntime] in
/-- Gentle scripts leave the evidence as it is, or delete it. -/
theorem keeps_intact {ε : Type} {P : ε → Prop} {p : Script ε Op.Answer α}
    (hp : p.Within Op.Gentle P) (h : Intact w.resolved_root start disk) :
    p.Keeps (w.Happens) (Intact w.resolved_root start)
      (fun disk r => Intact w.resolved_root start disk ∧ ErrorsIn P r) disk :=
  hp.keeps (fun _ _ _ _ hop hE hs => hs.trans (gentle_intact hop hE.effect)) h

/-- The body goes on with the same local variables. -/
theorem during_bind_keeps {p : HarnessM α} {f : α → Script (Failure × Locals) Op.Answer Locals}
    {Post : Disk → α → Prop} (hp : p.Within Op.Gentle fun _ => True)
    (hensures : p.Ensures (w.Happens) (Script.returning Post) disk)
    (h : Remembers w.resolved_root start disk l)
    (hf : ∀ a disk, Remembers w.resolved_root start disk l → Post disk a →
      (f a).Keeps (w.Happens) (Intact w.resolved_root start)
        (fun disk r => Remembers w.resolved_root start disk (Locals.after r)) disk) :
    (l.during p >>= f).Keeps (w.Happens) (Intact w.resolved_root start)
      (fun disk r => Remembers w.resolved_root start disk (Locals.after r)) disk := by
  refine Script.keeps_bind.mpr (Script.keeps_tryCatch.mpr ?_)
  refine ((keeps_intact hp h.1).and_ensures hensures).mono fun disk r hr => ?_
  obtain ⟨⟨hintact, -⟩, hpost⟩ := hr
  cases r with
  | ok a => exact hf a disk ⟨hintact, h.2⟩ (hpost a rfl)
  | error failure => exact ⟨hintact, h.2⟩

/-- The same for a script of whose result nothing is used. -/
theorem during_bind_gentle {p : HarnessM α} {f : α → Script (Failure × Locals) Op.Answer Locals}
    (hp : p.Within Op.Gentle fun _ => True) (h : Remembers w.resolved_root start disk l)
    (hf : ∀ a disk, Remembers w.resolved_root start disk l →
      (f a).Keeps (w.Happens) (Intact w.resolved_root start)
        (fun disk r => Remembers w.resolved_root start disk (Locals.after r)) disk) :
    (l.during p >>= f).Keeps (w.Happens) (Intact w.resolved_root start)
      (fun disk r => Remembers w.resolved_root start disk (Locals.after r)) disk :=
  during_bind_keeps hp
    ((Script.Meets.anything p).ensures (A := fun _ _ => True) fun _ _ _ _ _ => trivial) h
    fun a disk h _ => hf a disk h

/-- The body writes no evidence, and remembers no lock but that of the file. -/
theorem evaluateBody_keeps (h : Intact w.resolved_root start disk) :
    (evaluateBody w.resolved_root plan_path).Keeps (w.Happens)
      (Intact w.resolved_root start)
      (fun disk r => Remembers w.resolved_root start disk (Locals.after r)) disk := by
  have hnothing : Remembers w.resolved_root start disk {} := ⟨h, nofun⟩
  refine during_bind_gentle (sound_validateEvaluateCleanState _ _).gentle hnothing ?_
  intro _ disk hnothing
  refine during_bind_gentle (sound_loadRiskPolicy _).gentle hnothing ?_
  intro policy disk hnothing
  refine during_bind_gentle (sound_loadPlan _ _ _).gentle hnothing ?_
  intro plan disk hnothing
  refine during_bind_gentle (sound_resolveLocalGitContext _ _).gentle
    (l := { plan := some plan }) hnothing ?_
  intro context disk hnothing
  refine during_bind_keeps (sound_safeEvidencePath _ _).gentle
    (l := { plan := some plan, context := some context })
    (safeEvidencePath_ensures lockName (.inr rfl)) hnothing ?_
  rintro _ located hlocated ⟨rfl, hregular⟩
  refine during_bind_keeps (sound_loadPlanLock _).gentle
    (l := { plan := some plan, context := some context }) (loadPlanLock_ensures hregular)
    hlocated ?_
  intro lock disk hloaded hlock
  have hrecorded : Recorded w.resolved_root start lock := hlock.of_intact hlocated.1
  -- nothing that follows changes the lock among the local variables
  have hlocked {l : Locals} {disk : Disk} (hl : l.lock = some lock)
      (h : Intact w.resolved_root start disk) : Remembers w.resolved_root start disk l := by
    refine ⟨h, fun lock' hlock' => ?_⟩
    obtain rfl := Option.some.inj (hl.symm.trans hlock')
    exact hrecorded
  refine during_bind_gentle (gentle_lift _) (hlocked rfl hloaded.1) ?_
  intro _ disk h
  refine during_bind_gentle (sound_collectLocalChangedPaths _ _).gentle
    (hlocked rfl h.1) ?_
  intro changed_paths disk h
  refine during_bind_gentle (sound_computeDiffHash _ _ _).gentle (hlocked rfl h.1) ?_
  intro diff_hash disk h
  refine during_bind_gentle (sound_validateExistingMigrationsImmutable _ _ _).gentle
    (hlocked rfl h.1) ?_
  intro _ disk h
  refine during_bind_gentle (gentle_lift _) (hlocked rfl h.1) ?_
  intro _ disk h
  refine during_bind_gentle (gentle_lift _) (hlocked rfl h.1) ?_
  intro _ disk h
  refine during_bind_gentle (gentle_lift _) (hlocked rfl h.1) ?_
  intro _ disk h
  refine during_bind_gentle (gentle_lift _) (hlocked rfl h.1) ?_
  intro _ disk h
  refine during_bind_gentle (gentle_lift _) (hlocked rfl h.1) ?_
  intro requested_ids disk h
  have hcall : (callRunner w.resolved_root requested_ids).Within Op.Gentle fun _ => True :=
    ⟨trivial, fun _ => gentle_lift _⟩
  refine during_bind_gentle hcall (hlocked rfl h.1) ?_
  intro raw_checks disk h
  refine during_bind_gentle (gentle_lift _) (hlocked rfl h.1) ?_
  intro found disk h
  exact hlocked rfl h.1

/-- After the second `try`, a lock among the local variables is still that of the file. -/
theorem runChecks_keeps (h : Intact w.resolved_root start disk) :
    (runChecks w.resolved_root plan_path).Keeps (w.Happens)
      (Intact w.resolved_root start)
      (fun disk r => ∃ l, r = .ok l ∧ Remembers w.resolved_root start disk l) disk := by
  refine Script.keeps_bind.mpr (Script.keeps_attempt.mpr ?_)
  refine (evaluateBody_keeps h).mono fun disk r hr => ?_
  cases r with
  | ok l => exact ⟨l, rfl, hr⟩
  | error error => exact ⟨_, rfl, hr⟩

/-- The check of freshness leaves the evidence as it is. -/
theorem recheck_keeps (h : Intact w.resolved_root start disk) :
    (recheck w.resolved_root plan_path l).Keeps (w.Happens)
      (Intact w.resolved_root start) (fun disk r => ∃ l' ending, r = .ok (l', ending) ∧
        l'.lock = l.lock ∧ Intact w.resolved_root start disk) disk := by
  unfold recheck
  split
  · refine Script.keeps_bind.mpr (Script.keeps_bind.mpr (Script.keeps_attempt.mpr ?_))
    have hread := keeps_intact
      (sound_currentIdentity w.resolved_root plan_path).gentle h
    refine hread.mono fun disk r hr => ?_
    cases r with
    | ok current => exact ⟨_, _, rfl, rfl, hr.1⟩
    | error failure => exact ⟨_, _, rfl, rfl, hr.1⟩
  · exact ⟨l, none, rfl, rfl, h⟩

/-- What forbids the write is among the checks. -/
theorem decideWrite_keeps {E : (op : Op) → op.Answer → Disk → Disk → Prop} {I : Disk → Prop}
    (hI : ∀ op answer disk disk', op.Quiet → E op answer disk disk' → I disk → I disk')
    {resolved_root evaluation_path : Path} {restore : Bool} (h : I disk) :
    (decideWrite resolved_root evaluation_path l restore).Keeps E I
      (fun disk r => ∃ l' can_write, r = .ok (l', can_write) ∧ l'.lock = l.lock ∧
        (can_write = false → ¬l'.Passes) ∧ I disk) disk := by
  refine Script.keeps_bind.mpr (Script.keeps_attempt.mpr ?_)
  refine ((sound_recheckPaths resolved_root evaluation_path restore).keeps hI h).mono
    fun disk r hr => ?_
  obtain ⟨hdisk, hrejects⟩ := hr
  cases r with
  | ok _ => exact ⟨l, true, rfl, rfl, nofun, hdisk⟩
  | error failure =>
    cases failure with
    | HarnessViolation state check_id reason =>
      refine ⟨_, false, rfl, rfl, fun _ hpasses => ?_, hdisk⟩
      exact hrejects _ rfl (passes_append.1 hpasses).2
    | raised error =>
      refine ⟨_, false, rfl, rfl, fun _ hpasses => ?_, hdisk⟩
      cases (passes_append.1 hpasses).2

omit [ByteRuntime] in
/-- Reading keeps the evidence intact. -/
theorem Intact.quiet (op : Op) (answer : op.Answer) (disk disk' : Disk) (hop : op.Quiet)
    (hE : w.Happens op answer disk disk') (h : Intact w.resolved_root start disk) :
    Intact w.resolved_root start disk' :=
  h.trans (gentle_intact hop.gentle hE.effect)

end Evaluation

section Recording

variable [ByteRuntime] {w : World} {start disk disk' : Disk} {l : Locals}

/-- The file holds the evaluation. -/
def HoldsEvaluation (disk : Disk) (path : Path) (evaluation : Evaluation) : Prop :=
  ∃ content, jsonBytes evaluation.toDict = .ok content ∧ disk path = some (.file content)

/-- Nothing has been written but this lock. -/
structure Relocked (resolved_root : Path) (start : Disk) (lock : Option PlanLock) (disk : Disk) :
    Prop where
  evaluation : Spared (evaluationPath resolved_root) start disk
  lock : Spared (lockPath resolved_root) start disk ∨
    ∃ found, lock = some found ∧ HoldsLock disk (lockPath resolved_root) found

/-- Nothing has been written but a lock that was there before. -/
def Relocking (resolved_root : Path) (start disk : Disk) : Prop :=
  ∃ lock, (∀ found, lock = some found → Recorded resolved_root start found) ∧
    Relocked resolved_root start lock disk

variable {lock : Option PlanLock}

omit [ByteRuntime] in
/-- Without a write no lock has been written. -/
theorem Relocked.of_intact (h : Intact w.resolved_root start disk) :
    Relocked w.resolved_root start lock disk :=
  ⟨h evaluationName (by decide), .inl (h lockName (by decide))⟩

/-- Nor has one that was there before. -/
theorem Relocking.of_intact (h : Intact w.resolved_root start disk) :
    Relocking w.resolved_root start disk := ⟨none, nofun, .of_intact h⟩

omit [ByteRuntime] in
/-- What holds of the lock depends on the evidence only. -/
theorem relocked_looks :
    LooksAtEvidence w.resolved_root (Relocked w.resolved_root start lock) := by
  intro disk disk' hsame h
  have hevaluation : disk' (evaluationPath w.resolved_root) =
      disk (evaluationPath w.resolved_root) :=
    hsame evaluationName (by decide)
  have hlock : disk' (lockPath w.resolved_root) = disk (lockPath w.resolved_root) :=
    hsame lockName (by decide)
  refine ⟨?_, ?_⟩
  · rw [Spared, hevaluation]
    exact h.evaluation
  · simpa only [Spared, HoldsLock, hlock] using h.lock

omit [ByteRuntime] in
/-- The write of the evaluation comes last. -/
theorem writeEvaluation_keeps (payload : Json) (h : Relocked w.resolved_root start lock disk) :
    (writeJsonAtomic (evaluationPath w.resolved_root) payload).Keeps w.Happens
      (Relocked w.resolved_root start lock)
      (fun disk' r => match r with
        | .ok _ => (∃ content, jsonBytes payload = .ok content ∧
              disk' (evaluationPath w.resolved_root) = some (.file content)) ∧
            disk' (lockPath w.resolved_root) = disk (lockPath w.resolved_root)
        | .error _ => Relocked w.resolved_root start lock disk') disk := by
  refine (writeJsonAtomic_keeps relocked_looks _ _ h).mono fun disk' r hr => ?_
  cases r with
  | error error => exact relocked_looks.replaced hr h
  | ok _ =>
    obtain ⟨content, hcontent, rfl⟩ := hr
    have hne : lockPath w.resolved_root ≠ evaluationPath w.resolved_root := fun heq =>
      absurd (Path.child_inj.mp heq).2 (by decide)
    exact ⟨⟨content, hcontent, Disk.set_self ..⟩, Disk.set_of_ne hne _⟩

omit [ByteRuntime] in
/-- Without a lock only the evaluation is written. -/
theorem writeEvidence_none (resolved_root evaluation_path : Path) (evaluation : Evaluation) :
    writeEvidence resolved_root evaluation_path none evaluation =
      writeJsonAtomic evaluation_path evaluation.toDict := by
  unfold writeEvidence
  dsimp only

omit [ByteRuntime] in
/-- A lock is written back before the evaluation. -/
theorem writeEvidence_some (resolved_root evaluation_path : Path) (lock : PlanLock)
    (evaluation : Evaluation) :
    writeEvidence resolved_root evaluation_path (some lock) evaluation = (do
      writeJsonAtomic (lockPath resolved_root) (planLockPayload lock)
      writeJsonAtomic evaluation_path evaluation.toDict) := by
  unfold writeEvidence lockPath
  dsimp only

/-- What the two last writes leave behind if they return. -/
structure Reported (resolved_root : Path) (start disk : Disk) (lock : Option PlanLock)
    (evaluation : Evaluation) : Prop where
  evaluation : HoldsEvaluation disk (evaluationPath resolved_root) evaluation
  unlocked : lock = none → Spared (lockPath resolved_root) start disk
  locked : ∀ found, lock = some found → HoldsLock disk (lockPath resolved_root) found

omit [ByteRuntime] in
/-- While the evidence is written, the lock stays what it was or is written back. -/
theorem writeEvidence_keeps {evaluation : Evaluation} (h : Intact w.resolved_root start disk) :
    (writeEvidence w.resolved_root (evaluationPath w.resolved_root) lock evaluation).Keeps w.Happens
      (Relocked w.resolved_root start lock)
      (fun disk' r => match r with
        | .ok _ => Reported w.resolved_root start disk' lock evaluation
        | .error _ => Relocked w.resolved_root start lock disk') disk := by
  cases lock with
  | none =>
    rw [writeEvidence_none]
    generalize hpayload : evaluation.toDict = payload
    refine (writeEvaluation_keeps payload (.of_intact h)).mono fun disk' r hr => ?_
    cases r with
    | error error => exact hr
    | ok _ =>
      obtain ⟨⟨content, hcontent, hholds⟩, hsame⟩ := hr
      refine ⟨⟨content, hpayload ▸ hcontent, hholds⟩, fun _ => ?_, fun found hfound => ?_⟩
      · rw [Spared, hsame]
        exact h lockName (by decide)
      · cases hfound
  | some lock =>
    rw [writeEvidence_some]
    generalize hpayload : evaluation.toDict = payload
    generalize hlocked : planLockPayload lock = locked
    have hstart : Relocked w.resolved_root start (some lock) disk := .of_intact h
    have hfirst := writeJsonAtomic_keeps (w := w) relocked_looks (lockPath w.resolved_root) locked
      hstart
    refine hfirst.bind (fun disk' e hr => relocked_looks.replaced hr hstart) fun disk' _ hr => ?_
    obtain ⟨content, hcontent, rfl⟩ := hr
    have hholds : HoldsLock (disk.set (lockPath w.resolved_root) (some (.file content)))
        (lockPath w.resolved_root) lock := ⟨content, hlocked ▸ hcontent, Disk.set_self ..⟩
    have hne : evaluationPath w.resolved_root ≠ lockPath w.resolved_root := fun heq =>
      absurd (Path.child_inj.mp heq).2 (by decide)
    have hrelocked : Relocked w.resolved_root start (some lock)
        (disk.set (lockPath w.resolved_root) (some (.file content))) := by
      refine ⟨?_, .inr ⟨lock, rfl, hholds⟩⟩
      rw [Spared, Disk.set_of_ne hne]
      exact h evaluationName (by decide)
    refine (writeEvaluation_keeps payload hrelocked).mono fun disk'' r hr => ?_
    cases r with
    | error error => exact hr
    | ok _ =>
      obtain ⟨⟨content', hcontent', hholds'⟩, hsame⟩ := hr
      refine ⟨⟨content', hpayload ▸ hcontent', hholds'⟩, fun hnone => ?_, fun found hfound => ?_⟩
      · cases hnone
      · obtain rfl := Option.some.inj hfound
        exact ⟨content, hlocked ▸ hcontent, hsame.trans (Disk.set_self ..)⟩

omit [ByteRuntime] in
/-- What the last step of `evaluate` leaves behind. -/
theorem record_keeps {plan_path : Str} {restore can_write : Bool}
    (hwrites : can_write = false → ¬l.Passes) (h : Intact w.resolved_root start disk) :
    (record w.resolved_root (evaluationPath w.resolved_root) plan_path l restore can_write).Keeps
      (w.Happens) (Relocked w.resolved_root start (if restore then l.lock else none))
      (fun disk r => ∃ evaluation, r = .ok evaluation ∧
        (Relocked w.resolved_root start (if restore then l.lock else none) disk ∧
            evaluation.state ≠ .PASS ∨
          Reported w.resolved_root start disk (if restore then l.lock else none)
            evaluation)) disk := by
  unfold record
  cases can_write with
  | false => exact ⟨_, rfl, .inl ⟨.of_intact h, fun hpass =>
      hwrites rfl (evaluationFromValues_state.1 hpass)⟩⟩
  | true =>
    refine Script.keeps_bind.mpr (Script.keeps_attempt.mpr ?_)
    refine (writeEvidence_keeps h).mono fun disk' r hr => ?_
    cases r with
    | ok _ => exact ⟨_, rfl, .inr hr⟩
    | error error =>
      refine ⟨_, rfl, .inl ⟨hr, fun hpass => ?_⟩⟩
      cases (passes_append.1 (evaluationFromValues_state.1 hpass)).2

end Recording

section Runs

variable [ByteRuntime] {w : World} {plan_path : Path} {start disk disk' : Disk} {steps : Trace}

/-- `evaluate` after the removal of the old evaluation. -/
def evaluateOpened (resolved_root evaluation_path plan_path : Path) : HarnessM Evaluation := do
  let l ← runChecks resolved_root plan_path
  let (l, ending) ← recheck resolved_root plan_path l
  let (l, restore) ← decideRestore l ending
  let (l, can_write) ← decideWrite resolved_root evaluation_path l restore
  record resolved_root evaluation_path plan_path.asPosix l restore can_write

/-- `evaluate` opens the evidence and goes on with its paths. -/
theorem evaluate_eq (root plan_path : Path) : evaluate root plan_path = (do
    match ← Script.attempt (openEvidence root) with
    | .error failure =>
      return evaluationFromValues plan_path.asPosix (Locals.append {} (failureCheck failure))
    | .ok (resolved_root, evaluation_path) =>
      evaluateOpened resolved_root evaluation_path plan_path) := rfl

/-- The removal finds the evidence where it has to be, and leaves no evaluation. -/
theorem openEvidence_ensures :
    (openEvidence w.root).Ensures w.Happens (Script.returning fun disk opened =>
      opened = (w.resolved_root, evaluationPath w.resolved_root) ∧
        disk (evaluationPath w.resolved_root) = none) disk := by
  have hroot := (strictRepositoryRoot_settles (w := w) (.inl rfl)).ensures (E := w.Happens)
    (s := disk) fun _ _ _ _ hE => hE.settles
  refine hroot.bind_returning ?_
  rintro disk _ rfl
  have hremoved : (removeStaleEvaluation w.resolved_root).Ensures w.Happens
      (Script.returning fun disk found => found = evaluationPath w.resolved_root ∧
        disk (evaluationPath w.resolved_root) = none) disk := by
    refine (safeEvidencePath_ensures evaluationName (.inr rfl)).bind_returning ?_
    rintro disk _ ⟨rfl, -⟩
    exact (removeStaleEvidence_ensures _ _).of_changes fun _ _ _ _ hE => hE.effect
  refine hremoved.bind_returning ?_
  rintro disk _ ⟨rfl, hnone⟩
  exact Script.returning_ok.mpr ⟨rfl, hnone⟩

/-- Opening the evidence removes the stale evaluation and leaves the rest. -/
theorem openEvidence_keeps (h : Intact w.resolved_root start disk) :
    (openEvidence w.root).Keeps w.Happens (Intact w.resolved_root start)
      (fun disk r => (Intact w.resolved_root start disk ∧ ErrorsIn Failure.Rejects r) ∧
        Script.returning (fun disk opened =>
          opened = (w.resolved_root, evaluationPath w.resolved_root) ∧
            disk (evaluationPath w.resolved_root) = none) disk r) disk :=
  (keeps_intact ((openEvidence_within w.root).imp fun _ => Op.Removing.gentle) h).and_ensures
    openEvidence_ensures

/-- What `evaluate` leaves behind: a lock that was there, and an evaluation that was there or the
one that it returns. -/
def Ended (resolved_root : Path) (start disk : Disk) : Except Failure Evaluation → Prop
  | .error _ => Relocking resolved_root start disk
  | .ok evaluation => Relocking resolved_root start disk ∧ evaluation.state ≠ .PASS ∨
      ∃ lock, (∀ found, lock = some found → Recorded resolved_root start found) ∧
        Reported resolved_root start disk lock evaluation

/-- The lock is spared, or it has been written again. -/
def Relocks (resolved_root : Path) (start disk : Disk) : Prop :=
  Spared (lockPath resolved_root) start disk ∨
    ∃ lock, Recorded resolved_root start lock ∧ HoldsLock disk (lockPath resolved_root) lock

/-- During a run the lock is spared, or has been written again. -/
theorem Relocking.lock (h : Relocking w.resolved_root start disk) :
    Relocks w.resolved_root start disk := by
  obtain ⟨_, hrecorded, hrelocked⟩ := h
  exact hrelocked.lock.imp_right fun ⟨found, hfound, hholds⟩ =>
    ⟨found, hrecorded found hfound, hholds⟩

/-- After a run the lock is spared, or has been written again. -/
theorem Ended.lock {r : Except Failure Evaluation} (h : Ended w.resolved_root start disk r) :
    Relocks w.resolved_root start disk := by
  cases r with
  | error failure => exact Relocking.lock h
  | ok evaluation =>
    obtain ⟨hrelocking, -⟩ | ⟨lock, hrecorded, hreported⟩ := h
    · exact hrelocking.lock
    · cases lock with
      | none => exact .inl (hreported.unlocked rfl)
      | some lock => exact .inr ⟨lock, hrecorded lock rfl, hreported.locked lock rfl⟩

omit [ByteRuntime] in
/-- Nothing is asked, and the lock that is restored is the one that was loaded. -/
theorem decideRestore_keeps {l : Locals} {ending : Option Identity} {I : Disk → Prop} (h : I disk) :
    (decideRestore l ending).Keeps w.Happens I (fun disk r => I disk ∧
      ∀ found, r = .ok found → found.1.lock = l.lock) disk := by
  have hreturns {l' : Locals} {restore : Bool} (hl : l'.lock = l.lock) :
      (Script.done (l', restore) : HarnessM (Locals × Bool)).Keeps w.Happens I (fun disk r =>
        I disk ∧ ∀ found, r = .ok found → found.1.lock = l.lock) disk :=
    ⟨h, fun found hfound => Except.ok.inj hfound ▸ hl⟩
  unfold decideRestore
  split
  · exact hreturns rfl
  · split
    · exact hreturns rfl
    · split
      · exact hreturns rfl
      · exact hreturns rfl
      · exact ⟨h, nofun⟩

/-- Until its end `evaluate` has written nothing but a lock that was there before. -/
theorem evaluateOpened_keeps (h : Intact w.resolved_root start disk) :
    (evaluateOpened w.resolved_root (evaluationPath w.resolved_root) plan_path).Keeps w.Happens
      (Relocking w.resolved_root start) (Ended w.resolved_root start) disk := by
  refine ((runChecks_keeps h).imp fun _ => .of_intact).bind (fun disk e hr => ?_)
    fun disk l hr => ?_
  · obtain ⟨_, hl, -⟩ := hr
    cases hl
  obtain ⟨l, hl, hintact, hlock⟩ := hr
  obtain rfl := Except.ok.inj hl
  refine ((recheck_keeps hintact).imp fun _ => .of_intact).bind (fun disk e hr => ?_)
    fun disk found hr => ?_
  · obtain ⟨_, _, hl, -⟩ := hr
    cases hl
  obtain ⟨l₁, ending, hl, hlock₁, hintact⟩ := hr
  obtain rfl := Except.ok.inj hl
  refine (decideRestore_keeps (I := Intact w.resolved_root start) hintact).imp
    (fun _ => .of_intact) |>.bind (fun disk e hr => ?_) fun disk found hr => ?_
  · exact .of_intact hr.1
  obtain ⟨hintact, hlock₂⟩ := hr
  obtain ⟨l₂, restore⟩ := found
  replace hlock₂ : l₂.lock = l₁.lock := hlock₂ _ rfl
  refine ((decideWrite_keeps Intact.quiet hintact).imp fun _ => .of_intact).bind
    (fun disk e hr => ?_) fun disk found hr => ?_
  · obtain ⟨_, _, hl, -⟩ := hr
    cases hl
  obtain ⟨l₃, can_write, hl, hlock₃, hwrites, hintact⟩ := hr
  obtain rfl := Except.ok.inj hl
  have hrecorded : ∀ lock, l₃.lock = some lock → Recorded w.resolved_root start lock :=
    fun lock hfound => hlock lock (((hlock₃.trans hlock₂).trans hlock₁).symm.trans hfound)
  have hrestored : ∀ found, (if restore then l₃.lock else none) = some found →
      Recorded w.resolved_root start found := by
    intro found hfound
    cases restore with
    | false => cases hfound
    | true => exact hrecorded found hfound
  refine ((record_keeps hwrites hintact).imp fun _ h => ⟨_, hrestored, h⟩).mono fun disk r hr => ?_
  obtain ⟨evaluation, rfl, ⟨hended, hstate⟩ | hended⟩ := hr
  · exact .inl ⟨⟨_, hrestored, hended⟩, hstate⟩
  · exact .inr ⟨_, hrestored, hended⟩

/-- The same for all of `evaluate`. -/
theorem evaluate_keeps (h : Intact w.resolved_root start disk) :
    (evaluate w.root plan_path).Keeps w.Happens (Relocking w.resolved_root start)
      (Ended w.resolved_root start) disk := by
  rw [evaluate_eq]
  refine Script.keeps_bind.mpr (Script.keeps_attempt.mpr ?_)
  refine ((openEvidence_keeps h).imp fun _ => .of_intact).mono fun disk r hr => ?_
  obtain ⟨⟨hintact, hrejects⟩, hopened⟩ := hr
  cases r with
  | error failure =>
    refine .inl ⟨.of_intact hintact, fun hpass => ?_⟩
    exact absurd (passes_append.1 (evaluationFromValues_state.1 hpass)).2
      (failureCheck_state_ne (hrejects failure rfl))
  | ok opened =>
    obtain ⟨rfl, -⟩ := hopened opened rfl
    exact evaluateOpened_keeps hintact

/-- The old evaluation has been removed in the run. -/
def RemovesEvaluation (root : Path) (steps : Trace) : Prop :=
  ∃ opening rest opened, steps = opening ++ rest ∧
    (openEvidence root).replay opening = some (.ok opened)

/-- What follows the removal is the rest of the run. -/
theorem evaluate_replay_opened {root : Path} {opening rest : Trace} {opened : Path × Path}
    {r : Except Failure Evaluation}
    (h : (evaluate root plan_path).replay (opening ++ rest) = some r)
    (hopen : (openEvidence root).replay opening = some (.ok opened)) :
    (evaluateOpened opened.1 opened.2 plan_path).replay rest = some r := by
  rw [evaluate_eq] at h
  obtain ⟨e, -, hattempt⟩ | ⟨outcome, first, second, hsteps, hattempt, hrest⟩ :=
    Script.replay_bind.mp h
  · obtain ⟨_, he, -⟩ := Script.replay_attempt.mp hattempt
    cases he
  · obtain ⟨_, hr, hfirst⟩ := Script.replay_attempt.mp hattempt
    obtain rfl := Except.ok.inj hr
    obtain ⟨rfl, rfl, rfl⟩ := Script.replay_append_unique hopen hfirst hsteps
    exact hrest

/-- Once the old evaluation is gone, there is none until the end. -/
theorem evaluate_removed {evaluation : Evaluation}
    (hreplay : (evaluate w.root plan_path).replay steps = some (.ok evaluation))
    (hleads : Script.Leads w.Happens steps disk disk') (hremoves : RemovesEvaluation w.root steps) :
    disk' (evaluationPath w.resolved_root) = none ∨
      HoldsEvaluation disk' (evaluationPath w.resolved_root) evaluation := by
  obtain ⟨opening, rest, opened, rfl, hopen⟩ := hremoves
  obtain ⟨between, hopening, hrest⟩ := Script.leads_append.mp hleads
  obtain ⟨-, hopened⟩ := (openEvidence_keeps (.refl _ _)).replay hopening hopen
  obtain ⟨rfl, hnone⟩ := hopened opened rfl
  have hbehind := evaluate_replay_opened hreplay hopen
  obtain ⟨⟨_, -, hrelocked⟩, -⟩ | ⟨_, -, hreported⟩ :=
    (evaluateOpened_keeps (.refl _ _)).replay hrest hbehind
  · exact .inl (hrelocked.evaluation.absent hnone)
  · exact .inr hreported.evaluation

/-- **Evidence on the disk.** Whatever Git and the runner answer, and whatever the others do to
the disk short of writing evidence: a run of `evaluate` that is killed leaves the old evaluation or
none. One that ends leaves the old evaluation, none or the one that it returns; not the old one if
it has got as far as to remove it; and none but its own if it returns `PASS`. -/
theorem evaluate_evidence (hleads : Script.Leads w.Happens steps disk disk') :
    ((evaluate w.root plan_path).CutShort steps →
      Spared (evaluationPath w.resolved_root) disk disk') ∧
    ∀ evaluation, (evaluate w.root plan_path).replay steps = some (.ok evaluation) →
      (Spared (evaluationPath w.resolved_root) disk disk' ∨
        HoldsEvaluation disk' (evaluationPath w.resolved_root) evaluation) ∧
      (RemovesEvaluation w.root steps → disk' (evaluationPath w.resolved_root) = none ∨
        HoldsEvaluation disk' (evaluationPath w.resolved_root) evaluation) ∧
      (evaluation.state = .PASS →
        HoldsEvaluation disk' (evaluationPath w.resolved_root) evaluation) := by
  have hkeeps : (evaluate w.root plan_path).Keeps w.Happens (Relocking w.resolved_root disk)
      (Ended w.resolved_root disk) disk := evaluate_keeps (.refl _ _)
  constructor
  · intro hcut
    obtain ⟨_, -, hrelocked⟩ := hkeeps.cutShort hleads hcut
    exact hrelocked.evaluation
  · intro evaluation hreplay
    obtain ⟨⟨_, -, hrelocked⟩, hstate⟩ | ⟨_, -, hreported⟩ := hkeeps.replay hleads hreplay
    · exact ⟨.inl hrelocked.evaluation, evaluate_removed hreplay hleads,
        fun hpass => absurd hpass hstate⟩
    · exact ⟨.inr hreported.evaluation, fun _ => .inr hreported.evaluation,
        fun _ => hreported.evaluation⟩

/-- The file of the lock holds the bytes that are written for it, and they are read as the lock. -/
theorem recorded_of_holdsLock [JsonText.StandardLibrary] {resolved_root : Path} {lock : PlanLock}
    (h : lock.WellFormed) (hholds : HoldsLock disk (lockPath resolved_root) lock) :
    Recorded resolved_root disk lock := by
  obtain ⟨content, hcontent, hdisk⟩ := hholds
  obtain ⟨content', hcontent', hread⟩ := h.roundtrip
  obtain rfl := Except.ok.inj (hcontent.symm.trans hcontent')
  exact ⟨content, hdisk, hread⟩

/-- A recorded lock is well-formed. -/
theorem Recorded.wellFormed {resolved_root : Path} {lock : PlanLock}
    (h : Recorded resolved_root disk lock) : lock.WellFormed := by
  obtain ⟨content, -, hparsed⟩ := h
  exact parsePlanLock_wellFormed hparsed

/-- The lock that was there has been written again, and what was read last agrees with it. -/
def Restored (resolved_root plan_path : Path) (steps : Trace) (start disk : Disk) : Prop :=
  ∃ lock current, Recorded resolved_root start lock ∧
    HoldsLock disk (lockPath resolved_root) lock ∧
    (currentIdentity resolved_root plan_path).RanIn steps current ∧
    lock.Agrees current.plan current.context

/-- The steps are those that read the identity again. -/
theorem recheck_replay {resolved_root : Path} {l l' : Locals} {current : Identity}
    (h : (recheck resolved_root plan_path l).replay steps = some (.ok (l', some current))) :
    (currentIdentity resolved_root plan_path).replay steps = some (.ok current) := by
  unfold recheck at h
  split at h
  · obtain ⟨⟨freshness, found⟩, first, last, rfl, hcheck, hlast⟩ := Script.replay_bind_ok.mp h
    obtain ⟨rfl, hfound⟩ := Script.replay_done.mp hlast
    obtain rfl := (Prod.mk.inj (Except.ok.inj hfound)).2
    obtain ⟨outcome, reading, behind, rfl, hattempt, hbehind⟩ := Script.replay_bind_ok.mp hcheck
    obtain ⟨r, hr, hread⟩ := Script.replay_attempt.mp hattempt
    obtain rfl := Except.ok.inj hr
    cases outcome with
    | ok found =>
      obtain ⟨rfl, hresult⟩ := Script.replay_done.mp hbehind
      obtain rfl := Option.some.inj (Prod.mk.inj (Except.ok.inj hresult)).2
      rwa [List.append_nil, List.append_nil]
    | error failure =>
      obtain ⟨-, hresult⟩ := Script.replay_done.mp hbehind
      cases (Prod.mk.inj (Except.ok.inj hresult)).2
  · obtain ⟨-, hfound⟩ := Script.replay_done.mp h
    cases (Prod.mk.inj (Except.ok.inj hfound)).2

omit [ByteRuntime] in
/-- A lock is restored only if it agrees with what was read again. -/
theorem decideRestore_agrees {l l' : Locals} {ending : Option Identity}
    (h : (decideRestore l ending).replay steps = some (.ok (l', true))) :
    steps = [] ∧ l' = l ∧ ∀ lock, l.lock = some lock →
      ∃ current, ending = some current ∧ lock.Agrees current.plan current.context := by
  have hreturns {found : Locals} {restore : Bool}
      (hdone : (Script.done (found, restore) : HarnessM (Locals × Bool)).replay steps =
        some (.ok (l', true))) : steps = [] ∧ l' = found ∧ restore = true := by
    obtain ⟨rfl, hresult⟩ := Script.replay_done.mp hdone
    obtain ⟨rfl, rfl⟩ := Prod.mk.inj (Except.ok.inj hresult)
    exact ⟨rfl, rfl, rfl⟩
  unfold decideRestore at h
  split at h
  · cases (hreturns h).2.2
  · rename_i lock hlock
    split at h
    · cases (hreturns h).2.2
    · rename_i current
      split at h
      · rename_i hvalid
        obtain ⟨rfl, rfl, -⟩ := hreturns h
        refine ⟨rfl, rfl, fun lock' hlock' => ⟨current, rfl, ?_⟩⟩
        obtain rfl := Option.some.inj (hlock.symm.trans hlock')
        exact validatePlanLock_eq_ok.mp hvalid
      · cases (hreturns h).2.2
      · cases (Script.replay_throw.mp h).2

/-- A run that ends leaves the old lock, none, or the old one written again. -/
theorem evaluate_restores {evaluation : Evaluation}
    (hreplay : (evaluate w.root plan_path).replay steps = some (.ok evaluation))
    (hleads : Script.Leads w.Happens steps disk disk') :
    Spared (lockPath w.resolved_root) disk disk' ∨
      Restored w.resolved_root plan_path steps disk disk' := by
  obtain ⟨failure, hopen, -⟩ | ⟨resolved_root, evaluation_path, l, l₁, l₂, l₃, ending, restore,
    can_write, opening, s₁, s₂, s₃, s₄, s₅, rfl, hopen, hchecks, hrecheck, hrestore, hwrite,
    hrecord⟩ := evaluate_replay hreplay
  · obtain ⟨⟨hintact, -⟩, -⟩ := (openEvidence_keeps (.refl _ _)).replay hleads hopen
    exact .inl (hintact lockName (by decide))
  obtain ⟨d₁, hopening, hleads⟩ := Script.leads_append.mp hleads
  obtain ⟨d₂, hleads₁, hleads⟩ := Script.leads_append.mp hleads
  obtain ⟨d₃, hleads₂, hleads⟩ := Script.leads_append.mp hleads
  obtain ⟨d₄, hleads₃, hleads⟩ := Script.leads_append.mp hleads
  obtain ⟨d₅, hleads₄, hleads₅⟩ := Script.leads_append.mp hleads
  -- up to the last writes no evidence is written
  obtain ⟨⟨hintact₁, -⟩, hopened⟩ := (openEvidence_keeps (.refl _ _)).replay hopening hopen
  obtain ⟨hlocated, -⟩ := hopened _ rfl
  obtain ⟨rfl, rfl⟩ := Prod.mk.inj hlocated
  obtain ⟨_, hl, hintact₂, hlock⟩ := (runChecks_keeps hintact₁).replay hleads₁ hchecks
  obtain rfl := Except.ok.inj hl
  obtain ⟨_, _, hl, hlock₁, hintact₃⟩ := (recheck_keeps hintact₂).replay hleads₂ hrecheck
  obtain ⟨rfl, rfl⟩ := Prod.mk.inj (Except.ok.inj hl)
  obtain ⟨hintact₄, -⟩ := (decideRestore_keeps (w := w) hintact₃).replay hleads₃ hrestore
  obtain ⟨_, _, hl, hlock₃, hwrites, hintact₅⟩ :=
    (decideWrite_keeps Intact.quiet hintact₄).replay hleads₄ hwrite
  obtain ⟨rfl, rfl⟩ := Prod.mk.inj (Except.ok.inj hl)
  obtain ⟨_, -, hended⟩ := (record_keeps hwrites hintact₅).replay hleads₅ hrecord
  cases restore with
  | false =>
    obtain ⟨hrelocked, -⟩ | hreported := hended
    · obtain hspared | ⟨found, hfound, -⟩ := hrelocked.lock
      · exact .inl hspared
      · cases hfound
    · exact .inl (hreported.unlocked rfl)
  | true =>
    obtain ⟨rfl, rfl, hagrees⟩ := decideRestore_agrees hrestore
    have hrestored {lock : PlanLock} (hfound : l₃.lock = some lock)
        (hholds : HoldsLock disk' (lockPath w.resolved_root) lock) :
        Restored w.resolved_root plan_path (opening ++ (s₁ ++ (s₂ ++ ([] ++ (s₄ ++ s₅))))) disk
          disk' := by
      replace hfound := hlock₃.symm.trans hfound
      obtain ⟨current, rfl, hcurrent⟩ := hagrees lock hfound
      have hreread := Script.ranIn_of_replay (recheck_replay hrecheck)
      exact ⟨lock, current, hlock lock (hlock₁.symm.trans hfound), hholds,
        ((hreread.append_right _).append_left _).append_left _, hcurrent⟩
    obtain ⟨hrelocked, -⟩ | hreported := hended
    · obtain hspared | ⟨found, hfound, hholds⟩ := hrelocked.lock
      · exact .inl hspared
      · exact .inr (hrestored hfound hholds)
    · cases hfound : l₃.lock with
      | none => exact .inl (hreported.unlocked hfound)
      | some lock => exact .inr (hrestored hfound (hreported.locked lock hfound))

/-- A run that passes has written the lock that it has loaded. -/
theorem evaluate_passed_locks {evaluation : Evaluation}
    (hreplay : (evaluate w.root plan_path).replay steps = some (.ok evaluation))
    (hpass : evaluation.state = .PASS)
    (hrejects : ∀ step ∈ steps, RunnerRejects step.op step.answer)
    (hleads : Script.Leads w.Happens steps disk disk') :
    ∃ run : PassedRun plan_path steps evaluation, Recorded w.resolved_root disk run.lock ∧
      HoldsLock disk' (lockPath w.resolved_root) run.lock := by
  obtain ⟨parts⟩ := evaluate_passed hreplay hpass hrejects
  rw [parts.steps_eq] at hleads
  obtain ⟨d₁, hopening, hleads⟩ := Script.leads_append.mp hleads
  obtain ⟨d₂, hchecking, hleads⟩ := Script.leads_append.mp hleads
  obtain ⟨d₃, -, hwriting⟩ := Script.leads_append.mp hleads
  obtain ⟨⟨hintact, -⟩, hopened⟩ := (openEvidence_keeps (.refl _ _)).replay hopening parts.opened
  obtain ⟨hlocated, -⟩ := hopened _ rfl
  obtain ⟨hroot, hpath⟩ := Prod.mk.inj hlocated
  have hchecked := parts.checked
  have hwritten := parts.written
  rw [hroot] at hchecked
  rw [hroot, hpath] at hwritten
  obtain ⟨_, hl, -, hlock⟩ := (runChecks_keeps hintact).replay hchecking hchecked
  obtain rfl := Except.ok.inj hl
  have hreported := (writeEvidence_keeps (.refl _ _)).replay hwriting hwritten
  exact ⟨parts.run, hlock _ parts.lock_eq, hreported.locked _ rfl⟩

variable [JsonText.StandardLibrary]

/-- **Locks on the disk.** A run of `evaluate`, killed or not, leaves the old lock, none, or the
lock that it has loaded, written again so that it is loaded again; at its end only if what was read
last agrees with it in all seven fields. If it returns `PASS`, the lock is there. -/
theorem evaluate_lock (hleads : Script.Leads w.Happens steps disk disk') :
    ((evaluate w.root plan_path).CutShort steps → Spared (lockPath w.resolved_root) disk disk' ∨
      ∃ lock, Recorded w.resolved_root disk lock ∧ Recorded w.resolved_root disk' lock) ∧
    ∀ evaluation, (evaluate w.root plan_path).replay steps = some (.ok evaluation) →
      (Spared (lockPath w.resolved_root) disk disk' ∨ ∃ lock current,
        Recorded w.resolved_root disk lock ∧ Recorded w.resolved_root disk' lock ∧
        (currentIdentity w.resolved_root plan_path).RanIn steps current ∧
        lock.Agrees current.plan current.context) ∧
      (evaluation.state = .PASS → (∀ step ∈ steps, RunnerRejects step.op step.answer) →
        ∃ run : PassedRun plan_path steps evaluation, Recorded w.resolved_root disk run.lock ∧
          Recorded w.resolved_root disk' run.lock) := by
  have hreloads {lock : PlanLock} (hrecorded : Recorded w.resolved_root disk lock)
      (hholds : HoldsLock disk' (lockPath w.resolved_root) lock) :
      Recorded w.resolved_root disk' lock := recorded_of_holdsLock hrecorded.wellFormed hholds
  constructor
  · intro hcut
    have hkeeps : (evaluate w.root plan_path).Keeps w.Happens (Relocking w.resolved_root disk)
        (Ended w.resolved_root disk) disk := evaluate_keeps (.refl _ _)
    obtain hspared | ⟨lock, hrecorded, hholds⟩ := (hkeeps.cutShort hleads hcut).lock
    · exact .inl hspared
    · exact .inr ⟨lock, hrecorded, hreloads hrecorded hholds⟩
  · intro evaluation hreplay
    constructor
    · obtain hspared | ⟨lock, current, hrecorded, hholds, hreread, hagrees⟩ :=
        evaluate_restores hreplay hleads
      · exact .inl hspared
      · exact .inr ⟨lock, current, hrecorded, hreloads hrecorded hholds, hreread, hagrees⟩
    · intro hpass hrejects
      obtain ⟨run, hrecorded, hholds⟩ := evaluate_passed_locks hreplay hpass hrejects hleads
      exact ⟨run, hrecorded, hreloads hrecorded hholds⟩

end Runs

namespace Sample

/-- The repository, in which the check runner deletes the lock. -/
def cleanedWorld : World where
  root := root
  resolved_root := root
  foreign := Runs cleaningRunner
  spares := by
    rintro disk disk' (rfl | rfl) name hname
    · exact .inl rfl
    · by_cases heq : (evidenceDirectory root).child name = (evidenceDirectory root).child lockName
      · refine .inr ?_
        rw [heq]
        exact Disk.set_self disk ((evidenceDirectory root).child lockName) none
      · exact .inl (Disk.set_of_ne heq _)

/-- The machine answers as the world does. -/
theorem machine_happens (git : List Str → Bytes) {runner : Disk → Except Failure RawChecks × Disk}
    (hruns : ∀ disk disk', Runs runner disk disk' → Runs cleaningRunner disk disk') (disk : Disk)
    (op : Op) :
    cleanedWorld.Happens op (machine git runner (.ok passedPreflight) disk op).1 disk
      (machine git runner (.ok passedPreflight) disk op).2 := by
  refine ⟨?_, ?_, (machine_effect ..).mono hruns⟩
  · cases op with
    | resolve path strict =>
      rintro (rfl | rfl)
      · rfl
      · rfl
    | _ => trivial
  · cases op with
    | readBytes path =>
      cases h : disk path with
      | none => simp [machine, h, Observes]
      | some entry =>
        cases entry with
        | file content => simp [machine, h, Observes]
        | _ => simp [machine, h, Observes]
    | _ => trivial

/-- The sample run leads from the disk of the preparation to its end. -/
theorem evaluation_leads : Script.Leads cleanedWorld.Happens evaluation.1
    (preparation (.ok passedPreflight)).2.2 evaluation.2.2 :=
  Script.leads_exec (machine_happens _ fun _ _ h => h) _ _

end Sample

/-- A run that passes leaves its evaluation. -/
theorem evaluate_evidence_guide :
    ∃ (evaluation : Evaluation) (disk : Disk), evaluation.state = .PASS ∧
      HoldsEvaluation disk (evaluationPath Sample.root) evaluation := by
  let _ := Sample.textRuntime
  obtain ⟨found, hreplay, hstate, -⟩ := Sample.evaluation_replay
  exact ⟨found, _, hstate,
    ((evaluate_evidence Sample.evaluation_leads).2 found hreplay).2.2 hstate⟩

/-- A run that passes leaves its lock, although the check runner has deleted it. -/
theorem evaluate_lock_guide :
    ∃ (evaluation : Evaluation) (disk disk' : Disk) (lock : PlanLock), evaluation.state = .PASS ∧
      @Recorded Sample.textRuntime Sample.root disk lock ∧
      @Recorded Sample.textRuntime Sample.root disk' lock := by
  let _ := Sample.textRuntime
  have _ := Sample.textRuntime_standard
  obtain ⟨found, hreplay, hstate, -⟩ := Sample.evaluation_replay
  have hlock := ((evaluate_lock Sample.evaluation_leads).2 found hreplay).2
  obtain ⟨run, hbefore, hafter⟩ := hlock hstate Sample.evaluation_rejects
  exact ⟨found, _, _, run.lock, hstate, hbefore, hafter⟩

end CoffeeOrder.Harness
