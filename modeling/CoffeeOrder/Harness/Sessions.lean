import CoffeeOrder.Harness.Records
import CoffeeOrder.Kit.History

/-!
# Sessions with the harness

Plans are prepared, candidates are evaluated, processes are killed, and in between others work on
the disk. Whatever the order: the lock that lies there was made by a preparation that saw what it
locks, the evaluation that lies there is the last one that was written, and one that passed goes
back to such a preparation.
-/

namespace CoffeeOrder.Harness

open Kit Python

section Preparation

variable [ByteRuntime] {w : World} {plan_path : Path} {start disk disk' : Disk} {steps : Trace}

/-- What `prepare` leaves behind: no evidence but a lock, and that only if it passes. -/
def Prepared (resolved_root : Path) (start disk : Disk)
    (r : Except Failure (State × List CheckResult)) : Prop :=
  Spared (evaluationPath resolved_root) start disk ∧
    (Intact resolved_root start disk ∨ ∃ checks, r = .ok (.PASS, checks))

omit [ByteRuntime] in
/-- `prepare` may leave the evidence unwritten with any result. -/
theorem Prepared.of_intact {r : Except Failure (State × List CheckResult)}
    (h : Intact w.resolved_root start disk) : Prepared w.resolved_root start disk r :=
  ⟨h evaluationName (by decide), .inl h⟩

omit [ByteRuntime] in
/-- Gentle parts come first. -/
theorem gentle_bind_prepared {α : Type} {p : HarnessM α}
    {f : α → HarnessM (State × List CheckResult)} (hp : p.Within Op.Gentle fun _ => True)
    (h : Intact w.resolved_root start disk)
    (hf : ∀ a disk, Intact w.resolved_root start disk →
      (f a).Keeps w.Happens (Intact w.resolved_root start) (Prepared w.resolved_root start) disk) :
    (p >>= f).Keeps w.Happens (Intact w.resolved_root start)
      (Prepared w.resolved_root start) disk :=
  (keeps_intact hp h).bind (fun _ _ hr => .of_intact hr.1) fun disk a hr => hf a disk hr.1

/-- Locking the plan writes nothing but the lock, and that as a whole. -/
theorem lockPlan_keeps {initial_snapshot : PlanLock} {environment_checks : List CheckResult}
    (h : Intact w.resolved_root start disk) :
    (lockPlan w.resolved_root plan_path initial_snapshot environment_checks).Keeps w.Happens
      (Intact w.resolved_root start) (Prepared w.resolved_root start) disk := by
  refine gentle_bind_prepared (sound_observe _ _).gentle h fun seen disk h => ?_
  refine gentle_bind_prepared (gentle_lift _) h fun _ disk h => ?_
  have hgentle := (sound_safeEvidencePath w.resolved_root lockName).gentle
  have hlocated := (keeps_intact (w := w) hgentle h).and_ensures
    (safeEvidencePath_ensures lockName (.inr rfl))
  refine hlocated.bind (fun _ _ hr => .of_intact hr.1.1) fun disk lock_path hr => ?_
  obtain ⟨⟨hintact, -⟩, hpath⟩ := hr
  obtain ⟨rfl, -⟩ := hpath lock_path rfl
  dsimp only
  generalize planLockPayload (makePlanLock seen.1 seen.2) = payload
  refine Script.keeps_bind.mpr (Script.keeps_tryCatch.mpr ?_)
  refine (writeJsonAtomic_keeps (intact_looks start) _ payload hintact).mono fun disk' r hr => ?_
  cases r with
  | error error => exact .of_intact ((intact_looks start).replaced hr hintact)
  | ok _ =>
    obtain ⟨content, -, rfl⟩ := hr
    have hne : evaluationPath w.resolved_root ≠
        (evidenceDirectory w.resolved_root).child lockName :=
      fun heq => absurd (Path.child_inj.mp heq).2 (by decide)
    refine ⟨?_, .inr ⟨_, rfl⟩⟩
    rw [Spared, Disk.set_of_ne hne]
    exact hintact evaluationName (by decide)

/-- The evidence is left as it is until the lock is written. -/
theorem prepareResolved_keeps (h : Intact w.resolved_root start disk) :
    (prepareResolved w.resolved_root plan_path).Keeps w.Happens (Intact w.resolved_root start)
      (Prepared w.resolved_root start) disk := by
  refine gentle_bind_prepared (sound_observe _ _).gentle h fun seen disk h => ?_
  have hcall : (callPreflight w.resolved_root).Within Op.Gentle fun _ => True :=
    ⟨trivial, fun _ => gentle_lift _⟩
  refine gentle_bind_prepared hcall h fun raw_checks disk h => ?_
  refine gentle_bind_prepared (gentle_lift _) h fun environment_checks disk h => ?_
  cases environment_checks.find? (·.state ≠ .PASS) with
  | some check => exact .of_intact h
  | none => exact lockPlan_keeps h

/-- The same with the search for the repository. -/
theorem prepareBody_keeps (h : Intact w.resolved_root start disk) :
    (prepareBody w.root plan_path).Keeps w.Happens (Intact w.resolved_root start)
      (Prepared w.resolved_root start) disk := by
  have hroot := (strictRepositoryRoot_settles (w := w) (.inl rfl)).ensures (E := w.Happens)
    (s := disk) fun _ _ _ _ hE => hE.settles
  have hopened : (openPreparation w.root).Ensures w.Happens (Script.returning fun _ opened =>
      opened.1 = w.resolved_root) disk := by
    refine hroot.bind_returning ?_
    rintro disk _ rfl
    exact Script.ensures_anything.bind_returning fun _ _ _ => Script.returning_ok.mpr rfl
  have hgentle := (openPreparation_within w.root).imp fun _ => Op.Removing.gentle
  refine ((keeps_intact hgentle h).and_ensures hopened).bind
    (fun _ _ hr => .of_intact hr.1.1) fun disk opened hr => ?_
  obtain ⟨⟨hintact, -⟩, hsettled⟩ := hr
  have hsettled := hsettled opened rfl
  dsimp only
  rw [hsettled]
  exact prepareResolved_keeps hintact

/-- The only preflight is that of the repository. -/
theorem prepareResolved_preflight (resolved_root plan_path : Path) :
    (prepareResolved resolved_root plan_path).Within
      (fun op => ∀ root, op = .preflight root → root = resolved_root) fun _ => True := by
  have hnone {op : Op} (h : NoPreflight op) (root : Path) (hop : op = .preflight root) :
      root = resolved_root := absurd hop (h root)
  have hquiet : (observe resolved_root plan_path).Within
      (fun op => ∀ root, op = .preflight root → root = resolved_root) fun _ => True :=
    ((sound_observe _ _).imp fun _ hop => hnone (noPreflight_of_quiet hop)).mono fun _ _ => trivial
  refine hquiet.bind fun seen => ?_
  have hcall : (callPreflight resolved_root).Within
      (fun op => ∀ root, op = .preflight root → root = resolved_root) fun _ => True :=
    ⟨fun root hop => (Op.preflight.inj hop).symm,
      fun _ => Script.Within.ofExcept fun _ _ => trivial⟩
  refine hcall.bind fun raw_checks => ?_
  refine (Script.Within.ofExcept fun _ _ => trivial).bind fun checks => ?_
  cases checks.find? (·.state ≠ .PASS) with
  | some check => exact .pure
  | none => exact (lockPlan_within _ _ _ _).imp fun _ => hnone

/-- A run of `prepare` that ends has spared the evidence, or has left the lock of what it has
seen. -/
theorem prepare_leaves {r : Except Failure (State × List CheckResult)}
    (hreplay : (prepare w.root plan_path).replay steps = some r)
    (hleads : Script.Leads w.Happens steps disk disk') :
    Spared (evaluationPath w.resolved_root) disk disk' ∧
      (Spared (lockPath w.resolved_root) disk disk' ∨ ∃ run : LockedRun plan_path steps,
        HoldsLock disk' (lockPath w.resolved_root) (makePlanLock run.plan run.context)) := by
  obtain ⟨outcome, hbody⟩ : ∃ outcome, (prepareBody w.root plan_path).replay steps =
      some outcome := by
    obtain ⟨e, -, hattempt⟩ | ⟨outcome, first, second, rfl, hattempt, hrest⟩ :=
      Script.replay_bind.mp hreplay
    · obtain ⟨_, he, -⟩ := Script.replay_attempt.mp hattempt
      cases he
    · obtain ⟨_, hr, hfirst⟩ := Script.replay_attempt.mp hattempt
      obtain rfl := Except.ok.inj hr
      obtain rfl : second = [] := by
        cases outcome with
        | ok result => exact (Script.replay_done.mp hrest).1
        | error failure => exact (Script.replay_done.mp hrest).1
      rw [List.append_nil]
      exact ⟨_, hfirst⟩
  have hprepared : Prepared w.resolved_root disk disk' outcome :=
    (prepareBody_keeps (.refl _ _)).replay hleads hbody
  refine ⟨hprepared.1, ?_⟩
  obtain hintact | ⟨checks, rfl⟩ := hprepared.2
  · exact .inl (hintact lockName (by decide))
  obtain ⟨failure, hfailure, -⟩ | ⟨resolved_root, lock_path, opening, rest, rfl, hopen, hrest⟩ :=
    prepareBody_replay hbody
  · cases hfailure
  obtain ⟨run, writing, hends⟩ := prepareResolved_replay_pass hrest
  have hsettles := hleads.answers fun _ _ _ _ hE => hE.settles
  have hroot : resolved_root = w.resolved_root := by
    have hopened : (openPreparation w.root).Meets (Settles w.root w.resolved_root)
        (fun _ => True) fun opened => opened.1 = w.resolved_root := by
      refine (strictRepositoryRoot_settles (.inl rfl)).bind fun found hfound => ?_
      exact (Script.Meets.anything _).bind fun _ _ => Script.Meets.pure.mpr hfound
    refine (hopened.replay (fun step hstep => hsettles step ?_) hopen).2 _ rfl
    exact List.mem_append_left _ hstep
  have hrun : run.resolved_root = w.resolved_root := by
    have hmem := (congrArg (_ ∈ ·) run.steps_eq).mpr
      (List.mem_append_right run.before_preflight List.mem_cons_self)
    exact (((prepareResolved_preflight _ _).replay hrest).1 _ hmem _ rfl).trans hroot
  have hlocated : run.lock_path = lockPath w.resolved_root := by
    refine (safeEvidencePath_settles (w := w) lockName (.inr hrun)).ranIn (fun step hstep => ?_)
      run.located
    refine hsettles step (List.mem_append_right _ (run.steps_eq ▸ ?_))
    exact List.mem_append_right _ (List.mem_cons_of_mem _ hstep)
  refine .inr ⟨run.prepend opening, ?_⟩
  have hmoves : Moves w.foreign (opening ++ rest) disk disk' :=
    hleads.imp fun _ _ _ _ hE => hE.effect
  have hholds := (hends.prepend opening).holdsLock hmoves
  rw [show (run.prepend opening).lock_path = lockPath w.resolved_root from hlocated] at hholds
  exact hholds

end Preparation

section Histories

/-- What happens to the repository. -/
inductive Event
  | prepared (plan_path : Path) (steps : Trace) (result : Except Failure (State × List CheckResult))
  | evaluated (plan_path : Path) (steps : Trace) (result : Except Failure Evaluation)
  /-- `prepare` or `evaluate` was killed after these steps. -/
  | killed (plan_path : Path) (steps : Trace)
  /-- Others have changed the disk. -/
  | changed

variable [ByteRuntime] {w : World}

/-- The event changes the disk in this way. -/
def World.Occurs (w : World) : Event → Disk → Disk → Prop
  | .prepared plan_path steps result, disk, disk' =>
    (prepare w.root plan_path).replay steps = some result ∧
      Script.Leads w.Happens steps disk disk'
  | .evaluated plan_path steps result, disk, disk' =>
    (evaluate w.root plan_path).replay steps = some result ∧
      Script.Leads w.Happens steps disk disk'
  | .killed plan_path steps, disk, disk' =>
    ((prepare w.root plan_path).CutShort steps ∨ (evaluate w.root plan_path).CutShort steps) ∧
      Script.Leads w.Happens steps disk disk'
  | .changed, disk, disk' => w.foreign disk disk'

/-- A preparation in the history has made this lock. -/
structure LockedIn (history : List Event) (lock : PlanLock) where
  plan_path : Path
  steps : Trace
  result : Except Failure (State × List CheckResult)
  run : LockedRun plan_path steps
  mem : .prepared plan_path steps result ∈ history
  lock_eq : lock = makePlanLock run.plan run.context

/-- The event puts this entry where the lock is. -/
def MakesLock : Event → Disk → Entry → Prop
  | .prepared plan_path steps _, _, entry => ∃ (run : LockedRun plan_path steps) (content : Bytes),
      jsonBytes (planLockPayload (makePlanLock run.plan run.context)) = .ok content ∧
        entry = .file content
  | _, _, _ => False

/-- The event puts this entry where the evaluation is. One that passed has found its lock on the
disk. -/
def World.MakesEvaluation (w : World) : Event → Disk → Entry → Prop
  | .evaluated plan_path steps (.ok evaluation), disk, entry => ∃ content,
      jsonBytes evaluation.toDict = .ok content ∧ entry = .file content ∧
        (evaluation.state = .PASS → ∃ run : PassedRun plan_path steps evaluation,
          Recorded w.resolved_root disk run.lock)
  | _, _, _ => False

/-- No runner of the event claims to pass by a violation. -/
def Event.Rejects : Event → Prop
  | .evaluated _ steps _ => ∀ step ∈ steps, RunnerRejects step.op step.answer
  | _ => True

variable {start disk disk' : Disk} {history : List Event}

/-- A preparation that is killed before its end has written no evidence. -/
theorem killed_prepare_spares {plan_path : Path} {steps : Trace}
    (hcut : (prepare w.root plan_path).CutShort steps)
    (hleads : Script.Leads w.Happens steps disk disk') : Intact w.resolved_root disk disk' := by
  have hkeeps : (prepare w.root plan_path).Keeps w.Happens (Intact w.resolved_root disk)
      (fun _ _ => True) disk := by
    refine Script.keeps_bind.mpr (Script.keeps_attempt.mpr ?_)
    refine (prepareBody_keeps (.refl _ _)).mono fun disk r _ => ?_
    cases r with
    | ok result => trivial
    | error failure => trivial
  exact hkeeps.cutShort hleads hcut

/-- The evaluation on the disk is spared, or it is that of the event. -/
theorem occurs_evaluation {event : Event} (hoccurs : w.Occurs event disk disk')
    (hrejects : event.Rejects) :
    Spared (evaluationPath w.resolved_root) disk disk' ∨
      ∃ entry, disk' (evaluationPath w.resolved_root) = some entry ∧
        w.MakesEvaluation event disk entry := by
  cases event with
  | prepared plan_path steps result => exact .inl (prepare_leaves hoccurs.1 hoccurs.2).1
  | evaluated plan_path steps result =>
    obtain ⟨hreplay, hleads⟩ := hoccurs
    have hended : Ended w.resolved_root disk disk' result :=
      (evaluate_keeps (.refl _ _)).replay hleads hreplay
    cases result with
    | error failure =>
      obtain ⟨_, -, hrelocked⟩ := hended
      exact .inl hrelocked.evaluation
    | ok evaluation =>
      obtain ⟨⟨_, -, hrelocked⟩, -⟩ | ⟨_, -, hreported⟩ := hended
      · exact .inl hrelocked.evaluation
      · obtain ⟨content, hcontent, hdisk⟩ := hreported.evaluation
        refine .inr ⟨_, hdisk, content, hcontent, rfl, fun hpass => ?_⟩
        obtain ⟨run, hrecorded, -⟩ := evaluate_passed_locks hreplay hpass hrejects hleads
        exact ⟨run, hrecorded⟩
  | killed plan_path steps =>
    obtain ⟨hcut | hcut, hleads⟩ := hoccurs
    · exact .inl (killed_prepare_spares hcut hleads evaluationName (by decide))
    · have hkeeps : (evaluate w.root plan_path).Keeps w.Happens (Relocking w.resolved_root disk)
          (Ended w.resolved_root disk) disk := evaluate_keeps (.refl _ _)
      obtain ⟨_, -, hrelocked⟩ := hkeeps.cutShort hleads hcut
      exact .inl hrelocked.evaluation
  | changed => exact .inl (w.spares _ _ hoccurs evaluationName (by decide))

variable [JsonText.StandardLibrary]

/-- What a preparation locks is well formed. -/
theorem LockedRun.wellFormed {plan_path : Path} {steps : Trace} (run : LockedRun plan_path steps) :
    (makePlanLock run.plan run.context).WellFormed := by
  obtain ⟨policy, -, hplan⟩ := run.observed.read
  obtain ⟨raw, relative_path, hparsed⟩ := loadPlan_parsed hplan
  obtain ⟨_, _, _, -, hcontext⟩ := run.observed.resolved
  exact makePlanLock_wellFormed hparsed (resolveLocalGitContext_wellFormed hcontext)

/-- There is no lock, or the bytes of one that is well formed. -/
def CleanLock (w : World) (disk : Disk) : Prop :=
  disk (lockPath w.resolved_root) = none ∨
    ∃ lock : PlanLock, lock.WellFormed ∧ HoldsLock disk (lockPath w.resolved_root) lock

omit [ByteRuntime] [JsonText.StandardLibrary] in
/-- A clean lock that is spared stays clean. -/
theorem CleanLock.spared (h : CleanLock w disk)
    (hspared : Spared (lockPath w.resolved_root) disk disk') : CleanLock w disk' := by
  obtain hsame | hgone := hspared
  · simpa only [CleanLock, HoldsLock, hsame] using h
  · exact .inl hgone

/-- To write such a lock again changes nothing. -/
theorem CleanLock.relocked (h : CleanLock w disk) (hrelocked : Relocks w.resolved_root disk disk') :
    Spared (lockPath w.resolved_root) disk disk' := by
  obtain hspared | ⟨found, ⟨content, hdisk, hparsed⟩, written, hwritten, hdisk'⟩ := hrelocked
  · exact hspared
  obtain hnone | ⟨old, hold, hholds⟩ := h
  · cases hnone.symm.trans hdisk
  -- the lock that was loaded is the one that the bytes were written for
  · obtain ⟨_, hread, hparsed_old⟩ := recorded_of_holdsLock hold hholds
    obtain rfl := Entry.file.inj (Option.some.inj (hdisk.symm.trans hread))
    obtain rfl := Except.ok.inj (hparsed.symm.trans hparsed_old)
    obtain ⟨_, hwritten_old, hdisk_old⟩ := hholds
    obtain rfl := Except.ok.inj (hwritten.symm.trans hwritten_old)
    exact .inl (hdisk'.trans hdisk_old.symm)

/-- The lock on the disk is spared, or a preparation has made it. -/
theorem occurs_lock {event : Event} (hclean : CleanLock w disk)
    (hoccurs : w.Occurs event disk disk') : Spared (lockPath w.resolved_root) disk disk' ∨
      ∃ entry, disk' (lockPath w.resolved_root) = some entry ∧ MakesLock event disk entry := by
  cases event with
  | prepared plan_path steps result =>
    obtain hspared | ⟨run, content, hcontent, hdisk⟩ := (prepare_leaves hoccurs.1 hoccurs.2).2
    · exact .inl hspared
    · exact .inr ⟨_, hdisk, run, content, hcontent, rfl⟩
  | evaluated plan_path steps result =>
    obtain ⟨hreplay, hleads⟩ := hoccurs
    have hended : Ended w.resolved_root disk disk' result :=
      (evaluate_keeps (.refl _ _)).replay hleads hreplay
    exact .inl (hclean.relocked hended.lock)
  | killed plan_path steps =>
    obtain ⟨hcut | hcut, hleads⟩ := hoccurs
    · exact .inl (killed_prepare_spares hcut hleads lockName (by decide))
    · have hkeeps : (evaluate w.root plan_path).Keeps w.Happens (Relocking w.resolved_root disk)
          (Ended w.resolved_root disk) disk := evaluate_keeps (.refl _ _)
      exact .inl (hclean.relocked (hkeeps.cutShort hleads hcut).lock)
  | changed => exact .inl (w.spares _ _ hoccurs lockName (by decide))

/-- No event leaves another kind of lock. -/
theorem occurs_cleanLock {event : Event} (hclean : CleanLock w disk)
    (hoccurs : w.Occurs event disk disk') : CleanLock w disk' := by
  obtain hspared | ⟨entry, hdisk, hmakes⟩ := occurs_lock hclean hoccurs
  · exact hclean.spared hspared
  · cases event with
    | prepared plan_path steps result =>
      obtain ⟨run, content, hcontent, rfl⟩ := hmakes
      exact .inr ⟨_, run.wellFormed, content, hcontent, hdisk⟩
    | _ => exact hmakes.elim

/-- The lock that lies on the disk was made by a preparation of the history. -/
theorem session_lock (hstart : start (lockPath w.resolved_root) = none)
    (hfollows : Follows w.Occurs history start disk) :
    CleanLock w disk ∧
      ∀ lock, Recorded w.resolved_root disk lock → Nonempty (LockedIn history lock) := by
  have hclean {history : List Event} {disk : Disk}
      (hfollows : Follows w.Occurs history start disk) : CleanLock w disk :=
    hfollows.induction (P := fun _ => CleanLock w) (.inl hstart)
      fun _ _ _ _ _ hclean hoccurs => occurs_cleanLock hclean hoccurs
  refine ⟨hclean hfollows, fun lock ⟨content, hdisk, hparsed⟩ => ?_⟩
  have hmade : Nonempty (MadeBy w.Occurs MakesLock start history (.file content)) := by
    refine Follows.provenance (fun disk => disk (lockPath w.resolved_root)) hstart ?_ hfollows hdisk
    exact fun _ _ _ _ hbefore hoccurs => occurs_lock (hclean hbefore) hoccurs
  obtain ⟨⟨before_, event, after_, state, rfl, -, hmakes⟩⟩ := hmade
  cases event with
  | prepared plan_path steps result =>
    obtain ⟨run, content', hcontent', hentry⟩ := hmakes
    obtain rfl := Entry.file.inj hentry
    obtain ⟨_, hread, hparsed'⟩ := recorded_of_holdsLock run.wellFormed ⟨content, hcontent', hdisk⟩
    obtain rfl := Entry.file.inj (Option.some.inj (hdisk.symm.trans hread))
    refine ⟨⟨plan_path, steps, result, run, ?_, Except.ok.inj (hparsed.symm.trans hparsed')⟩⟩
    exact List.mem_append_right _ List.mem_cons_self
  | _ => exact hmakes.elim

/-- The evaluation that was written by a run, which went back to a preparation if it passed. -/
structure EvaluatedIn (history : List Event) (evaluation : Evaluation) where
  before_ : List Event
  plan_path : Path
  steps : Trace
  after_ : List Event
  history_eq : history = before_ ++ .evaluated plan_path steps (.ok evaluation) :: after_
  /-- Both times when the run has looked at them, the plan and its context were those that a
  preparation had locked before. -/
  prepared : evaluation.state = .PASS → ∃ (run : PassedRun plan_path steps evaluation)
    (locked : LockedIn before_ run.lock),
      Unchanged locked.run.plan run.candidate.plan locked.run.context run.candidate.context ∧
      Unchanged locked.run.plan run.ending.plan locked.run.context run.ending.context

/-- **Provenance of evidence.** In every history of preparations, evaluations, kills and other
changes from a disk without evidence, in which nobody else writes evidence and no check runner
claims to pass by a violation: a lock on the disk is one that a preparation of the history has made,
after it saw twice what it locks; an evaluation on the disk is one that an evaluation of the history
has returned; and if that passed, its candidate was what a preparation before it had locked. -/
theorem session_provenance (hstart : ∀ name ∈ evidenceNames,
      start ((evidenceDirectory w.resolved_root).child name) = none)
    (hfollows : Follows w.Occurs history start disk)
    (hrejects : ∀ event ∈ history, event.Rejects) :
    (disk (lockPath w.resolved_root) = none ∨ ∃ lock : PlanLock, lock.WellFormed ∧
      HoldsLock disk (lockPath w.resolved_root) lock ∧ Nonempty (LockedIn history lock)) ∧
    (disk (evaluationPath w.resolved_root) = none ∨ ∃ evaluation,
      HoldsEvaluation disk (evaluationPath w.resolved_root) evaluation ∧
      Nonempty (EvaluatedIn history evaluation)) := by
  have hlockless := hstart lockName (by decide)
  constructor
  · obtain ⟨hclean, hlocked⟩ := session_lock hlockless hfollows
    obtain hnone | ⟨lock, hlock, hholds⟩ := hclean
    · exact .inl hnone
    · exact .inr ⟨lock, hlock, hholds, hlocked lock (recorded_of_holdsLock hlock hholds)⟩
  · cases hdisk : disk (evaluationPath w.resolved_root) with
    | none => exact .inl rfl
    | some entry =>
      have hmade : Nonempty (MadeBy (fun event s s' => event.Rejects ∧ w.Occurs event s s')
          w.MakesEvaluation start history entry) := by
        refine Follows.provenance (fun disk => disk (evaluationPath w.resolved_root))
          (hstart evaluationName (by decide)) ?_ (hfollows.and hrejects) hdisk
        exact fun _ _ _ _ _ hoccurs => occurs_evaluation hoccurs.2 hoccurs.1
      obtain ⟨⟨before_, event, after_, state, rfl, hreached, hmakes⟩⟩ := hmade
      cases event with
      | evaluated plan_path steps result =>
        cases result with
        | error failure => exact hmakes.elim
        | ok evaluation =>
          obtain ⟨content, hcontent, rfl, hpassed⟩ := hmakes
          refine .inr ⟨evaluation, ⟨content, hcontent, hdisk⟩, ⟨{
            before_, plan_path, steps, after_, history_eq := rfl, prepared := fun hpass => ?_ }⟩⟩
          obtain ⟨run, hrecorded⟩ := hpassed hpass
          have hreached' := hreached.imp fun _ _ _ h => h.2
          obtain ⟨locked⟩ := (session_lock hlockless hreached').2 _ hrecorded
          have hfirst := run.accepted.lock_agrees
          have hlast := run.lock_agrees_again
          rw [locked.lock_eq] at hfirst hlast
          exact ⟨run, locked, agrees_makePlanLock.mp hfirst, agrees_makePlanLock.mp hlast⟩
      | _ => exact hmakes.elim

end Histories

namespace Sample

/-- The sample preparation leads from the repository to its end. -/
theorem preparation_leads : Script.Leads cleanedWorld.Happens
    (preparation (.ok passedPreflight)).1 repository (preparation (.ok passedPreflight)).2.2 := by
  refine Script.leads_exec (machine_happens _ ?_) _ _
  rintro disk disk' (rfl | rfl)
  · exact .inl rfl
  · exact .inl rfl

/-- The sample repository starts without evidence. -/
theorem repository_fresh : ∀ name ∈ evidenceNames,
    repository ((evidenceDirectory root).child name) = none := by
  have hnone : evidenceNames.all (fun name =>
      (repository ((evidenceDirectory root).child name)).isNone) = true := by decide +kernel
  exact fun name hname => Option.isNone_iff_eq_none.mp (List.all_eq_true.mp hnone name hname)

end Sample

/-- A plan is prepared in a fresh repository, and the candidate passes. -/
theorem session_provenance_guide :
    ∃ (history : List Event) (disk : Disk) (evaluation : Evaluation),
      HoldsEvaluation disk (evaluationPath Sample.root) evaluation ∧
      Nonempty (@EvaluatedIn Sample.textRuntime history evaluation) := by
  let _ := Sample.textRuntime
  have _ := Sample.textRuntime_standard
  obtain ⟨checks, hprepare⟩ := Sample.preparation_passes
    (show ((Sample.preparation (.ok Sample.passedPreflight)).2.1.map Prod.fst).toOption =
      some .PASS by decide +kernel)
  obtain ⟨found, hevaluate, hstate, -⟩ := Sample.evaluation_replay
  have hended : Ended Sample.cleanedWorld.resolved_root _ _ (.ok found) :=
    (evaluate_keeps (.refl _ _)).replay Sample.evaluation_leads hevaluate
  have hfollows : Follows Sample.cleanedWorld.Occurs
      [.prepared Sample.planPath _ (.ok (.PASS, checks)), .evaluated Sample.planPath _ (.ok found)]
      Sample.repository Sample.evaluation.2.2 :=
    ⟨_, ⟨hprepare, Sample.preparation_leads⟩, _, ⟨hevaluate, Sample.evaluation_leads⟩, rfl⟩
  have hrejects : ∀ event ∈ [Event.prepared Sample.planPath
      (Sample.preparation (.ok Sample.passedPreflight)).1 (.ok (.PASS, checks)),
      .evaluated Sample.planPath Sample.evaluation.1 (.ok found)], event.Rejects := by
    simp only [List.forall_mem_cons]
    exact ⟨trivial, Sample.evaluation_rejects, fun _ h => nomatch h⟩
  obtain hnone | ⟨evaluation, hholds, hevaluated⟩ :=
    (session_provenance Sample.repository_fresh hfollows hrejects).2
  · obtain ⟨-, hfailed⟩ | ⟨_, -, hreported⟩ := hended
    · exact absurd hstate hfailed
    · obtain ⟨_, -, hdisk⟩ := hreported.evaluation
      cases hnone.symm.trans hdisk
  · exact ⟨_, _, evaluation, hholds, hevaluated⟩

end CoffeeOrder.Harness
