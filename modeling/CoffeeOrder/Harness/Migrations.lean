import CoffeeOrder.Harness.Gate
import CoffeeOrder.Harness.Git
import Mathlib.Data.List.Perm.Subperm

/-!
# The history of Flyway migrations

`validate_existing_migrations_immutable` compares the whole directory of migrations with
the merge base; `validate_migration_sequence` looks at the names directly in it. Flyway
loads the migrations at any depth.
-/

namespace CoffeeOrder.Harness

open Kit Python

/-- `migration_prefix`. -/
def migrationPrefix : Str := "src/main/resources/db/migration/"

section Immutable

variable [ByteRuntime]

/-- The arguments that list the migrations of the merge base. -/
def baseMigrationArgs (merge_base_sha : Str) : List Str :=
  ["ls-tree", "-r", "-z", "--name-only", merge_base_sha, "--", migrationPrefix]

/-- The arguments that list the changes since the merge base. -/
def committedMutationArgs (merge_base_sha : Str) : List Str :=
  ["diff", "--name-status", "-z", "--no-renames", "--no-ext-diff", merge_base_sha, "HEAD", "--",
    migrationPrefix]

/-- The arguments that list the staged changes. -/
def cachedMutationArgs : List Str :=
  ["diff", "--cached", "--name-status", "-z", "--no-renames", "--no-ext-diff", "--",
    migrationPrefix]

/-- The arguments that list the unstaged changes. -/
def unstagedMutationArgs : List Str :=
  ["diff", "--name-status", "-z", "--no-renames", "--no-ext-diff", "--", migrationPrefix]

/-- The two checks of `validate_existing_migrations_immutable`. -/
def checkMutations (base_migrations mutations changed_paths : List Str) : Except Failure Unit := do
  let missing_reported_paths := Str.sortedSet (mutations.filter (· ∉ changed_paths))
  raiseIf (missing_reported_paths ≠ []) (gitDiffError
    ("전체 diff 수집에서 실제 migration 변경 경로가 누락되었습니다: " ++
      renderPaths missing_reported_paths))
  let modified_existing_migrations := Str.sortedSet (base_migrations.filter (· ∈ mutations))
  raiseIf (modified_existing_migrations ≠ []) (.HarnessViolation .FAIL "migration.immutable"
    ("기존 Flyway migration은 수정, 삭제, rename할 수 없습니다: " ++
      renderPaths modified_existing_migrations))

/-- `validate_existing_migrations_immutable`. -/
def validateExistingMigrationsImmutable (root : Path) (context : GitContext)
    (changed_paths : List Str) : HarnessM Unit := do
  let base_migrations ← nulPaths root (baseMigrationArgs context.merge_base_sha)
  let committed_mutations ← nameStatus root (committedMutationArgs context.merge_base_sha)
  let cached_mutations ← nameStatus root cachedMutationArgs
  let unstaged_mutations ← nameStatus root unstagedMutationArgs
  liftM (checkMutations base_migrations
    (committed_mutations ++ cached_mutations ++ unstaged_mutations) changed_paths)

/-- If the check passes, no migration of the base has changed. -/
theorem checkMutations_eq_ok {base_migrations mutations changed_paths : List Str} {u : Unit}
    (h : checkMutations base_migrations mutations changed_paths = .ok u) :
    ∀ path ∈ base_migrations, path ∉ mutations := by
  obtain ⟨-, h⟩ := Checked.raiseIf_bind_eq_ok.mp h
  have hnone := not_not.mp (Checked.raiseIf_eq_ok.mp h)
  rw [Str.sortedSet_eq_nil, List.filter_eq_nil_iff] at hnone
  simpa using hnone

/-- A changed migration is not claimed to pass. -/
theorem checkMutations_rejects (base_migrations mutations changed_paths : List Str) :
    ErrorsIn Failure.Rejects (checkMutations base_migrations mutations changed_paths) :=
  (ErrorsIn.raiseIf gitDiffError_rejects).bind fun _ _ => ErrorsIn.raiseIf Failure.rejects_of_ne

/-- `validate_existing_migrations_immutable` is sound. -/
theorem sound_validateExistingMigrationsImmutable (root : Path) (context : GitContext)
    (changed_paths : List Str) :
    Sound (validateExistingMigrationsImmutable root context changed_paths) :=
  (sound_nulPaths _ _).bind fun _ => (sound_nameStatus _ _).bind fun _ =>
    (sound_nameStatus _ _).bind fun _ => (sound_nameStatus _ _).bind fun _ =>
      sound_lift (checkMutations_rejects _ _ _)

end Immutable

/-- `OracleFailure`, or any other exception. -/
inductive OracleError
  | OracleFailure (message : Str)
  | raised (e : Exc)

/-- `V*.sql` of `glob`. -/
def isSqlName (name : Str) : Bool :=
  name.startsWith "V" && Str.endsWith (name.drop 1) ".sql"

/-- The group of `MIGRATION_PATTERN`. -/
def migrationDigits (name : Str) : Option Str :=
  let digits : Str := (name.drop 1).takeWhile CodePoint.isDigit
  let rest : Str := name.drop (1 + digits.length)
  let description : Str := rest.drop 2
  if name.startsWith "V" && digits.head?.any CodePoint.isNonzeroDigit && rest.startsWith "__" &&
      description.endsWith ".sql" && 4 < description.length && !description.contains "/" then
    some digits
  else none

/-- The version of a file of `validate_migration_sequence`. -/
def sequenceVersion (name : Str) : Except OracleError ℤ := do
  let some digits := migrationDigits name
    | throw (.OracleFailure ("Flyway migration 파일명 형식이 올바르지 않습니다: " ++ name))
  (intOfDigits digits).mapError .raised

/-- `validate_migration_sequence`, given the names in the directory of migrations. -/
def validateMigrationSequence (names : List Str) : Except OracleError Str := do
  let files := (names.filter isSqlName).insertionSort fun a b => a ≤ b
  raiseIf (files = []) (.OracleFailure "Flyway migration 파일을 찾지 못했습니다.")
  let versions ← files.mapM sequenceVersion
  raiseIf (¬versions.Nodup) (.OracleFailure "Flyway migration version이 중복되었습니다.")
  let sorted := versions.insertionSort fun a b => a ≤ b
  let highest := versions.foldl max 0
  raiseIf (sorted ≠ (List.range' 1 highest.toNat).map Nat.cast) (.OracleFailure
    ("Flyway migration version이 연속적이지 않습니다: [" ++
      Str.join ", " (sorted.map Str.ofInt) ++ ("]" : Str)))
  return "migration sequence PASS: V1..V" ++ Str.ofInt highest

/-- The version of a file that Flyway loads, named `V<n>__*.sql`. -/
def flywayVersion (name : Str) : Option ℕ :=
  let digits : Str := (name.drop 1).takeWhile CodePoint.isDigit
  let rest : Str := name.drop (1 + digits.length)
  if name.startsWith "V" && digits ≠ [] && rest.startsWith "__" &&
      Str.endsWith (rest.drop 2) ".sql" then
    some (Str.natOfDigits digits)
  else none

section Sequence

/-- A name that the oracle reads is one that Flyway loads, and has the same version. -/
theorem flywayVersion_of_sequenceVersion {name : Str} {version : ℤ}
    (h : sequenceVersion name = .ok version) :
    ∃ n : ℕ, flywayVersion name = some n ∧ version = n := by
  unfold sequenceVersion at h
  cases hdigits : migrationDigits name with
  | none =>
    rw [hdigits] at h
    exact nomatch h
  | some digits =>
    rw [hdigits] at h
    have hint := Checked.mapError_eq_ok.mp h
    unfold intOfDigits at hint
    split at hint
    · exact nomatch hint
    refine ⟨Str.natOfDigits digits, ?_, (Except.ok.inj hint).symm⟩
    obtain ⟨hname, hsome⟩ := Option.ite_none_right_eq_some.mp hdigits
    obtain rfl := Option.some.inj hsome
    simp only [Bool.and_eq_true] at hname
    obtain ⟨⟨⟨⟨⟨hV, hfirst⟩, hbar⟩, hsql⟩, -⟩, -⟩ := hname
    refine if_pos ?_
    have hne : (name.drop 1).takeWhile CodePoint.isDigit ≠ [] := by
      intro hnil
      rw [hnil] at hfirst
      exact nomatch hfirst
    simp only [Bool.and_eq_true, decide_eq_true_eq]
    exact ⟨⟨⟨hV, hne⟩, hbar⟩, hsql⟩

/-- What Flyway loads the oracle looks at. -/
theorem isSqlName_of_flywayVersion {name : Str} {n : ℕ} (h : flywayVersion name = some n) :
    isSqlName name = true := by
  obtain ⟨hname, -⟩ := Option.ite_none_right_eq_some.mp h
  simp only [Bool.and_eq_true] at hname
  obtain ⟨⟨⟨hV, -⟩, -⟩, hsql⟩ := hname
  rw [isSqlName, hV, Bool.true_and]
  rw [Str.endsWith, List.isSuffixOf_iff_suffix] at hsql ⊢
  refine hsql.trans ?_
  rw [← List.drop_drop]
  exact (List.drop_suffix _ _).trans (List.drop_suffix _ _)

/-- **The sequence.** If the oracle passes, the versions of the names in the directory are
those from one on, each once. -/
theorem versions_of_sequence {names : List Str} {text : Str}
    (h : validateMigrationSequence names = .ok text) :
    (names.filterMap flywayVersion).Perm
      (List.range' 1 (names.filterMap flywayVersion).length) := by
  obtain ⟨-, h⟩ := Checked.raiseIf_bind_eq_ok.mp h
  obtain ⟨versions, hversions, h⟩ := Checked.bind_eq_ok.mp h
  obtain ⟨-, h⟩ := Checked.raiseIf_bind_eq_ok.mp h
  obtain ⟨hsorted, -⟩ := Checked.raiseIf_bind_eq_ok.mp h
  rw [not_not] at hsorted
  have hread := Checked.mapM_eq_ok.mp hversions
  have hmap : ∀ {files : List Str} {versions : List ℤ},
      List.Forall₂ (fun name version => sequenceVersion name = .ok version) files versions →
      versions = (files.filterMap flywayVersion).map Nat.cast := by
    intro files versions hread
    induction hread with
    | nil => rfl
    | cons hname _ ih =>
      obtain ⟨n, hn, rfl⟩ := flywayVersion_of_sequenceVersion hname
      rw [List.filterMap_cons_some hn, List.map_cons, ← ih]
  have hfiles : (names.filter isSqlName).filterMap flywayVersion =
      names.filterMap flywayVersion := by
    rw [List.filterMap_filter]
    refine List.filterMap_congr fun name _ => ?_
    cases hname : isSqlName name with
    | true => rfl
    | false =>
      cases hversion : flywayVersion name with
      | none => rfl
      | some n => rw [isSqlName_of_flywayVersion hversion] at hname; exact nomatch hname
  have hperm : (versions.insertionSort fun a b => a ≤ b).Perm
      ((names.filterMap flywayVersion).map Nat.cast) := by
    refine (List.perm_insertionSort _ _).trans ?_
    rw [hmap hread, ← hfiles]
    exact ((List.perm_insertionSort _ _).filterMap _).map _
  rw [hsorted] at hperm
  have hcast := (List.map_perm_map_iff fun _ _ => Int.ofNat.inj).mp hperm
  have hlength := hcast.length_eq
  rw [List.length_range'] at hlength
  rw [← hlength]
  exact hcast.symm

end Sequence

/-- The files of a commit. -/
structure Tree (β : Type) where
  files : List (Str × β)
  /-- A path has one content. -/
  paths_nodup : (files.map Prod.fst).Nodup

namespace Tree

variable {β : Type}

/-- The content of a file. -/
def content (tree : Tree β) (path : Str) : Option β := tree.files.lookup path

/-- The path lies below the directory of migrations. -/
def Below (path : Str) : Prop := path.startsWith migrationPrefix = true

instance (path : Str) : Decidable (Below path) := inferInstanceAs (Decidable (_ = _))

/-- The segments of a path after the directory of migrations. -/
def segments (path : Str) : List Str := Str.split (path.drop migrationPrefix.length) .slash

/-- The version under which Flyway loads a file, if it does. -/
def version (path : Str) : Option ℕ :=
  if Below path then (segments path).getLast?.bind flywayVersion else none

/-- The files that Flyway loads, at any depth. -/
def migrations (tree : Tree β) : List (Str × β) :=
  tree.files.filter fun file => (version file.1).isSome

/-- The versions of some files. -/
def versions (files : List (Str × β)) : List ℕ := files.filterMap fun file => version file.1

/-- The file lies directly in the directory of migrations. -/
def IsDirect (file : Str × β) : Prop := (segments file.1).length = 1

instance (file : Str × β) : Decidable (IsDirect file) := inferInstanceAs (Decidable (_ = _))

/-- The names of the files in the directory of migrations. -/
def fileNames (tree : Tree β) : List Str :=
  (tree.files.filter fun file => Below file.1 ∧ IsDirect file).map fun file =>
    (segments file.1).headD []

/-- The names of the subdirectories of the directory of migrations. -/
def directoryNames (tree : Tree β) : List Str :=
  ((tree.files.filter fun file => Below file.1 ∧ ¬IsDirect file).map fun file =>
    (segments file.1).headD []).dedup

/-- The names in the directory of migrations. -/
def names (tree : Tree β) : List Str := tree.fileNames ++ tree.directoryNames

/-- The versions of the migrations directly in the directory. -/
def directVersions (tree : Tree β) : List ℕ := versions (tree.migrations.filter (IsDirect ·))

/-- The versions of the migrations in subdirectories. -/
def nestedVersions (tree : Tree β) : List ℕ := versions (tree.migrations.filter (¬IsDirect ·))

/-- The versions that the oracle reads off the names of subdirectories. -/
def directoryVersions (tree : Tree β) : List ℕ := tree.directoryNames.filterMap flywayVersion

/-- What Flyway loads from the candidate is what it loads from the base, unchanged, and
new files with the versions from `m + 1` on, each once. -/
def AppendsOnly (base candidate : Tree β) (m : ℕ) : Prop :=
  ∃ new n, m ≤ n ∧ candidate.migrations.Perm (base.migrations ++ new) ∧
    (versions new).Perm (List.range' (m + 1) (n - m))

/-- Up to some version `n`, the migrations in subdirectories have, each once, the versions
that the oracle takes from the names of subdirectories, and those after the last one that
it knows of. -/
def SubdirectoriesContinue (tree : Tree β) : Prop :=
  ∃ n, (∀ v ∈ tree.directVersions, v ≤ n) ∧
    tree.nestedVersions.Perm (tree.directoryVersions.filter (· ≤ n) ++
      List.range' ((tree.directVersions ++ tree.directoryVersions).length + 1)
        (n - (tree.directVersions ++ tree.directoryVersions).length))

/-- The content of a path is that of its file. -/
theorem content_eq_some {tree : Tree β} {path : Str} {b : β} :
    tree.content path = some b ↔ (path, b) ∈ tree.files := by
  constructor
  · intro h
    obtain ⟨pre, post, hfiles, -⟩ := List.lookup_eq_some_iff.mp h
    exact hfiles ▸ List.mem_append_right _ List.mem_cons_self
  · intro h
    obtain ⟨pre, post, hfiles⟩ := List.append_of_mem h
    refine List.lookup_eq_some_iff.mpr ⟨pre, post, hfiles, fun entry hentry => ?_⟩
    have hnodup := tree.paths_nodup
    rw [hfiles, List.map_append, List.nodup_append] at hnodup
    have hne := hnodup.2.2 entry.1 (List.mem_map_of_mem hentry) path List.mem_cons_self
    simpa using hne.symm

/-- More files differ where they are. -/
theorem content_ne_append_iff {base candidate : Tree β} {new : List (Str × β)}
    (hfiles : candidate.files = base.files ++ new) {path : Str} :
    base.content path ≠ candidate.content path ↔ path ∈ new.map Prod.fst := by
  have hnodup := candidate.paths_nodup
  rw [hfiles, List.map_append, List.nodup_append] at hnodup
  rw [content, content, hfiles, List.lookup_append]
  by_cases hbase : path ∈ base.files.map Prod.fst
  · have hnew : path ∉ new.map Prod.fst := fun hnew => hnodup.2.2 path hbase path hnew rfl
    obtain ⟨file, hfile, rfl⟩ := List.mem_map.mp hbase
    rw [show base.files.lookup file.1 = some file.2 from content_eq_some.mpr hfile]
    simp [hnew]
  · have hnone : base.files.lookup path = none := by
      refine List.lookup_eq_none_iff.mpr fun entry hentry => ?_
      have hne : path ≠ entry.1 := by
        rintro rfl
        exact hbase (List.mem_map_of_mem hentry)
      simpa using hne
    rw [hnone, Option.none_or]
    constructor
    · intro hne
      by_contra hnew
      refine hne (List.lookup_eq_none_iff.mpr fun entry hentry => ?_).symm
      have hne : path ≠ entry.1 := by
        rintro rfl
        exact hnew (List.mem_map_of_mem hentry)
      simpa using hne
    · intro hnew heq
      obtain ⟨entry, hentry, rfl⟩ := List.mem_map.mp hnew
      have hlookup := List.lookup_eq_none_iff.mp heq.symm entry hentry
      simp at hlookup

/-- The migrations of a tree are its files with a version. -/
theorem mem_migrations {tree : Tree β} {file : Str × β} :
    file ∈ tree.migrations ↔ file ∈ tree.files ∧ (version file.1).isSome = true := List.mem_filter

/-- Only files below the directory have a version. -/
theorem version_isSome_below {path : Str} (h : (version path).isSome = true) : Below path := by
  unfold version at h
  split at h
  · assumption
  · exact nomatch h

/-- Every migration lies directly in the directory or in a subdirectory. -/
theorem versions_perm (tree : Tree β) :
    (versions tree.migrations).Perm (tree.directVersions ++ tree.nestedVersions) := by
  rw [directVersions, nestedVersions, versions, versions, versions, ← List.filterMap_append]
  refine List.Perm.filterMap _ ?_
  have hsplit := List.filter_append_perm (fun file : Str × β => decide (IsDirect file))
    tree.migrations
  simpa only [decide_not] using hsplit.symm

/-- Names of files are read by Flyway as by the oracle. -/
theorem fileNames_versions (tree : Tree β) :
    tree.fileNames.filterMap flywayVersion = tree.directVersions := by
  rw [fileNames, directVersions, versions, migrations, List.filter_filter, List.filterMap_map,
    List.filterMap_filter, List.filterMap_filter]
  refine List.filterMap_congr fun file _ => ?_
  by_cases hdirect : IsDirect file
  · obtain ⟨name, hname⟩ := List.length_eq_one_iff.mp hdirect
    by_cases hbelow : Below file.1
    · have hversion : version file.1 = flywayVersion name := by
        rw [version, if_pos hbelow, hname]
        rfl
      cases hsome : flywayVersion name with
      | none => simp [hdirect, hbelow, hversion, hsome, hname]
      | some n => simp [hdirect, hbelow, hversion, hsome, hname]
    · have hversion : version file.1 = none := if_neg hbelow
      simp [hbelow, hversion]
  · simp [hdirect]

/-- The numbers up to `n` are those up to `k` and the ones after them. -/
theorem range'_perm_filter (k n : ℕ) : (List.range' 1 n).Perm
    ((List.range' 1 k).filter (· ≤ n) ++ List.range' (k + 1) (n - k)) := by
  refine (List.perm_ext_iff_of_nodup List.nodup_range' ?_).mpr fun v => ?_
  · refine List.nodup_append.mpr ⟨List.Nodup.filter _ List.nodup_range', List.nodup_range', ?_⟩
    rintro v hv w hw rfl
    have hlow := (List.mem_range'_1.mp (List.mem_of_mem_filter hv)).2
    have hhigh := (List.mem_range'_1.mp hw).1
    omega
  · simp only [List.mem_append, List.mem_filter, List.mem_range'_1, decide_eq_true_eq]
    omega

/-- If the oracle passes, the versions of all migrations are those from one on, each once,
exactly if the subdirectories continue the directory. -/
theorem versions_iff_continue {tree : Tree β} {text : Str}
    (hsequence : validateMigrationSequence tree.names = .ok text) :
    (∃ n, (versions tree.migrations).Perm (List.range' 1 n)) ↔ tree.SubdirectoriesContinue := by
  have hnames := versions_of_sequence hsequence
  rw [names, List.filterMap_append, fileNames_versions, ← directoryVersions] at hnames
  refine exists_congr fun n => ?_
  have hall := (range'_perm_filter (tree.directVersions ++ tree.directoryVersions).length n)
  have hknown := (hnames.filter (· ≤ n)).symm
  rw [List.filter_append] at hknown
  constructor
  · intro h
    have hperm := tree.versions_perm.symm.trans h
    have hle : ∀ v ∈ tree.directVersions, v ≤ n := by
      intro v hv
      have hmem := hperm.subset (List.mem_append_left _ hv)
      have hlt := (List.mem_range'_1.mp hmem).2
      omega
    rw [List.filter_eq_self.mpr fun v hv => decide_eq_true (hle v hv)] at hknown
    refine ⟨hle, (List.perm_append_left_iff tree.directVersions).mp (hperm.trans ?_)⟩
    rw [← List.append_assoc]
    exact hall.trans (hknown.append_right _)
  · rintro ⟨hle, hnested⟩
    rw [List.filter_eq_self.mpr fun v hv => decide_eq_true (hle v hv)] at hknown
    refine tree.versions_perm.trans ((hnested.append_left _).trans ?_)
    rw [← List.append_assoc]
    exact ((hknown.append_right _).symm).trans hall.symm

/-- If no file of the base was changed, only migrations were added. -/
theorem exists_new {base candidate : Tree β} (hnodup : base.migrations.Nodup)
    (hsame : ∀ path ∈ base.files.map Prod.fst, Below path →
      base.content path = candidate.content path) :
    ∃ new, candidate.migrations.Perm (base.migrations ++ new) := by
  have hsubset : base.migrations ⊆ candidate.migrations := by
    rintro ⟨path, b⟩ hmem
    obtain ⟨hfile, hversion⟩ := mem_migrations.mp hmem
    have hcontent := hsame path (List.mem_map_of_mem hfile) (version_isSome_below hversion)
    rw [content_eq_some.mpr hfile] at hcontent
    exact mem_migrations.mpr ⟨content_eq_some.mp hcontent.symm, hversion⟩
  obtain ⟨kept, hkept, hsublist⟩ := List.subperm_of_subset hnodup hsubset
  obtain ⟨new, hnew⟩ := hsublist.exists_perm_append
  exact ⟨new, hnew.trans (hkept.append_right new)⟩

end Tree

section History

variable {β : Type}

/-- What Git prints for the commands of `validate_existing_migrations_immutable`, if the
worktree is clean. -/
structure ListsMigrations (merge_base_sha : Str) (base candidate : Tree β) (command : List Str)
    (stdout : Bytes) : Prop where
  base_paths : command = ("git" : Str) :: baseMigrationArgs merge_base_sha →
    ∃ tokens : List Bytes, stdout = terminated 0 tokens ∧ (∀ token ∈ tokens, IsToken token) ∧
      ∀ path, path ∈ tokens.map Bytes.decodeSurrogateescape ↔
        path ∈ base.files.map Prod.fst ∧ Tree.Below path
  mutations : command = ("git" : Str) :: committedMutationArgs merge_base_sha →
    ∃ entries : List (Bytes × Bytes),
      stdout = terminated 0 (entries.flatMap fun entry => [entry.1, entry.2]) ∧
      (∀ entry ∈ entries, IsPlainStatus entry.1 ∧ IsToken entry.2) ∧
      ∀ path, path ∈ entries.map (fun entry => Bytes.decodeSurrogateescape entry.2) ↔
        base.content path ≠ candidate.content path ∧ Tree.Below path
  clean : command = ("git" : Str) :: cachedMutationArgs ∨
    command = ("git" : Str) :: unstagedMutationArgs → stdout = []

/-- Git reports the two trees exactly. -/
def ReportsExactly (merge_base_sha : Str) (base candidate : Tree β) :
    (op : Op) → op.Answer → Prop
  | .run command _ _, .ok result => result.returncode = 0 →
    ListsMigrations merge_base_sha base candidate command result.stdout
  | _, _ => True

/-- If the first validator passes, the files of the base are unchanged. -/
theorem content_eq_of_immutable [ByteRuntime] {base candidate : Tree β} {root : Path}
    {context : GitContext} {changed_paths : List Str} {steps : Trace}
    (hgit : ∀ step ∈ steps,
      ReportsExactly context.merge_base_sha base candidate step.op step.answer)
    (h : (validateExistingMigrationsImmutable root context changed_paths).replay steps =
      some (.ok ())) :
    ∀ path ∈ base.files.map Prod.fst, Tree.Below path →
      base.content path = candidate.content path := by
  obtain ⟨base_migrations, _, steps, rfl, hlisted, hafter⟩ := Script.replay_bind_ok.mp h
  obtain ⟨listed, hzero, hbase, rfl⟩ := parsed_replay_ok hlisted
  obtain ⟨committed, _, steps, rfl, hcommitted, hafter'⟩ := Script.replay_bind_ok.mp hafter
  obtain ⟨changes, hzero', hchanges, rfl⟩ := parsed_replay_ok hcommitted
  obtain ⟨cached, third, steps, rfl, -, hlast⟩ := Script.replay_bind_ok.mp hafter'
  obtain ⟨unstaged, fourth, last, rfl, -, hchecked⟩ := Script.replay_bind_ok.mp hlast
  have hkept := checkMutations_eq_ok (Script.replay_ofExcept.mp hchecked).2.symm
  obtain ⟨tokens, hstdout, htokens, hpaths⟩ :=
    (hgit ⟨.run _ root false, .ok listed⟩ (by simp) hzero).base_paths rfl
  rw [hstdout, parseNulPaths_terminated htokens] at hbase
  obtain ⟨entries, hstdout', hentries, hmutations⟩ :=
    (hgit ⟨.run _ root false, .ok changes⟩ (by simp) hzero').mutations rfl
  rw [hstdout', parseNameStatus_terminated hentries] at hchanges
  obtain rfl := Except.ok.inj hbase
  obtain rfl := Except.ok.inj hchanges
  intro path hpath hbelow
  by_contra hdiffers
  refine hkept path ((hpaths path).mpr ⟨hpath, hbelow⟩) ?_
  exact List.mem_append_left _ (List.mem_append_left _ ((hmutations path).mpr ⟨hdiffers, hbelow⟩))

/-- **When the history of migrations only grows.** If both validators pass for a base whose
migrations have the versions up to `m`, Flyway loads the same migrations and new ones with
the versions after `m` if and only if the subdirectories continue the directory. -/
theorem migrations_appendOnly_iff [ByteRuntime] {base candidate : Tree β} {m : ℕ}
    (hbase : (Tree.versions base.migrations).Perm (List.range' 1 m)) (root : Path)
    (context : GitContext) (changed_paths : List Str) {steps : Trace} {text : Str}
    (hgit : ∀ step ∈ steps,
      ReportsExactly context.merge_base_sha base candidate step.op step.answer)
    (himmutable : (validateExistingMigrationsImmutable root context changed_paths).replay steps =
      some (.ok ()))
    (hsequence : validateMigrationSequence candidate.names = .ok text) :
    Tree.AppendsOnly base candidate m ↔ candidate.SubdirectoriesContinue := by
  rw [← Tree.versions_iff_continue hsequence]
  constructor
  · rintro ⟨new, n, hle, hperm, hnew⟩
    refine ⟨n, (hperm.filterMap _).trans ?_⟩
    rw [List.filterMap_append]
    refine (hbase.append hnew).trans (.of_eq ?_)
    have happend := List.range'_append_1 (s := 1) (m := m) (n := n - m)
    rwa [Nat.add_comm 1 m, Nat.add_sub_cancel' hle] at happend
  · rintro ⟨n, hversions⟩
    have hnodup : base.migrations.Nodup := (List.Nodup.of_map _ base.paths_nodup).filter _
    obtain ⟨new, hnew⟩ := Tree.exists_new hnodup (content_eq_of_immutable hgit himmutable)
    have hsplit : (List.range' 1 m ++ Tree.versions new).Perm (List.range' 1 n) := by
      refine (hbase.symm.append_right _).trans (.trans ?_ hversions)
      rw [Tree.versions, Tree.versions, ← List.filterMap_append]
      exact (hnew.filterMap _).symm
    have hle : m ≤ n := by
      have hlength := hsplit.length_eq
      rw [List.length_append, List.length_range', List.length_range'] at hlength
      omega
    refine ⟨new, n, hle, hnew, (List.perm_append_left_iff (List.range' 1 m)).mp ?_⟩
    refine hsplit.trans (.of_eq ?_)
    have happend := List.range'_append_1 (s := 1) (m := m) (n := n - m)
    rw [Nat.add_comm 1 m, Nat.add_sub_cancel' hle] at happend
    exact happend.symm

end History

namespace Sample

/-- The path of a file below the directory of migrations. -/
def migrationPath (name : String) : Str := migrationPrefix ++ (name : Str)

/-- The path as Git prints it. -/
def migrationToken (name : String) : Bytes :=
  Bytes.ofString "src/main/resources/db/migration/" ++ Bytes.ofString name

/-- A merge base with one migration. -/
def baseTree : Tree ℕ := ⟨[(migrationPath "V1__init.sql", 0)], List.nodup_singleton _⟩

/-- What Git answers if the candidate has the given files besides. -/
def gitSteps (new : List String) : Trace :=
  let answer (args : List Str) (stdout : Bytes) : Step Op.Answer :=
    ⟨.run (("git" : Str) :: args) (.ofStr "/repo") false, .ok ⟨0, stdout, []⟩⟩
  [answer (baseMigrationArgs "1f7a7a47") (terminated 0 [migrationToken "V1__init.sql"]),
    answer (committedMutationArgs "1f7a7a47")
      (terminated 0 (new.flatMap fun name => [Bytes.ofString "A", migrationToken name])),
    answer cachedMutationArgs [], answer unstagedMutationArgs []]

/-- The run's commits. -/
def context : GitContext :=
  ⟨"docs/7-guide", "main", "1f7a7a47", "1f7a7a47", "09fac8db", "09fac8db"⟩

/-- Git answers truthfully about a candidate that only has more files. -/
theorem gitSteps_report {candidate : Tree ℕ} {new : List String}
    (hfiles : candidate.files = baseTree.files ++ new.map fun name => (migrationPath name, 0))
    (hnew : ∀ name ∈ new, IsToken (migrationToken name) ∧
      Bytes.decodeSurrogateescape (migrationToken name) = migrationPath name ∧
      Tree.Below (migrationPath name)) :
    ∀ step ∈ gitSteps new, ReportsExactly context.merge_base_sha baseTree candidate step.op
      step.answer := by
  have hdiffer : baseMigrationArgs context.merge_base_sha ≠
        committedMutationArgs context.merge_base_sha ∧
      (∀ args ∈ [cachedMutationArgs, unstagedMutationArgs],
        args ≠ baseMigrationArgs context.merge_base_sha ∧
        args ≠ committedMutationArgs context.merge_base_sha) := by decide +kernel
  obtain ⟨hargs, hclean⟩ := hdiffer
  simp only [List.forall_mem_cons, List.not_mem_nil, false_implies, implies_true, and_true]
    at hclean
  obtain ⟨⟨hcached, hcached'⟩, hunstaged, hunstaged'⟩ := hclean
  have hbase : [migrationToken "V1__init.sql"].map Bytes.decodeSurrogateescape =
      baseTree.files.map Prod.fst := by decide +kernel
  have hbelow : ∀ path ∈ baseTree.files.map Prod.fst, Tree.Below path := by decide +kernel
  have htokens : ∀ token ∈ [migrationToken "V1__init.sql"], IsToken token := by decide +kernel
  have hpaths : new.map (fun name => Bytes.decodeSurrogateescape (migrationToken name)) =
      new.map migrationPath := List.map_congr_left fun name hname => (hnew name hname).2.1
  simp only [gitSteps, List.forall_mem_cons, List.not_mem_nil, false_implies, implies_true,
    and_true]
  refine ⟨fun _ => ⟨fun _ => ⟨_, rfl, htokens, fun path => ?_⟩, fun h => ?_, fun h => ?_⟩,
    fun _ => ⟨fun h => ?_, fun _ => ?_, fun h => ?_⟩,
    fun _ => ⟨fun h => ?_, fun h => ?_, fun _ => rfl⟩,
    fun _ => ⟨fun h => ?_, fun h => ?_, fun _ => rfl⟩⟩
  · rw [hbase]
    exact ⟨fun h => ⟨h, hbelow path h⟩, And.left⟩
  · exact absurd (List.cons.inj h).2 hargs
  · rcases h with h | h
    · exact absurd (List.cons.inj h).2.symm hcached
    · exact absurd (List.cons.inj h).2.symm hunstaged
  · exact absurd (List.cons.inj h).2.symm hargs
  · refine ⟨new.map fun name => (Bytes.ofString "A", migrationToken name), ?_, ?_, fun path => ?_⟩
    · rw [List.flatMap_map]
    · refine List.forall_mem_map.mpr fun name hname =>
        ⟨List.mem_cons_self, (hnew name hname).1⟩
    · rw [List.map_map, Function.comp_def, hpaths,
        Tree.content_ne_append_iff hfiles,
        List.map_map, Function.comp_def]
      refine ⟨fun h => ⟨h, ?_⟩, And.left⟩
      obtain ⟨name, hname, rfl⟩ := List.mem_map.mp h
      exact (hnew name hname).2.2
  · rcases h with h | h
    · exact absurd (List.cons.inj h).2.symm hcached'
    · exact absurd (List.cons.inj h).2.symm hunstaged'
  · exact absurd (List.cons.inj h).2 hcached
  · exact absurd (List.cons.inj h).2 hcached'
  · exact absurd (List.cons.inj h).2 hunstaged
  · exact absurd (List.cons.inj h).2 hunstaged'

end Sample

/-- A new migration in a subdirectory that has the next version. -/
theorem migrations_appendOnly_iff_archived :
    ∃ candidate : Tree ℕ, candidate.migrations.length = 3 ∧
      Tree.AppendsOnly Sample.baseTree candidate 1 := by
  let new := ["V2__more.sql", "archive/V3__late.sql"]
  let candidate : Tree ℕ := ⟨Sample.baseTree.files ++
    new.map fun name => (Sample.migrationPath name, 0), by decide +kernel⟩
  refine ⟨candidate, by decide +kernel, ?_⟩
  exact (migrations_appendOnly_iff (by decide +kernel) (.ofStr "/repo") Sample.context
    (new.map Sample.migrationPath) (Sample.gitSteps_report rfl (by decide +kernel))
    (by decide +kernel) rfl).mpr ⟨3, by decide +kernel, by decide +kernel⟩

/-- The two validators miss a second migration of a version in a subdirectory. -/
theorem not_migrations_appendOnly :
    ¬∀ (base candidate : Tree ℕ) (m : ℕ) (root : Path) (context : GitContext)
      (changed_paths : List Str) (steps : Trace) (text : Str),
      (Tree.versions base.migrations).Perm (List.range' 1 m) →
      (∀ step ∈ steps,
        ReportsExactly context.merge_base_sha base candidate step.op step.answer) →
      (validateExistingMigrationsImmutable root context changed_paths).replay steps =
        some (.ok ()) →
      validateMigrationSequence candidate.names = .ok text →
      Tree.AppendsOnly base candidate m := by
  intro h
  let new := ["archive/V1__again.sql"]
  let candidate : Tree ℕ := ⟨Sample.baseTree.files ++
    new.map fun name => (Sample.migrationPath name, 0), by decide +kernel⟩
  obtain ⟨added, n, hle, hperm, hversions⟩ := h Sample.baseTree candidate 1 (.ofStr "/repo")
    Sample.context (new.map Sample.migrationPath) (Sample.gitSteps new) _ (by decide +kernel)
    (Sample.gitSteps_report rfl (by decide +kernel)) (by decide +kernel) rfl
  have hall : (Tree.versions candidate.migrations).Perm
      (Tree.versions Sample.baseTree.migrations ++ Tree.versions added) := by
    rw [Tree.versions, Tree.versions, Tree.versions, ← List.filterMap_append]
    exact hperm.filterMap _
  have hnodup := (hall.trans (hversions.append_left _)).nodup_iff.mpr ?_
  · exact absurd hnodup (by decide +kernel)
  · have hone : Tree.versions Sample.baseTree.migrations = [1] := by decide +kernel
    rw [hone, List.singleton_append, List.nodup_cons, List.mem_range'_1]
    exact ⟨by omega, List.nodup_range'⟩

end CoffeeOrder.Harness
