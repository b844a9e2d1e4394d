import CoffeeOrder.Harness.Git
import CoffeeOrder.Harness.RequiredChecks

/-!
# What the diff hash identifies

`compute_diff_hash` feeds the digest with the tracked diff and, for each untracked file,
with its path, a NUL, its content and a NUL. The kind of a file is not written, and a NUL in
a content looks like the end of the content.
-/

namespace CoffeeOrder.Harness

open Kit Python

/-- An untracked file: a symlink, whose content is its target, or a regular file. -/
structure UntrackedFile where
  path : Bytes
  isLink : Bool
  content : Bytes
  path_valid : IsToken path
  target_valid : isLink = true → IsToken content
  deriving DecidableEq

namespace UntrackedFile

/-- The path as Python has it. -/
def name (file : UntrackedFile) : Str := Bytes.decodeSurrogateescape file.path

/-- What `lstat` says of the file. -/
def kind (file : UntrackedFile) : FileKind := if file.isLink then .symlink else .regular

/-- What the digest takes in for the file. -/
def entry (file : UntrackedFile) : Bytes := file.path ++ [0] ++ file.content ++ [0]

/-- The path and the content of the file. -/
def text (file : UntrackedFile) : Bytes × Bytes := (file.path, file.content)

/-- The path and the content of the file, cut at its NULs. -/
def pieces (file : UntrackedFile) : List Bytes := file.path :: file.content.splitOn 0

/-- A file is known by its text and its kind. -/
theorem text_and_isLink {file file' : UntrackedFile} (htext : file.text = file'.text)
    (hkind : file.isLink = file'.isLink) : file = file' := by
  obtain ⟨path, isLink, content, _, _⟩ := file
  obtain ⟨path', isLink', content', _, _⟩ := file'
  obtain ⟨rfl, rfl⟩ := Prod.mk.inj htext
  obtain rfl : isLink = isLink' := hkind
  rfl

/-- The digest takes in the pieces, each with a NUL after it. -/
theorem terminated_pieces (file : UntrackedFile) : terminated 0 file.pieces = file.entry := by
  have hcontent : terminated 0 (file.content.splitOn 0) = file.content ++ [0] := by
    rw [terminated_eq_intercalate (List.splitOn_ne_nil 0 _), List.intercalate_splitOn]
  have hcons : terminated 0 file.pieces =
      file.path ++ [0] ++ terminated 0 (file.content.splitOn 0) := List.flatMap_cons
  rw [hcons, hcontent, entry, ← List.append_assoc]

/-- No piece holds a NUL. -/
theorem pieces_valid (file : UntrackedFile) : ∀ piece ∈ file.pieces, 0 ∉ piece :=
  List.forall_mem_cons.mpr ⟨file.path_valid.2, not_mem_segment file.content⟩

/-- A content without a NUL is one piece. -/
theorem pieces_of_not_mem {file : UntrackedFile} (h : 0 ∉ file.content) :
    file.pieces = [file.path, file.content] := by
  rw [pieces, List.splitOn_eq_singleton h]

end UntrackedFile

/-- What the hash depends on: the tracked diff, the changed paths and, in Git's order, the
untracked files, which are changed paths. -/
structure Worktree where
  rawDiff : Bytes
  changed_paths : List Str
  untracked : List UntrackedFile
  paths_nodup : (untracked.map (·.path)).Nodup
  untracked_changed : ∀ file ∈ untracked, file.name ∈ changed_paths

namespace Worktree

/-- The arguments of `git diff`. -/
def diffArgs (merge_base_sha : Str) : List Str :=
  ["diff", "--binary", "--no-ext-diff", "--no-textconv", merge_base_sha, "--"]

/-- The arguments of `git ls-files`. -/
def untrackedArgs : List Str := ["ls-files", "--others", "--exclude-standard", "-z"]

/-- What Git lists as untracked. -/
def listing (w : Worktree) : Bytes := terminated 0 (w.untracked.map (·.path))

/-- Git and the file system answer about this worktree. -/
def Answers (w : Worktree) (root resolved : Path) (merge_base_sha : Str) :
    (op : Op) → op.Answer → Prop
  | .run command _ _, answer =>
    (command = ("git" : Str) :: diffArgs merge_base_sha →
      ∃ stderr, answer = .ok ⟨0, w.rawDiff, stderr⟩) ∧
    (command = ("git" : Str) :: untrackedArgs → ∃ stderr, answer = .ok ⟨0, w.listing, stderr⟩)
  | .resolve path strict, answer => path = root → strict = false → answer = .ok resolved
  | .lstat path, answer =>
    ∀ file ∈ w.untracked, path = resolved.join (.ofStr file.name) → answer = .ok file.kind
  | .readlink path, answer =>
    ∀ file ∈ w.untracked, path = resolved.join (.ofStr file.name) → file.isLink = true →
      answer = .ok (Bytes.decodeSurrogateescape file.content)
  | .readBytes path, answer =>
    ∀ file ∈ w.untracked, path = resolved.join (.ofStr file.name) → file.isLink = false →
      answer = .ok file.content
  | _, _ => True

/-- The digest is that of a run in which the answers are about this worktree. -/
def Hashes [ByteRuntime] (w : Worktree) (digest : Str) : Prop :=
  ∃ (root resolved : Path) (context : GitContext) (steps : Trace),
    (∀ step ∈ steps, w.Answers root resolved context.merge_base_sha step.op step.answer) ∧
      (computeDiffHash root context w.changed_paths).replay steps = some (.ok digest)

/-- The names of the untracked files, sorted. -/
def names (w : Worktree) : List Str := Str.sortedSet (w.untracked.map UntrackedFile.name)

/-- The untracked files, sorted by their names. -/
def hashed (w : Worktree) : List UntrackedFile :=
  w.names.filterMap fun name => w.untracked.find? fun file => file.name = name

/-- The bytes that are hashed. -/
def stream (w : Worktree) : Bytes := w.rawDiff ++ w.hashed.flatMap UntrackedFile.entry

/-- The paths and contents of the untracked files, cut at their NULs. -/
def pieces (w : Worktree) : List Bytes := w.hashed.flatMap UntrackedFile.pieces

/-- The paths and contents of the untracked files. -/
def texts (w : Worktree) : List (Bytes × Bytes) := w.hashed.map UntrackedFile.text

/-- The same untracked files, with the same kinds and contents. -/
def SameFiles (w w' : Worktree) : Prop := ∀ file, file ∈ w.untracked ↔ file ∈ w'.untracked

/-- Only the kinds of files differ. -/
def LosesKinds (w w' : Worktree) : Prop :=
  w.texts = w'.texts ∧ w.hashed.map (·.isLink) ≠ w'.hashed.map (·.isLink)

/-- Paths or contents differ, but not when they are cut at their NULs. -/
def Regroups (w w' : Worktree) : Prop := w.texts ≠ w'.texts ∧ w.pieces = w'.pieces

instance (w w' : Worktree) : Decidable (w.Regroups w') := inferInstanceAs (Decidable (_ ∧ _))

end Worktree

namespace Worktree

/-- Two untracked files have different names. -/
theorem names_injective {w : Worktree} {file file' : UntrackedFile} (hfile : file ∈ w.untracked)
    (hfile' : file' ∈ w.untracked) (h : file.name = file'.name) : file = file' :=
  List.inj_on_of_nodup_map w.paths_nodup hfile hfile' (Bytes.decodeSurrogateescape_injective h)

/-- A file is found by its name. -/
theorem find_name {w : Worktree} {file : UntrackedFile} (hfile : file ∈ w.untracked) :
    (w.untracked.find? fun other => other.name = file.name) = some file := by
  cases hfind : w.untracked.find? fun other => other.name = file.name with
  | none => exact absurd (decide_eq_true rfl) (List.find?_eq_none.mp hfind file hfile)
  | some other =>
    have hname : other.name = file.name := by simpa using List.find?_some hfind
    rw [names_injective (List.mem_of_find?_eq_some hfind) hfile hname]

/-- The hashed files are the untracked ones. -/
theorem mem_hashed {w : Worktree} {file : UntrackedFile} :
    file ∈ w.hashed ↔ file ∈ w.untracked := by
  constructor
  · intro h
    obtain ⟨name, -, hfind⟩ := List.mem_filterMap.mp h
    exact List.mem_of_find?_eq_some hfind
  · intro h
    have hname : file.name ∈ w.names := Str.mem_sortedSet.mpr (List.mem_map_of_mem h)
    exact List.mem_filterMap.mpr ⟨file.name, hname, find_name h⟩

/-- The same untracked files are hashed in the same order. -/
theorem sameFiles_iff {w w' : Worktree} : w.SameFiles w' ↔ w.hashed = w'.hashed := by
  constructor
  · intro h
    have hnames : w.names = w'.names := Str.sortedSet_congr fun name => by
      simp only [List.mem_map, h _]
    rw [hashed, hashed, hnames]
    apply List.filterMap_congr
    intro name hname
    obtain ⟨file, hfile, rfl⟩ := List.mem_map.mp (Str.mem_sortedSet.mp hname)
    rw [find_name hfile, find_name ((h file).mpr hfile)]
  · intro h file
    rw [← mem_hashed, h, mem_hashed]

/-- Files are told apart by their paths, contents and kinds. -/
theorem hashed_eq_iff {w w' : Worktree} : w.hashed = w'.hashed ↔
    w.texts = w'.texts ∧ w.hashed.map (·.isLink) = w'.hashed.map (·.isLink) := by
  constructor
  · intro h
    rw [texts, texts, h]
    exact ⟨rfl, rfl⟩
  · rintro ⟨htexts, hkinds⟩
    have hpair : Function.Injective fun file : UntrackedFile => (file.text, file.isLink) := by
      intro file file' h
      obtain ⟨htext, hkind⟩ := Prod.mk.inj h
      exact UntrackedFile.text_and_isLink htext hkind
    have hzip (w : Worktree) : w.hashed.map (fun file => (file.text, file.isLink)) =
        w.texts.zip (w.hashed.map (·.isLink)) := List.zip_map'.symm
    apply List.map_injective_iff.mpr hpair
    rw [hzip, hzip, htexts, hkinds]

/-- The hashed bytes are the tracked diff and the pieces, each with a NUL after it. -/
theorem stream_eq (w : Worktree) : w.stream = w.rawDiff ++ terminated 0 w.pieces := by
  have hentries : terminated 0 w.pieces = w.hashed.flatMap UntrackedFile.entry := by
    rw [pieces, terminated, List.flatMap_assoc]
    exact List.flatMap_congr fun file _ => file.terminated_pieces
  rw [stream, hentries]

/-- Worktrees with the same tracked diff have the same stream if their pieces are the same. -/
theorem stream_eq_iff {w w' : Worktree} (hdiff : w.rawDiff = w'.rawDiff) :
    w.stream = w'.stream ↔ w.pieces = w'.pieces := by
  have hvalid (w : Worktree) : ∀ piece ∈ w.pieces, 0 ∉ piece := by
    intro piece hpiece
    obtain ⟨file, -, hmem⟩ := List.mem_flatMap.mp hpiece
    exact file.pieces_valid piece hmem
  rw [stream_eq, stream_eq, hdiff, List.append_cancel_left_eq]
  constructor
  · exact fun h => terminated_inj (hvalid w) (hvalid w') h
  · exact fun h => congrArg _ h

/-- The same paths and contents are cut into the same pieces. -/
theorem pieces_of_texts {w w' : Worktree} (h : w.texts = w'.texts) : w.pieces = w'.pieces := by
  have hpieces (w : Worktree) :
      w.pieces = w.texts.flatMap fun text => text.1 :: text.2.splitOn 0 := by
    rw [texts, List.flatMap_map]
    rfl
  rw [hpieces, hpieces, h]

/-- Only contents with a NUL are grouped otherwise. -/
theorem Regroups.exists_nul {w w' : Worktree} (h : w.Regroups w') :
    ∃ file, (file ∈ w.untracked ∨ file ∈ w'.untracked) ∧ file.isLink = false ∧
      0 ∈ file.content := by
  by_contra hnone
  have hplain : ∀ file, file ∈ w.untracked ∨ file ∈ w'.untracked → 0 ∉ file.content := by
    intro file hfile hzero
    apply hnone
    refine ⟨file, hfile, Bool.eq_false_iff.mpr fun hlink => ?_, hzero⟩
    exact (file.target_valid hlink).2 hzero
  have hpieces (v : Worktree) (hv : ∀ file ∈ v.untracked, 0 ∉ file.content) :
      v.pieces = v.texts.flatMap fun text => [text.1, text.2] := by
    rw [texts, List.flatMap_map]
    apply List.flatMap_congr
    intro file hfile
    exact UntrackedFile.pieces_of_not_mem (hv file (mem_hashed.mp hfile))
  have hpairs : Function.Injective fun texts : List (Bytes × Bytes) =>
      texts.flatMap fun text => [text.1, text.2] := by
    intro texts texts' h
    induction texts generalizing texts' with
    | nil =>
      cases texts' with
      | nil => rfl
      | cons => exact nomatch h
    | cons text texts ih =>
      cases texts' with
      | nil => exact nomatch h
      | cons text' texts' =>
        simp only [List.flatMap_cons, List.cons_append, List.nil_append, List.cons.injEq] at h
        obtain ⟨hpath, hcontent, hrest⟩ := h
        rw [Prod.ext hpath hcontent, ih hrest]
  apply h.1
  apply hpairs
  have hcut := h.2
  rw [hpieces w fun file hfile => hplain file (.inl hfile),
    hpieces w' fun file hfile => hplain file (.inr hfile)] at hcut
  exact hcut

end Worktree

section Runs

variable [ByteRuntime] {w : Worktree} {root resolved : Path} {merge_base_sha : Str}

/-- Everything that is returned satisfies `Q`, as long as the answers are about the worktree. -/
abbrev Worktree.Gives (w : Worktree) (root resolved : Path) (merge_base_sha : Str) {ε α : Type}
    (p : Script ε Op.Answer α) (Q : α → Prop) : Prop :=
  p.Meets (w.Answers root resolved merge_base_sha) (fun _ => True) Q

/-- What a Git command prints is what it gives. -/
theorem runGit_gives {args : List Str} {stdout : Bytes}
    (h : ∀ answer, w.Answers root resolved merge_base_sha (.run (("git" : Str) :: args) root false)
      answer → ∃ stderr, answer = .ok ⟨0, stdout, stderr⟩) :
    w.Gives root resolved merge_base_sha (runGit root args) (· = stdout) := by
  refine meets_ask fun answer hanswer => ?_
  obtain ⟨stderr, rfl⟩ := h answer hanswer
  rfl

/-- The untracked paths are the names of the files. -/
theorem untrackedPaths_gives : w.Gives root resolved merge_base_sha (untrackedPaths root)
    (· = w.untracked.map UntrackedFile.name) := by
  refine (runGit_gives fun answer hanswer => hanswer.2 rfl).bind fun stdout hstdout => ?_
  have htokens : ∀ token ∈ w.untracked.map (·.path), IsToken token := by
    simp only [List.forall_mem_map]
    exact fun file _ => file.path_valid
  refine Script.Meets.ofExcept (fun _ _ => trivial) fun paths hpaths => ?_
  rw [hstdout, Worktree.listing, parseNulPaths_terminated htokens, List.map_map] at hpaths
  exact (Except.ok.inj hpaths).symm

/-- The content that is read is the content of the file. -/
theorem untrackedContent_gives (relative_path : Str) :
    w.Gives root resolved merge_base_sha (untrackedContent resolved relative_path) fun content =>
      ∀ file ∈ w.untracked, file.name = relative_path → content = file.content := by
  refine meets_ask fun kind hkind => ?_
  cases kind with
  | error error => trivial
  | ok kind =>
    have hfile : ∀ file ∈ w.untracked, file.name = relative_path → kind = file.kind := by
      intro file hmem hname
      have hanswer := hkind file hmem (by rw [hname])
      exact Except.ok.inj hanswer
    cases kind with
    | symlink =>
      refine meets_ask fun target htarget => ?_
      cases target with
      | error error => trivial
      | ok target =>
        refine Script.Meets.ofExcept (fun _ _ => trivial) fun content hcontent file hmem hname => ?_
        have hlink : file.isLink = true := by
          have hkind := hfile file hmem hname
          by_contra hlink
          simp [UntrackedFile.kind, hlink] at hkind
        have hanswer := htarget file hmem (by rw [hname]) hlink
        obtain rfl := Except.ok.inj hanswer
        rw [Bytes.encode_decodeSurrogateescape] at hcontent
        exact (Except.ok.inj hcontent).symm
    | regular =>
      refine meets_ask fun found _ => ?_
      refine Script.Meets.bind (Q := fun _ => True) (Script.Meets.anything _) fun found _ => ?_
      refine Script.Meets.bind (Q := fun _ => True) (Script.Meets.anything _) fun below _ => ?_
      refine meets_ask fun content hcontent => ?_
      cases content with
      | error error => trivial
      | ok content =>
        intro file hmem hname
        have hlink : file.isLink = false := by
          have hkind := hfile file hmem hname
          by_contra hlink
          simp [UntrackedFile.kind, hlink] at hkind
        have hanswer := hcontent file hmem (by rw [hname]) hlink
        exact Except.ok.inj hanswer
    | directory => trivial
    | other => trivial

/-- What is added to the digest is the entry of the file. -/
theorem untrackedDigest_gives (relative_path : Str) :
    w.Gives root resolved merge_base_sha (untrackedDigest resolved relative_path) fun entry =>
      ∀ file ∈ w.untracked, file.name = relative_path → entry = file.entry := by
  have hcontent : w.Gives root resolved merge_base_sha (untrackedContent resolved relative_path)
      fun content => ∀ file ∈ w.untracked, file.name = relative_path → content = file.content :=
    untrackedContent_gives relative_path
  refine (hcontent.mapError fun _ _ => trivial).bind fun content hcontent => ?_
  refine Script.Meets.bind (Q := fun name => ∀ file ∈ w.untracked, file.name = relative_path →
    name = file.path) ?_ fun name hname file hmem hrelative => ?_
  · refine Script.Meets.ofExcept (fun _ _ => trivial) fun name hencode file hmem hrelative => ?_
    rw [← hrelative, UntrackedFile.name, Bytes.encode_decodeSurrogateescape] at hencode
    exact (Except.ok.inj hencode).symm
  · rw [hname file hmem hrelative, hcontent file hmem hrelative, UntrackedFile.entry]

omit [ByteRuntime] in
/-- The entries of files that are found by their names. -/
theorem Worktree.flatten_entries {names : List Str} {entries : List Bytes}
    (hentries : List.Forall₂ (fun name entry => ∀ file ∈ w.untracked, file.name = name →
      entry = file.entry) names entries)
    (hnames : ∀ name ∈ names, ∃ file ∈ w.untracked, file.name = name) :
    entries.flatten = (names.filterMap fun name =>
      w.untracked.find? fun file => file.name = name).flatMap UntrackedFile.entry := by
  induction hentries with
  | nil => rfl
  | cons hentry _ ih =>
    obtain ⟨⟨file, hfile, rfl⟩, hrest⟩ := List.forall_mem_cons.mp hnames
    rw [List.filterMap_cons, find_name hfile, List.flatMap_cons, List.flatten_cons,
      hentry file hfile rfl, ih hrest]

/-- The digest is the one of the stream. -/
theorem computeDiffHash_gives {context : GitContext} :
    w.Gives root resolved context.merge_base_sha (computeDiffHash root context w.changed_paths)
      (· = ByteRuntime.sha256 w.stream) := by
  refine Script.Meets.bind (Q := fun listed => listed = (w.rawDiff,
    w.untracked.map UntrackedFile.name)) ?_ fun listed hlisted => ?_
  · refine Script.Meets.mapError (P := fun _ => True) ?_ fun _ _ => trivial
    refine (runGit_gives fun answer hanswer => hanswer.1 rfl).bind fun raw_diff hdiff => ?_
    refine untrackedPaths_gives.bind fun untracked_paths hpaths => ?_
    rw [hdiff, hpaths]
    rfl
  · obtain rfl := hlisted
    have hselected : Str.sortedSet ((w.untracked.map UntrackedFile.name).filter
        (· ∈ w.changed_paths)) = w.names := by
      rw [List.filter_eq_self.mpr, Worktree.names]
      simp only [List.forall_mem_map, decide_eq_true_eq]
      exact w.untracked_changed
    refine Script.Meets.bind (Q := fun path => path = resolved) ?_ fun path hpath => ?_
    · refine meets_ask fun answer hanswer => ?_
      obtain rfl := hanswer rfl rfl
      rfl
    · subst hpath
      refine (Script.Meets.mapM untrackedDigest_gives).bind fun entries hentries => ?_
      rw [hselected] at hentries
      have hflatten := Worktree.flatten_entries hentries fun name hname =>
        List.mem_map.mp (Str.mem_sortedSet.mp hname)
      rw [Script.Meets.pure, hflatten, Worktree.stream, Worktree.hashed]

/-- A worktree has only one hash. -/
theorem Worktree.Hashes.eq {digest : Str} (h : w.Hashes digest) :
    digest = ByteRuntime.sha256 w.stream := by
  obtain ⟨root, resolved, context, steps, hsteps, hreplay⟩ := h
  exact (computeDiffHash_gives.replay hsteps hreplay).2 digest rfl

end Runs

/-- **What equal digests say.** Of two worktrees with the same tracked diff, equal digests imply
the same untracked files if and only if the worktrees do not differ in the kinds of files
alone, and different paths and contents are not cut into the same pieces at the NULs. -/
theorem diffHash_identifies_iff [ByteRuntime] {w w' : Worktree} {digest digest' : Str}
    (hdiff : w.rawDiff = w'.rawDiff) (hdigest : w.Hashes digest) (hdigest' : w'.Hashes digest')
    (hcollision : ByteRuntime.sha256 w.stream = ByteRuntime.sha256 w'.stream →
      w.stream = w'.stream) :
    (digest = digest' → w.SameFiles w') ↔ ¬w.LosesKinds w' ∧ ¬w.Regroups w' := by
  have hequal : digest = digest' ↔ w.pieces = w'.pieces := by
    rw [hdigest.eq, hdigest'.eq, ← Worktree.stream_eq_iff hdiff]
    exact ⟨hcollision, fun h => congrArg _ h⟩
  rw [hequal, Worktree.sameFiles_iff, Worktree.hashed_eq_iff]
  constructor
  · intro h
    constructor
    · rintro ⟨htexts, hkinds⟩
      exact hkinds (h (Worktree.pieces_of_texts htexts)).2
    · rintro ⟨htexts, hpieces⟩
      exact htexts (h hpieces).1
  · rintro ⟨hkinds, htexts⟩ hpieces
    have hsame : w.texts = w'.texts := by
      by_contra hne
      exact htexts ⟨hne, hpieces⟩
    refine ⟨hsame, ?_⟩
    by_contra hne
    exact hkinds ⟨hsame, hne⟩

namespace Sample

/-- A commit. -/
def mergeBase : Str := "1111111111111111111111111111111111111111"

/-- The context of a run on a branch. -/
def hashContext : GitContext :=
  ⟨"docs/7-guide", "main", mergeBase, mergeBase, mergeBase, mergeBase⟩

/-- A regular file with an ASCII name. -/
def regular (name content : String) (h : IsToken (Bytes.ofString name)) : UntrackedFile :=
  ⟨Bytes.ofString name, false, Bytes.ofString content, h, nofun⟩

/-- Two files that have not been added, and nothing else. -/
def worktree (a b : String) : Worktree where
  rawDiff := []
  changed_paths := ["a", "b"]
  untracked := [regular "a" a (by decide), regular "b" b (by decide)]
  paths_nodup := show [Bytes.ofString "a", Bytes.ofString "b"].Nodup by decide
  untracked_changed := List.forall_mem_cons.mpr
    ⟨List.mem_cons_self, List.forall_mem_singleton.mpr (List.mem_cons_of_mem _ List.mem_cons_self)⟩

/-- Git and the file system of the worktree. -/
def answering (w : Worktree) (_ : Unit) (op : Op) : op.Answer × Unit :=
  let file (path : Path) := w.untracked.find? fun file => path = root.join (.ofStr file.name)
  (match op with
    | .run command _ _ =>
      .ok ⟨0, if command = ("git" : Str) :: Worktree.untrackedArgs then w.listing
        else w.rawDiff, []⟩
    | .resolve path _ => .ok path
    | .lstat path => .ok (((file path).map (·.kind)).getD .other)
    | .readBytes path => .ok (((file path).map (·.content)).getD [])
    | op => (calm () op).1, ())

/-- The sample answers as the worktree does. -/
theorem answering_answers (a b : String) (s : Unit) (op : Op) :
    (worktree a b).Answers root root mergeBase op (answering (worktree a b) s op).1 := by
  have hfiles (file : UntrackedFile) (h : file ∈ (worktree a b).untracked) :
      file = regular "a" a (by decide) ∨ file = regular "b" b (by decide) := by
    simpa [worktree] using h
  cases op with
  | run command cwd dont_write_bytecode =>
    constructor
    · rintro rfl
      exact ⟨[], rfl⟩
    · rintro rfl
      exact ⟨[], rfl⟩
  | resolve path strict =>
    rintro rfl -
    rfl
  | lstat path =>
    rintro file hfile rfl
    obtain rfl | rfl := hfiles file hfile <;> rfl
  | readlink path =>
    rintro file hfile rfl hlink
    obtain rfl | rfl := hfiles file hfile <;> exact nomatch hlink
  | readBytes path =>
    rintro file hfile rfl -
    obtain rfl | rfl := hfiles file hfile <;> rfl
  | _ => trivial

/-- The digest of a run in that world. -/
theorem hashes_of_exec [ByteRuntime] {a b : String} {digest : Str}
    (h : ((computeDiffHash root hashContext (worktree a b).changed_paths).exec
      (answering (worktree a b)) ()).2.1 = .ok digest) : (worktree a b).Hashes digest := by
  let p := computeDiffHash root hashContext (worktree a b).changed_paths
  have hsteps := Script.exec_answers (answering_answers a b) p ()
  have hreplay := Script.replay_exec (answering (worktree a b)) p ()
  exact ⟨root, root, hashContext, _, hsteps, hreplay.trans (congrArg some h)⟩

/-- The runtime, with the SHA-256 digests of two streams. -/
abbrev digestRuntime : ByteRuntime := { runtime with
  sha256 raw :=
    if raw = (worktree "x" "y").stream then
      "938fbc10036622392fd65d18a55d15b7e80ee4a3583ca4fadda2d0c1f04efbe4"
    else if raw = (worktree "x" "z").stream then
      "33d28b479ae0ef0a53050555372bdf2f130972d271b19337753bc1592ccf56f9"
    else [] }

/-- The runtime, with a digest that tells all streams apart. -/
abbrev injectiveRuntime : ByteRuntime := { runtime with
  sha256 raw := raw.map fun b => Bytes.codePoint b.toNat }

end Sample

/-- Two files with different contents have different digests. -/
theorem diffHash_identifies_iff_contents : ∃ digest digest',
    @Worktree.Hashes Sample.digestRuntime (Sample.worktree "x" "y") digest ∧
      @Worktree.Hashes Sample.digestRuntime (Sample.worktree "x" "z") digest' ∧
      digest ≠ digest' := by
  let w := Sample.worktree "x" "y"
  let w' := Sample.worktree "x" "z"
  have hfirst : @Worktree.Hashes Sample.digestRuntime w _ :=
    @Sample.hashes_of_exec Sample.digestRuntime "x" "y" (Sample.digestRuntime.sha256 w.stream) rfl
  have hsecond : @Worktree.Hashes Sample.digestRuntime w' _ :=
    @Sample.hashes_of_exec Sample.digestRuntime "x" "z" (Sample.digestRuntime.sha256 w'.stream) rfl
  refine ⟨_, _, hfirst, hsecond, fun hequal => ?_⟩
  have hiff := @diffHash_identifies_iff Sample.digestRuntime w w' _ _ rfl hfirst hsecond
    fun h => absurd h (by decide +kernel)
  have hsame := hiff.mpr ⟨fun h => absurd h.1 (by decide +kernel),
    fun h => absurd h.2 (by decide +kernel)⟩ hequal
  have hhashed := Worktree.sameFiles_iff.mp hsame
  exact absurd hhashed (by decide +kernel)

/-- Not for all worktrees: a NUL in a content may look like the end of a file. -/
theorem not_diffHash_identifies :
    ¬∀ (_ : ByteRuntime), Function.Injective ByteRuntime.sha256 →
      ∀ (w w' : Worktree) (digest : Str), w.rawDiff = w'.rawDiff →
        w.changed_paths = w'.changed_paths → w.Hashes digest → w'.Hashes digest →
        w.SameFiles w' := by
  intro hclaim
  have hinjective : Function.Injective Sample.injectiveRuntime.sha256 := by
    intro raw raw' h
    refine List.map_injective_iff.mpr (fun b b' hb => ?_) h
    have hval := congrArg Fin.val hb
    rw [Bytes.codePoint_val (by have := b.toNat_lt; omega),
      Bytes.codePoint_val (by have := b'.toNat_lt; omega)] at hval
    exact UInt8.toNat_inj.mp hval
  let w := Sample.worktree "x" "y\x00b\x00z"
  let w' := Sample.worktree "x\x00b\x00y" "z"
  have hfirst : @Worktree.Hashes Sample.injectiveRuntime w _ :=
    @Sample.hashes_of_exec Sample.injectiveRuntime _ _ (Sample.injectiveRuntime.sha256 w.stream) rfl
  have hsecond : @Worktree.Hashes Sample.injectiveRuntime w' _ :=
    @Sample.hashes_of_exec Sample.injectiveRuntime _ _ (Sample.injectiveRuntime.sha256 w.stream) rfl
  have hsame := hclaim Sample.injectiveRuntime hinjective w w' _ rfl rfl hfirst hsecond
  have hhashed := Worktree.sameFiles_iff.mp hsame
  exact absurd hhashed (by decide +kernel)

end CoffeeOrder.Harness
