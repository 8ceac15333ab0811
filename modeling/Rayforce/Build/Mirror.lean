import Mathlib.Data.List.Pairwise
import Rayforce.Build.Stage

/-! What staging leaves in the staging directory, path for path.  A copy there that is as long as its
source and not older is taken for current, whatever its bytes. -/

namespace Rayforce.Build

variable {os : Os} {core : Core} {file : File} {dest path q : Path} {s s' : Staging}
  {dst dst' : FileTree Name File} {root : Name}

/-- The file of the core's tree that belongs at the path of the staging directory. -/
def Core.source? (core : Core) : Path → Option File
  | [] => none
  | root :: path =>
    if root :: path = [makefileName] then some core.makefile
    else if !isSource (root :: path) then none
    else if root = includeName then (FileTree.dir core.includeDir).file? path
    else if root = srcName then (FileTree.dir core.srcDir).file? path
    else none

/-- The Makefile, and what has the name of a source under one of the two directories. -/
def Covered (path : Path) : Prop :=
  path = [makefileName] ∨ isSource path = true ∧ ([includeName] <+: path ∨ [srcName] <+: path)

instance (path : Path) : Decidable (Covered path) := inferInstanceAs (Decidable (_ ∨ _))

/-- The staging directory has the core's files on the paths it covers, and its own on all others. -/
structure Mirrors (core : Core) (dst dst' : FileTree Name File) : Prop where
  covered : ∀ path, Covered path →
    (dst'.file? path).map (·.bytes) = (core.source? path).map (·.bytes)
  others : ∀ path, ¬Covered path → dst'.file? path = dst.file? path

/-! ### Copies -/

/-- What a copy leaves at its destination. -/
def copied (os : Os) (dst : FileTree Name File) (e : Path × File) : Option File :=
  if isCurrent os e.2 dst e.1 then dst.file? e.1 else some ⟨e.2.bytes, os.now e.1⟩

theorem isCurrent_congr (same : dst'.node? dest = dst.node? dest) :
    isCurrent os file dst' dest = isCurrent os file dst dest := by
  unfold isCurrent
  rw [same]

theorem copyIfStale_spec (h : copyIfStale os file dest s = some s') :
    s'.staged = dest :: s.staged ∧ (∀ q, ¬q <+: dest → s'.dst.node? q = s.dst.node? q) ∧
      ∀ q, s'.dst.file? q = if q = dest then copied os s.dst (dest, file) else s.dst.file? q := by
  unfold copyIfStale at h
  dsimp only at h
  split at h
  · next current =>
    cases h
    refine ⟨rfl, fun q _ => rfl, fun q => ?_⟩
    unfold copied
    rw [if_pos current]
    split
    · next same => rw [same]
    · rfl
  · next stale =>
    obtain ⟨dst, put, rfl⟩ := Option.map_eq_some_iff.mp h
    refine ⟨rfl, fun q => FileTree.node?_put put, fun q => ?_⟩
    unfold copied
    rw [if_neg stale]
    exact FileTree.file?_put put q

/-- Of copies none of which leads through another's destination, each finds what was there before. -/
theorem copies_spec {files : List (Path × File)} (apart : files.Pairwise fun a b => ¬b.1 <+: a.1)
    (h : files.foldlM (copy os) s = some s') :
    (∀ e ∈ files, s'.dst.file? e.1 = copied os s.dst e) ∧
      (∀ q, (∀ e ∈ files, e.1 ≠ q) → s'.dst.file? q = s.dst.file? q) ∧
      ∀ q, q ∈ s'.staged ↔ q ∈ s.staged ∨ ∃ e ∈ files, e.1 = q := by
  induction files generalizing s with
  | nil =>
    cases h
    exact ⟨nofun, fun _ _ => rfl, by simp⟩
  | cons e files ih =>
    obtain ⟨first, rest⟩ := List.pairwise_cons.mp apart
    obtain ⟨m, copy, after⟩ := Option.bind_eq_some_iff.mp h
    obtain ⟨staged, nodes, here⟩ := copyIfStale_spec copy
    obtain ⟨later, others, all⟩ := ih rest after
    refine ⟨?_, ?_, ?_⟩
    · rintro f (_ | ⟨_, mem⟩)
      · have aside : ∀ g ∈ files, g.1 ≠ e.1 := fun g mem same => first g mem (same ▸ List.prefix_rfl)
        rw [others e.1 aside, here, if_pos rfl]
      · have untouched : ¬f.1 <+: e.1 := first f mem
        have ne : f.1 ≠ e.1 := fun same => untouched (same ▸ List.prefix_rfl)
        rw [later f mem]
        unfold copied
        rw [isCurrent_congr (nodes f.1 untouched), here, if_neg ne]
    · intro q none
      rw [others q fun g mem => none g (List.mem_cons_of_mem _ mem), here, if_neg]
      exact fun same => none e List.mem_cons_self same.symm
    · intro q
      rw [all, staged]
      simp [or_assoc, eq_comm, or_left_comm]

/-! ### Deletions -/

/-- The path is deleted when the visit comes to it. -/
def Pruned (os : Os) (staged : List Path) (path : Path) : Bool :=
  isSource path && !staged.contains path && os.removes path

theorem ne_nil_of_isSource (source : isSource path = true) : path ≠ [] := by
  rintro rfl
  cases source

theorem file?_prune {staged : List Path} (path q : Path) :
    (prune os staged dst path).file? q =
      if q = path ∧ Pruned os staged q = true then none else dst.file? q := by
  unfold prune
  split
  · next goes =>
    have source : isSource path = true := by
      simp only [Bool.and_eq_true] at goes
      exact goes.1.1
    rw [FileTree.file?_remove dst (ne_nil_of_isSource source)]
    by_cases same : q = path
    · rw [if_pos same, if_pos ⟨same, same ▸ goes⟩]
    · rw [if_neg same, if_neg fun both => same both.1]
  · next stays =>
    rw [if_neg]
    rintro ⟨rfl, goes⟩
    exact stays goes

theorem file?_prunes {staged paths : List Path} (q : Path) :
    (paths.foldl (prune os staged) dst).file? q =
      if q ∈ paths ∧ Pruned os staged q = true then none else dst.file? q := by
  induction paths generalizing dst with
  | nil => simp
  | cons path paths ih =>
    rw [List.foldl_cons, ih, file?_prune]
    by_cases goes : Pruned os staged q = true
    · by_cases here : q = path
      · subst here
        simp [goes]
      · simp [here]
    · simp [goes]

theorem file?_pruneRoot {staged : List Path} (bare : isSource [root] = false) (q : Path) :
    (pruneRoot os staged dst root).file? q =
      if [root] <+: q ∧ Pruned os staged q = true then none else dst.file? q := by
  unfold pruneRoot
  rw [file?_prunes]
  by_cases goes : Pruned os staged q = true
  · by_cases under : [root] <+: q
    · rw [if_pos (show [root] <+: q ∧ Pruned os staged q = true from ⟨under, goes⟩)]
      split
      · rfl
      · next unvisited =>
        -- a file that the visit does not come to is not there
        obtain ⟨below, rfl⟩ := under
        cases found : dst.file? ([root] ++ below) with
        | none => rfl
        | some file =>
          have deeper : below ≠ [] := by
            rintro rfl
            simp [Pruned, bare] at goes
          have visited := FileTree.mem_visited deeper found
          exact absurd ⟨visited, goes⟩ unvisited
    · have unvisited : q ∉ dst.visited [root] := fun mem => under (FileTree.prefix_of_mem_visited mem)
      simp [under, unvisited]
  · simp [goes]

theorem file?_pruneStale (s : Staging) (q : Path) : (pruneStale os s).file? q =
    if ([srcName] <+: q ∨ [includeName] <+: q) ∧ Pruned os s.staged q = true then none
    else s.dst.file? q := by
  unfold pruneStale
  rw [List.foldl_cons, List.foldl_cons, List.foldl_nil, file?_pruneRoot (by decide),
    file?_pruneRoot (by decide)]
  by_cases goes : Pruned os s.staged q = true
  · by_cases sources : [srcName] <+: q
    · simp [goes, sources]
    · simp [goes, sources]
  · simp [goes]

/-! ### The files of the core's tree -/

/-- Every file that is copied, with the path it is copied to, in order. -/
def Core.sources (core : Core) : List (Path × File) :=
  ([makefileName], core.makefile) :: (Build.sources [includeName] (.dir core.includeDir) ++
    Build.sources [srcName] (.dir core.srcDir))

theorem mem_sources {t : FileTree Name File} (distinct : t.Distinct) :
    (q, file) ∈ sources dest t ↔ isSource q = true ∧ ∃ below, q = dest ++ below ∧ t.file? below = some file := by
  unfold sources
  rw [List.mem_filter, List.mem_map]
  constructor
  · rintro ⟨⟨⟨below, f⟩, mem, eq⟩, source⟩
    cases eq
    exact ⟨source, below, rfl, (FileTree.mem_files t distinct below f).mp mem⟩
  · rintro ⟨source, below, rfl, found⟩
    exact ⟨⟨(below, file), (FileTree.mem_files t distinct below file).mpr found, rfl⟩, source⟩

theorem sources_pairwise {t : FileTree Name File} (distinct : t.Distinct) :
    (sources dest t).Pairwise fun a b => ¬b.1 <+: a.1 := by
  unfold sources
  apply List.Pairwise.filter
  rw [List.pairwise_map]
  refine (FileTree.files_pairwise t distinct).imp ?_
  intro a b apart leads
  exact apart ((List.prefix_append_right_inj dest).mp leads)

theorem source?_include (core : Core) (source : isSource (includeName :: path) = true) :
    core.source? (includeName :: path) = (FileTree.dir core.includeDir).file? path := by
  unfold Core.source?
  dsimp only
  rw [if_neg (by simp [show includeName ≠ makefileName by decide]), if_neg (by simp [source]),
    if_pos rfl]

theorem source?_src (core : Core) (source : isSource (srcName :: path) = true) :
    core.source? (srcName :: path) = (FileTree.dir core.srcDir).file? path := by
  unfold Core.source?
  dsimp only
  rw [if_neg (by simp [show srcName ≠ makefileName by decide]), if_neg (by simp [source]),
    if_neg (by decide), if_pos rfl]

/-- Only a covered path has a file of the core's. -/
theorem covered_of_source? (found : core.source? q = some file) : Covered q := by
  unfold Core.source? at found
  split at found
  · cases found
  · split at found
    · next makefile => exact .inl makefile
    · split at found
      · cases found
      · next source =>
        simp only [Bool.not_eq_true', Bool.not_eq_false] at source
        split at found
        · next under => exact .inr ⟨source, .inl (under ▸ List.prefix_append [_] _)⟩
        · split at found
          · next under => exact .inr ⟨source, .inr (under ▸ List.prefix_append [_] _)⟩
          · cases found

theorem mem_core_sources : (q, file) ∈ core.sources ↔ core.source? q = some file := by
  unfold Core.sources
  rw [List.mem_cons, List.mem_append, mem_sources core.includeDistinct, mem_sources core.srcDistinct]
  constructor
  · rintro (eq | ⟨source, below, rfl, found⟩ | ⟨source, below, rfl, found⟩)
    · cases eq
      rfl
    · exact (source?_include core source).trans found
    · exact (source?_src core source).trans found
  · intro found
    rcases covered_of_source? found with rfl | ⟨source, ⟨below, rfl⟩ | ⟨below, rfl⟩⟩
    · cases found
      exact .inl rfl
    · exact .inr (.inl ⟨source, below, rfl, (source?_include core source).symm.trans found⟩)
    · exact .inr (.inr ⟨source, below, rfl, (source?_src core source).symm.trans found⟩)

theorem core_sources_pairwise (core : Core) : core.sources.Pairwise fun a b => ¬b.1 <+: a.1 := by
  unfold Core.sources
  rw [List.pairwise_cons, List.pairwise_append]
  refine ⟨?_, sources_pairwise core.includeDistinct, sources_pairwise core.srcDistinct, ?_⟩
  · rintro ⟨q, file⟩ mem leads
    rw [List.mem_append, mem_sources core.includeDistinct, mem_sources core.srcDistinct] at mem
    rcases mem with ⟨-, below, rfl, -⟩ | ⟨-, below, rfl, -⟩
    · exact absurd (List.cons_prefix_cons.mp leads).1 (by decide)
    · exact absurd (List.cons_prefix_cons.mp leads).1 (by decide)
  · rintro ⟨q, file⟩ mem ⟨q', file'⟩ mem' leads
    obtain ⟨-, below, rfl, -⟩ := (mem_sources core.includeDistinct).mp mem
    obtain ⟨-, below', rfl, -⟩ := (mem_sources core.srcDistinct).mp mem'
    exact absurd (List.cons_prefix_cons.mp leads).1 (by decide)

/-! ### Staging -/

theorem stageCore_eq (os : Os) (core : Core) (dst : FileTree Name File) :
    stageCore os core dst = (core.sources.foldlM (copy os) ⟨dst, []⟩).map (pruneStale os) := by
  unfold stageCore Core.sources
  simp only [mirror_eq, List.foldlM_cons, List.foldlM_append]
  simp only [copy, Option.map_eq_bind, Option.bind_eq_bind, Option.bind_assoc]
  rfl

/-- What staging leaves at every path. -/
theorem stageCore_spec (h : stageCore os core dst = some dst') :
    (∀ q file, core.source? q = some file → dst'.file? q = copied os dst (q, file)) ∧
      ∀ q, core.source? q = none →
        dst'.file? q = if Covered q ∧ os.removes q = true then none else dst.file? q := by
  rw [stageCore_eq] at h
  obtain ⟨s, copies, rfl⟩ := Option.map_eq_some_iff.mp h
  obtain ⟨each, others, staged⟩ := copies_spec (core_sources_pairwise core) copies
  have staged : ∀ q, q ∈ s.staged ↔ core.source? q ≠ none := by
    intro q
    rw [staged, Option.ne_none_iff_exists']
    constructor
    · rintro (mem | ⟨⟨_, file⟩, mem, rfl⟩)
      · cases mem
      · exact ⟨file, mem_core_sources.mp mem⟩
    · rintro ⟨file, found⟩
      exact .inr ⟨(q, file), mem_core_sources.mpr found, rfl⟩
  refine ⟨fun q file found => ?_, fun q missing => ?_⟩
  · have kept : Pruned os s.staged q = false := by
      have mem := (staged q).mpr (by simp [found])
      simp [Pruned, mem]
    rw [file?_pruneStale, if_neg (by simp [kept])]
    exact each (q, file) (mem_core_sources.mpr found)
  · have unstaged : q ∉ s.staged := fun mem => (staged q).mp mem missing
    have uncopied : ∀ e ∈ core.sources, e.1 ≠ q := by
      rintro ⟨_, file⟩ mem rfl
      cases missing.symm.trans (mem_core_sources.mp mem)
    rw [file?_pruneStale, others q uncopied]
    refine if_congr ?_ rfl rfl
    simp only [Pruned, Bool.and_eq_true]
    constructor
    · rintro ⟨under, ⟨source, -⟩, goes⟩
      exact ⟨.inr ⟨source, under.symm⟩, goes⟩
    · rintro ⟨rfl | ⟨source, under⟩, goes⟩
      · cases missing
      · exact ⟨under.symm, ⟨source, by simpa using unstaged⟩, goes⟩

/-- What looks current has the bytes of its source. -/
def CurrentIsSame (os : Os) (core : Core) (dst : FileTree Name File) : Prop :=
  ∀ q file, core.source? q = some file → isCurrent os file dst q = true →
    (dst.file? q).map (·.bytes) = some file.bytes

/-- The system removes the sources that the core's tree does not have. -/
def RemovesStale (os : Os) (core : Core) (dst : FileTree Name File) : Prop :=
  ∀ q, Covered q → core.source? q = none → dst.file? q ≠ none → os.removes q = true

theorem bytes_copied_iff {e : Path × File} : (copied os dst e).map (·.bytes) = some e.2.bytes ↔
    (isCurrent os e.2 dst e.1 = true → (dst.file? e.1).map (·.bytes) = some e.2.bytes) := by
  unfold copied
  split
  · next current => exact ⟨fun same _ => same, fun same => same current⟩
  · next stale => exact iff_of_true rfl fun current => absurd current stale

/-- Whatever the trees, their times and what an earlier run left: where staging returns, it mirrors the
core exactly where each file that looks current is the same, and each stale source is removed. -/
theorem stageCore_mirrors_iff (h : stageCore os core dst = some dst') :
    Mirrors core dst dst' ↔ CurrentIsSame os core dst ∧ RemovesStale os core dst := by
  obtain ⟨copies, rest⟩ := stageCore_spec h
  constructor
  · intro mirrors
    refine ⟨fun q file found => ?_, fun q covered missing there => ?_⟩
    · have same := mirrors.covered q (covered_of_source? found)
      rw [copies q file found, found] at same
      exact bytes_copied_iff.mp same
    · by_contra stays
      have gone := mirrors.covered q covered
      rw [rest q missing, if_neg fun both => stays both.2, missing] at gone
      exact there (Option.map_eq_none_iff.mp gone)
  · rintro ⟨current, removes⟩
    refine ⟨fun q covered => ?_, fun q other => ?_⟩
    · cases found : core.source? q with
      | some file =>
        rw [copies q file found]
        exact bytes_copied_iff.mpr (current q file found)
      | none =>
        rw [rest q found]
        split
        · rfl
        · next stays =>
          cases there : dst.file? q with
          | none => rfl
          | some file => exact absurd ⟨covered, removes q covered found (by simp [there])⟩ stays
    · have missing : core.source? q = none := by
        by_contra found
        obtain ⟨file, found⟩ := Option.ne_none_iff_exists'.mp found
        exact other (covered_of_source? found)
      rw [rest q missing, if_neg fun both => other both.1]

/-! ### Answers -/

/-- A system that keeps times, and removes what it is asked to. -/
def willing : Os := ⟨fun _ => ⟨4096, some 0⟩, fun _ => some 9, fun _ => true⟩

/-- A core of one source, as old as the epoch. -/
def oneSource : Core where
  makefile := ⟨[], some 0⟩
  includeDir := []
  srcDir := [(name "a.c", .file ⟨[1], some 0⟩)]
  includeDistinct := by simp [FileTree.Distinct, FileTree.DistinctIn]
  srcDistinct := by simp [FileTree.Distinct, FileTree.DistinctIn]

/-- The staging directory after another version was staged, whose source of the same name was as long
and newer. -/
def otherVersion : FileTree Name File :=
  .dir [(makefileName, .file ⟨[], some 9⟩), (srcName, .dir [(name "a.c", .file ⟨[2], some 9⟩)])]

/-- The first build finds nothing in the staging directory. -/
theorem stageCore_mirrors_clean : ∃ dst', stageCore willing oneSource (.dir []) = some dst' ∧
    Mirrors oneSource (.dir []) dst' := by
  have returns : (stageCore willing oneSource (.dir [])).isSome = true := by
    rw [stageCore_eq, Option.isSome_map]
    decide
  obtain ⟨dst', staged⟩ := Option.isSome_iff_exists.mp returns
  refine ⟨dst', staged, (stageCore_mirrors_iff staged).mpr ⟨?_, fun _ _ _ _ => rfl⟩⟩
  intro q file found current
  cases q with
  | nil => cases found
  | cons n path => cases current

/-- The source that was staged before looks current, and is not copied over. -/
theorem stageCore_not_mirrors : ¬∀ os core dst dst', stageCore os core dst = some dst' →
    Mirrors core dst dst' := by
  intro all
  have returns : (stageCore willing oneSource otherVersion).isSome = true := by
    rw [stageCore_eq, Option.isSome_map]
    decide
  obtain ⟨dst', staged⟩ := Option.isSome_iff_exists.mp returns
  have left := (stageCore_spec staged).1 [srcName, name "a.c"] ⟨[1], some 0⟩ (by decide)
  have same := (all _ _ _ _ staged).covered [srcName, name "a.c"] (by decide)
  rw [left] at same
  revert same
  decide

end Rayforce.Build
