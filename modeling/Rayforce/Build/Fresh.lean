import Rayforce.Build.Site

/-! What `make lib` archives.  As long as staging and the removal of objects do what they set out to do,
each object is what compiling the sources there are, with this run's flags, would give. -/

namespace Rayforce.Build

open Transition Rebuild

variable {T : Toolchain} {s t : Site} {e : SiteEvent} {es : List SiteEvent} {os : Os} {core : Core}
  {origin : Option Core} {c c' : Config} {dst dst' : FileTree Name File} {path q unit : Path}
  {now now' : Int}

theorem defs_eq_of_stampBytes (same : c.stampBytes = c'.stampBytes) : c.defs = c'.defs := by
  apply stamp_injective
  apply String.toByteArray_inj.mp
  apply ByteArray.ext
  exact Array.toList_inj.mp same

theorem Stamped.defs (stamped : Stamped c dst) (stamped' : Stamped c' dst) : c.defs = c'.defs :=
  defs_eq_of_stampBytes (Option.some.inj (stamped.symm.trans stamped'))

theorem not_covered_of_object (object : Object path) : ¬Covered path := by
  obtain ⟨under, named⟩ := object
  rintro (rfl | ⟨source, -⟩)
  · revert under
    decide
  · have o : path.getLast?.bind extension = some (name "o") := by simpa [isObject] using named
    rw [isSource, o] at source
    revert source
    decide

theorem not_covered_stampPath : ¬Covered stampPath := by decide

theorem sourceInput_object (object : Object path) (file : File) : sourceInput path file = none :=
  if_neg (not_covered_of_object object)

theorem sourcesIn_of_covered (covered : Covered path) :
    sourcesIn dst path = (dst.file? path).map (·.bytes) := by
  unfold sourcesIn view
  cases dst.file? path with
  | none => rfl
  | some file => exact if_pos covered

theorem sourcesIn_of_not_covered (other : ¬Covered path) : sourcesIn dst path = none := by
  unfold sourcesIn view
  cases dst.file? path with
  | none => rfl
  | some file => exact if_neg other

/-! ### Staging -/

theorem since_copied (ticks : os.Ticks now now') {file : File} {g : File}
    (found : copied os dst (q, file) = some g) :
    dst.file? q = some g ∨ ∃ τ, g.modified = some τ ∧ now < τ ∧ τ ≤ now' := by
  unfold copied at found
  split at found
  · exact .inl found
  · cases found
    exact .inr (ticks.2 q)

theorem since_stageCore (ticks : os.Ticks now now') (staged : stageCore os core dst = some dst') :
    Since File.modified now now' dst.file? dst'.file? := by
  intro q g found
  obtain ⟨copies, rest⟩ := stageCore_spec staged
  cases source : core.source? q with
  | some file =>
    rw [copies q file source] at found
    exact since_copied ticks found
  | none =>
    rw [rest q source] at found
    split at found
    · cases found
    · exact .inl found

theorem file?_stageCore (staged : stageCore os core dst = some dst') (other : ¬Covered q) :
    dst'.file? q = dst.file? q := by
  have missing : core.source? q = none := by
    by_contra there
    obtain ⟨file, found⟩ := Option.ne_none_iff_exists'.mp there
    exact other (covered_of_source? found)
  rw [(stageCore_spec staged).2 q missing, if_neg fun both => other both.1]

/-- Staging that does what it sets out to do leaves the core's sources, and no others. -/
theorem sourcesIn_stageCore (staged : stageCore os core dst = some dst')
    (same : CurrentIsSame os core dst) (removes : RemovesStale os core dst) :
    sourcesIn dst' = core.bytes := by
  obtain ⟨copies, rest⟩ := stageCore_spec staged
  funext q
  unfold Core.bytes
  cases source : core.source? q with
  | some file =>
    rw [sourcesIn_of_covered (covered_of_source? source), copies q file source]
    exact bytes_copied_iff.mpr (same q file source)
  | none =>
    by_cases covered : Covered q
    · rw [sourcesIn_of_covered covered, rest q source]
      split
      · rfl
      · next stays =>
        have gone : dst.file? q = none := by
          by_contra there
          exact stays ⟨covered, removes q covered source there⟩
        rw [gone]
    · rw [sourcesIn_of_not_covered covered]
      rfl

theorem since_copies {m : Staging} {copies : Nat} (ticks : os.Ticks now now')
    (copied : (core.sources.take copies).foldlM (copy os) ⟨dst, []⟩ = some m) :
    Since File.modified now now' dst.file? m.dst.file? := by
  have apart : (core.sources.take copies).Pairwise fun a b => ¬b.1 <+: a.1 :=
    (core_sources_pairwise core).sublist (List.take_sublist copies _)
  obtain ⟨each, others, -⟩ := copies_spec apart copied
  intro q g found
  by_cases mem : ∃ e ∈ core.sources.take copies, e.1 = q
  · obtain ⟨e, mem, rfl⟩ := mem
    rw [each e mem] at found
    exact since_copied ticks found
  · rw [others q fun e there same => mem ⟨e, there, same⟩] at found
    exact .inl found

theorem file?_copies {m : Staging} {copies : Nat}
    (copied : (core.sources.take copies).foldlM (copy os) ⟨dst, []⟩ = some m) (other : ¬Covered q) :
    m.dst.file? q = dst.file? q := by
  have apart : (core.sources.take copies).Pairwise fun a b => ¬b.1 <+: a.1 :=
    (core_sources_pairwise core).sublist (List.take_sublist copies _)
  refine (copies_spec apart copied).2.1 q ?_
  rintro ⟨_, file⟩ mem rfl
  exact other (covered_of_source? (mem_core_sources.mp (List.mem_of_mem_take mem)))

/-! ### Objects that are dropped -/

theorem file?_removeIf (named : path ≠ []) (q : Path) :
    (removeIf os dst path).file? q = if q = path ∧ os.removes path = true then none else dst.file? q := by
  unfold removeIf
  split
  · next goes =>
    rw [FileTree.file?_remove dst named]
    simp [goes]
  · next stays => simp [stays]

theorem file?_removeIfs {paths : List Path} (named : ∀ path ∈ paths, path ≠ []) (q : Path) :
    (paths.foldl (removeIf os) dst).file? q =
      if q ∈ paths ∧ os.removes q = true then none else dst.file? q := by
  induction paths generalizing dst with
  | nil => simp
  | cons path paths ih =>
    obtain ⟨first, rest⟩ := List.forall_mem_cons.mp named
    rw [List.foldl_cons, ih rest, file?_removeIf first]
    by_cases goes : os.removes q = true
    · by_cases here : q = path
      · subst here
        simp [goes]
      · simp [here]
    · by_cases here : q = path
      · subst here
        simp [goes]
      · simp [here, goes]

theorem isObject_ne_nil (object : isObject path = true) : path ≠ [] := by
  rintro rfl
  cases object

theorem dropObjects_sub {f : File} (found : (dropObjects os dst).file? q = some f) :
    dst.file? q = some f := by
  have named : ∀ path ∈ (dst.visited [srcName]).filter isObject, path ≠ [] :=
    fun path mem => isObject_ne_nil (List.mem_filter.mp mem).2
  unfold dropObjects at found
  rw [file?_removeIf (by decide), file?_removeIfs named] at found
  split at found
  · cases found
  · split at found
    · cases found
    · exact found

/-- An object that can be removed goes. -/
theorem dropObjects_object (object : Object path)
    (removes : dst.file? path ≠ none → os.removes path = true) :
    (dropObjects os dst).file? path = none := by
  cases there : dst.file? path with
  | none =>
    by_contra left
    obtain ⟨f, found⟩ := Option.ne_none_iff_exists'.mp left
    cases there.symm.trans (dropObjects_sub found)
  | some f =>
    obtain ⟨⟨below, rfl⟩, named⟩ := object
    have deeper : below ≠ [] := by
      rintro rfl
      exact absurd named (by decide)
    have all : ∀ path ∈ (dst.visited [srcName]).filter isObject, path ≠ [] :=
      fun path mem => isObject_ne_nil (List.mem_filter.mp mem).2
    have visited := List.mem_filter.mpr ⟨FileTree.mem_visited deeper there, named⟩
    have goes := removes fun gone => Option.some_ne_none f (there.symm.trans gone)
    unfold dropObjects
    rw [file?_removeIf (by decide)]
    split
    · rfl
    · rw [file?_removeIfs all, if_pos ⟨visited, goes⟩]

theorem since_put {file : File} {τ : Int} (put : dst.put path file = some dst')
    (at_τ : file.modified = some τ) (after : now < τ) (early : τ ≤ now') :
    Since File.modified now now' dst.file? dst'.file? := by
  intro q g found
  rw [FileTree.file?_put put] at found
  split at found
  · cases found
    exact .inr ⟨τ, at_τ, after, early⟩
  · exact .inl found

/-! ### What every run keeps -/

/-- The staged core's sources stand in the directory. -/
def Origin (origin : Option Core) (dst : FileTree Name File) : Prop :=
  ∀ core, origin = some core → sourcesIn dst = core.bytes

def SitePhase.Fits (T : Toolchain) (s : Site) : SitePhase → Prop
  | .idle => True
  | .staged origin _ => Origin origin s.dst
  | .ready origin c | .making origin c => Origin origin s.dst ∧ Stamped c s.dst
  | .built origin c => Origin origin s.dst ∧ Stamped c s.dst ∧
      ∀ unit ∈ T.units (sourcesIn s.dst), s.UpToDate T unit

/-- The object was made by its unit's rule, with the flags that the stamp names if it names any. -/
def ObjectFits (T : Toolchain) (dst : FileTree Name File) (deps : Path → List Path) (unit : Path)
    (f : File) : Prop :=
  ∃ defs, Made File.modified File.bytes sourceInput (T.rule defs unit) (deps unit) dst.file? f ∧
    ∀ c : Config, Stamped c dst → c.defs = defs

structure Fresh (T : Toolchain) (s : Site) : Prop where
  dated : Dated File.modified s.now s.dst.file?
  objects : ∀ unit f, s.dst.file? (T.object unit) = some f → ObjectFits T s.dst s.deps unit f
  phase : s.phase.Fits T s

/-- Objects that are left where they are, under a stamp that named the same flags before. -/
theorem Fresh.kept (h : Fresh T s) (since : Since File.modified s.now now s.dst.file? dst.file?)
    (left : ∀ path f, Object path → dst.file? path = some f → s.dst.file? path = some f)
    (stamps : ∀ c, Stamped c dst → Stamped c s.dst) (unit : Path) (f : File)
    (found : dst.file? (T.object unit) = some f) : ObjectFits T dst s.deps unit f := by
  have before := left _ f (T.object_isObject unit) found
  obtain ⟨defs, made, flags⟩ := h.objects unit f before
  exact ⟨defs, made.since since (h.dated _ f before), fun c stamped => flags c (stamps c stamped)⟩

theorem stamped_congr (same : dst'.file? stampPath = dst.file? stampPath) :
    Stamped c dst' ↔ Stamped c dst := by
  unfold Stamped
  rw [same]

theorem sourcesIn_congr (same : ∀ path, Covered path → dst'.file? path = dst.file? path) :
    sourcesIn dst' = sourcesIn dst := by
  funext path
  by_cases covered : Covered path
  · rw [sourcesIn_of_covered covered, sourcesIn_of_covered covered, same path covered]
  · rw [sourcesIn_of_not_covered covered, sourcesIn_of_not_covered covered]

/-- A directory in which only what is no source has changed has the same core. -/
theorem Origin.congr (h : Origin origin dst)
    (same : ∀ path, Covered path → dst'.file? path = dst.file? path) : Origin origin dst' :=
  fun core staged => (sourcesIn_congr same).trans (h core staged)

/-- Dropping objects touches no source. -/
theorem file?_dropObjects (covered : Covered q) : (dropObjects os dst).file? q = dst.file? q := by
  have named : ∀ path ∈ (dst.visited [srcName]).filter isObject, path ≠ [] :=
    fun path mem => isObject_ne_nil (List.mem_filter.mp mem).2
  have none_object : q ∉ (dst.visited [srcName]).filter isObject := by
    intro mem
    obtain ⟨visited, object⟩ := List.mem_filter.mp mem
    exact not_covered_of_object ⟨FileTree.prefix_of_mem_visited visited, object⟩ covered
  have none_archive : q ≠ archivePath := by
    rintro rfl
    revert covered
    decide
  unfold dropObjects
  rw [file?_removeIf (by decide), if_neg (fun both => none_archive both.1), file?_removeIfs named,
    if_neg fun both => none_object both.1]

/-- What the write of a stamp leaves, where the objects were dropped before it. -/
structure Restamped (now now' : Int) (dst dst' : FileTree Name File) (text : List UInt8) : Prop where
  since : Since File.modified now now' dst.file? dst'.file?
  objects : ∀ path, Object path → dst'.file? path = none
  sources : ∀ path, Covered path → dst'.file? path = dst.file? path
  stamp : (dst'.file? stampPath).map (·.bytes) = some text

theorem restamped {text : List UInt8} (ticks : os.Ticks now now')
    (removes : ∀ path, Object path → dst.file? path ≠ none → os.removes path = true)
    (put : (dropObjects os dst).put stampPath ⟨text, os.now stampPath⟩ = some dst') :
    Restamped now now' dst dst' text := by
  obtain ⟨τ, at_τ, after, early⟩ := ticks.2 stampPath
  refine ⟨?_, ?_, ?_, ?_⟩
  · intro q g found
    rcases since_put put at_τ after early q g found with before | written
    · exact .inl (dropObjects_sub before)
    · exact .inr written
  · intro path object
    have other : path ≠ stampPath := by
      rintro rfl
      exact absurd object.1 (by decide)
    rw [FileTree.file?_put put, if_neg other]
    exact dropObjects_object object (removes path object)
  · intro path covered
    have other : path ≠ stampPath := fun same => not_covered_stampPath (same ▸ covered)
    rw [FileTree.file?_put put, if_neg other]
    exact file?_dropObjects covered
  · rw [FileTree.file?_put put, if_pos rfl]
    rfl

/-- Where no object is left, the stamp may name any flags. -/
theorem Fresh.restamped {text : List UInt8} {phase : SitePhase} (h : Fresh T s) (ticks : os.Ticks s.now now)
    (written : Restamped s.now now s.dst dst text)
    (fits : phase.Fits T { s with dst, now, phase }) : Fresh T { s with dst, now, phase } := by
  refine ⟨h.dated.since written.since ticks.1, fun unit f found => ?_, fits⟩
  cases (written.objects _ (T.object_isObject unit)).symm.trans found

/-- An object that make compiles is fresh, and leaves the others as they were. -/
theorem Fresh.compiled (h : Fresh T s) (making : s.phase = .making origin c) (ticks : s.now < now)
    (put : s.dst.put (T.object unit) ⟨(T.rule c.defs unit).make (sourcesIn s.dst), some now⟩ = some dst) :
    Fresh T { s with
      dst, now
      deps := Function.update s.deps unit ((T.rule c.defs unit).reads (sourcesIn s.dst)) } := by
  have object := T.object_isObject unit
  have since := since_put put rfl ticks (le_refl now)
  have phase := h.phase
  rw [making] at phase
  obtain ⟨staged, stamped⟩ := phase
  have stamps : dst.file? stampPath = s.dst.file? stampPath := by
    rw [FileTree.file?_put put, if_neg]
    exact fun same => absurd (same ▸ object).1 (by decide)
  refine ⟨h.dated.since since (le_of_lt ticks), fun other f found => ?_, ?_⟩
  · dsimp only
    by_cases same : other = unit
    · subst same
      obtain rfl : ⟨(T.rule c.defs other).make (sourcesIn s.dst), some now⟩ = f := by
        rw [FileTree.file?_put put, if_pos rfl] at found
        exact Option.some.inj found
      refine ⟨c.defs, ?_, fun c' stamped' => ?_⟩
      · rw [Function.update_self]
        exact made_written (sourceInput_object object) (FileTree.file?_put put) rfl
      · exact ((stamped_congr stamps).mp stamped').defs stamped
    · have before : s.dst.file? (T.object other) = some f := by
        rw [FileTree.file?_put put, if_neg fun paths => same (T.object_injective paths)] at found
        exact found
      obtain ⟨defs, made, flags⟩ := h.objects other f before
      refine ⟨defs, ?_, fun c' stamped' => flags c' ((stamped_congr stamps).mp stamped')⟩
      rw [Function.update_of_ne same]
      exact made.since since (h.dated _ f before)
  · dsimp only
    rw [making]
    refine ⟨staged.congr fun path covered => ?_, (stamped_congr stamps).mpr stamped⟩
    rw [FileTree.file?_put put, if_neg]
    exact fun same => not_covered_of_object (same ▸ object) covered

theorem Fresh.step (h : Fresh T s) (step : Guarded (SiteStep T) Faithful s e t) : Fresh T t := by
  obtain ⟨step, faithful⟩ := step
  have phase := h.phase
  cases step with
  | @stage os core dst now c idle ticks staged =>
    have since := since_stageCore ticks staged
    have apart : ∀ q, ¬Covered q → dst.file? q = s.dst.file? q := fun q => file?_stageCore staged
    refine ⟨h.dated.since since ticks.1, h.kept since (fun path f object found => ?_) fun c => ?_, ?_⟩
    · rw [apart path (not_covered_of_object object)] at found
      exact found
    · exact (stamped_congr (apart stampPath not_covered_stampPath)).mp
    · rintro core' ⟨⟩
      exact sourcesIn_stageCore staged faithful.1 faithful.2
  | @stageCut os core copies m now idle ticks copied =>
    have since := since_copies ticks copied
    have apart : ∀ q, ¬Covered q → m.dst.file? q = s.dst.file? q := fun q => file?_copies copied
    refine ⟨h.dated.since since ticks.1, h.kept since (fun path f object found => ?_) fun c => ?_, ?_⟩
    · rw [apart path (not_covered_of_object object)] at found
      exact found
    · exact (stamped_congr (apart stampPath not_covered_stampPath)).mp
    · dsimp only
      rw [idle]
      trivial
  | checkout c idle => exact ⟨h.dated, h.objects, nofun⟩
  | @invalidate os core c dst now staged ticks written =>
    rw [staged] at phase
    unfold invalidateOnStampChange at written
    split at written
    next current =>
      cases written
      have since : Since File.modified s.now now s.dst.file? s.dst.file? := fun _ _ found => .inl found
      exact ⟨h.dated.since since ticks.1, h.objects, phase, current⟩
    next stale =>
      have spec := Build.restamped ticks (faithful core c staged stale) written
      exact h.restamped ticks spec ⟨phase.congr spec.sources, spec.stamp⟩
  | @invalidateCut os core c staged stale =>
    have since : Since File.modified s.now s.now s.dst.file? (dropObjects os s.dst).file? :=
      fun _ _ found => .inl (dropObjects_sub found)
    refine ⟨h.dated.since since (le_refl _), h.kept since (fun _ _ _ => dropObjects_sub) ?_, trivial⟩
    intro c stamped
    obtain ⟨f, found, bytes⟩ := Option.map_eq_some_iff.mp stamped
    exact Option.map_eq_some_iff.mpr ⟨f, dropObjects_sub found, bytes⟩
  | @tear os core c dst text now staged stale ticks part put =>
    exact h.restamped ticks (Build.restamped ticks (faithful core c staged stale) put) trivial
  | make ready =>
    rw [ready] at phase
    exact ⟨h.dated, h.objects, phase⟩
  | compile unit making ticks put => exact h.compiled making ticks put
  | finish making current =>
    rw [making] at phase
    exact ⟨h.dated, h.objects, phase.1, phase.2, current⟩
  | interrupt => exact ⟨h.dated, h.objects, trivial⟩
  | @edit dst now idle later since kept =>
    refine ⟨h.dated.since since later, h.kept since (fun path f object found => ?_) fun c => ?_, ?_⟩
    · rw [kept path (.inl object)] at found
      exact found
    · exact (stamped_congr (kept stampPath (.inr rfl))).mp
    · dsimp only
      rw [idle]
      trivial

end Rayforce.Build
