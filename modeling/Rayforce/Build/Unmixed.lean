import Rayforce.Build.Stamp

/-! The objects that `make lib` finds.  As long as no object survives its removal with other flags than
the stamp gets, the stamp stands for every object there is, whatever was interrupted. -/

namespace Rayforce.Build

open Transition

variable {s t : Script} {e : Event} {es : List Event} {c : Config} {core core' : Tree} {path : Path}
  {x : Content}

theorem object_ne_stamp (object : Object path) : path ≠ stampPath := by
  rintro rfl
  exact absurd object.1 (by decide)

theorem object_ne_nil (object : Object path) : path ≠ [] := by
  rintro rfl
  exact absurd object.1 (by decide)

/-- The visit leaves no object out. -/
theorem mem_objects (object : Object path) (found : core.file? path = some x) : path ∈ objects core := by
  obtain ⟨⟨below, rfl⟩, named⟩ := object
  have deeper : below ≠ [] := by
    rintro rfl
    exact absurd named (by decide)
  exact List.mem_filter.mpr ⟨FileTree.mem_visited deeper found, named⟩

theorem object_of_mem_objects (mem : path ∈ objects core) : Object path := by
  obtain ⟨visited, named⟩ := List.mem_filter.mp mem
  exact ⟨FileTree.prefix_of_mem_visited visited, named⟩

theorem AllObjects.mono (h : AllObjects core c)
    (kept : ∀ path x, Object path → core'.file? path = some x → core.file? path = some x) :
    AllObjects core' c :=
  fun path x object found => h path x object (kept path x object found)

/-- What a phase says of the objects and of the stamp. -/
def Phase.Sound (core : Tree) : Phase → Prop
  | .idle => True
  | .removing _ todo failed => (∀ path ∈ todo, Object path) ∧
      ∀ path x, Object path → core.file? path = some x → path ∈ todo ∨ path ∈ failed
  | .stamping _ failed => ∀ path x, Object path → core.file? path = some x → path ∈ failed
  | .ready c | .making c => core.file? stampPath = some (.text c.stamp)

theorem Phase.Sound.congr {phase : Phase} (h : phase.Sound core)
    (same : ∀ path, Object path ∨ path = stampPath → core'.file? path = core.file? path) :
    phase.Sound core' := by
  cases phase with
  | idle => trivial
  | removing c todo failed =>
    obtain ⟨objects, left⟩ := h
    refine ⟨objects, fun path x object found => left path x object ?_⟩
    rwa [← same path (.inl object)]
  | stamping c failed =>
    intro path x object found
    refine h path x object ?_
    rwa [← same path (.inl object)]
  | ready c => exact (same stampPath (.inr rfl)).trans h
  | making c => exact (same stampPath (.inr rfl)).trans h

/-- The stamp, where it is that of some flags, stands for every object. -/
structure Sound (s : Script) : Prop where
  stamped : ∀ c : Config, s.core.file? stampPath = some (.text c.stamp) → AllObjects s.core c
  phase : s.phase.Sound s.core

theorem Sound.all (h : Sound s) (ready : s.phase = .ready c) : AllObjects s.core c := by
  have phase := h.phase
  rw [ready] at phase
  exact h.stamped c phase

/-- A stamp that is written stands for the objects that could not be removed, and there are no others. -/
theorem sound_written {failed : List Path} {text : String} (h : Sound s)
    (stamping : s.phase = .stamping c failed) (clean : Clean s (.write text))
    (put : s.core.put stampPath (.text text) = some core) (c' : Config)
    (stamped : core.file? stampPath = some (.text c'.stamp)) : AllObjects core c' := by
  have phase := h.phase
  rw [stamping] at phase
  rw [FileTree.file?_put put, if_pos rfl] at stamped
  obtain rfl : text = c'.stamp := by
    cases stamped
    rfl
  intro path x object found
  rw [FileTree.file?_put put, if_neg (object_ne_stamp object)] at found
  exact clean c failed stamping path (phase path x object found) object x found c' rfl

/-- What files there still are, the stamp stands for. -/
theorem Sound.stamped_mono (h : Sound s)
    (kept : ∀ path x, core.file? path = some x → s.core.file? path = some x) (c : Config)
    (stamped : core.file? stampPath = some (.text c.stamp)) : AllObjects core c :=
  (h.stamped c (kept _ _ stamped)).mono fun path x _ => kept path x

/-- An object that make compiles has the flags of the stamp. -/
theorem Sound.compiled (h : Sound s) (making : s.phase = .making c) (object : Object path)
    (put : s.core.put path (.object c.defs) = some core) : Sound { s with core := core } := by
  have phase := h.phase
  rw [making] at phase
  have stamp : core.file? stampPath = some (.text c.stamp) := by
    rw [FileTree.file?_put put, if_neg (object_ne_stamp object).symm]
    exact phase
  constructor
  · intro c' stamped
    have flags : c'.defs = c.defs :=
      stamp_injective (Content.text.inj (Option.some.inj (stamped.symm.trans stamp)))
    intro q x object found
    rw [FileTree.file?_put put] at found
    rw [flags]
    split at found
    · cases found
      rfl
    · exact h.stamped c phase q x object found
  · dsimp only
    rw [making]
    exact stamp

theorem Sound.step (h : Sound s) (step : Guarded Step Clean s e t) : Sound t := by
  obtain ⟨step, clean⟩ := step
  have phase := h.phase
  cases step with
  | current c idle same => exact ⟨h.stamped, same⟩
  | changed c idle differs =>
    refine ⟨h.stamped, fun path => object_of_mem_objects, fun path x object found => ?_⟩
    exact .inl (mem_objects object found)
  | @remove c path todo failed removing =>
    rw [removing] at phase
    obtain ⟨objects, left⟩ := phase
    have kept : ∀ q x, (s.core.remove path).file? q = some x → q ≠ path ∧ s.core.file? q = some x :=
      fun q x => FileTree.file?_remove_eq_some (object_ne_nil (objects path List.mem_cons_self))
    refine ⟨h.stamped_mono fun q x found => (kept q x found).2,
      fun q mem => objects q (List.mem_cons_of_mem _ mem), fun q x object found => ?_⟩
    obtain ⟨other, found⟩ := kept q x found
    rcases left q x object found with here | failed
    · exact .inl ((List.mem_cons.mp here).resolve_left other)
    · exact .inr failed
  | @removeFailed c path todo failed removing =>
    rw [removing] at phase
    obtain ⟨objects, left⟩ := phase
    refine ⟨h.stamped, fun q mem => objects q (List.mem_cons_of_mem _ mem), fun q x object found => ?_⟩
    rcases left q x object found with here | failed
    · rcases List.mem_cons.mp here with rfl | todo
      · exact .inr List.mem_cons_self
      · exact .inl todo
    · exact .inr (List.mem_cons_of_mem _ failed)
  | @removeArchive c failed ok removing =>
    rw [removing] at phase
    obtain ⟨-, left⟩ := phase
    have kept : ∀ q x, (if ok then s.core.remove archivePath else s.core).file? q = some x →
        s.core.file? q = some x := by
      intro q x found
      split at found
      · exact (FileTree.file?_remove_eq_some (by decide) found).2
      · exact found
    refine ⟨h.stamped_mono kept, fun q x object found => ?_⟩
    exact (left q x object (kept q x found)).resolve_left List.not_mem_nil
  | write stamping put =>
    refine ⟨fun c' => sound_written h stamping clean put c', ?_⟩
    exact (FileTree.file?_put put stampPath).trans (if_pos rfl)
  | tear text stamping part put => exact ⟨fun c' => sound_written h stamping clean put c', trivial⟩
  | make ready =>
    rw [ready] at phase
    exact ⟨h.stamped, phase⟩
  | compile path making object put => exact h.compiled making object put
  | finish making => exact ⟨h.stamped, trivial⟩
  | interrupt => exact ⟨h.stamped, trivial⟩
  | edit core kept =>
    refine ⟨fun c stamped => ?_, phase.congr kept⟩
    rw [kept stampPath (.inr rfl)] at stamped
    refine (h.stamped c stamped).mono fun q x object found => ?_
    rwa [kept q (.inl object)] at found

theorem sound_reachable (fresh : core.file? stampPath = none)
    (run : Run (Guarded Step Clean) ⟨core, .idle⟩ es s) : Sound s := by
  refine run.invariant (fun _ _ _ => Sound.step) ⟨fun c stamped => ?_, trivial⟩
  cases fresh.symm.trans stamped

/-- Where a stamp is written whole, its objects are of one flavour exactly if that step was clean. -/
theorem allObjects_written_iff {failed : List Path} (h : Sound s) (stamping : s.phase = .stamping c failed)
    (put : s.core.put stampPath (.text c.stamp) = some core) :
    AllObjects core c ↔ Clean s (.write c.stamp) := by
  constructor
  · intro all c' failed' stamping' path mem object x found c'' same
    rw [stamp_injective same]
    refine all path x object ?_
    rwa [FileTree.file?_put put, if_neg (object_ne_stamp object)]
  · intro clean
    exact sound_written h stamping clean put c ((FileTree.file?_put put stampPath).trans (if_pos rfl))

/-- However the runs on one core directory were interrupted, and whatever flags each had: when `make lib`
is started, every object was compiled with the flags it is passed, if each write of the stamp was
clean. -/
theorem never_mixed (fresh : core.file? stampPath = none)
    (run : Run (Guarded Step Clean) ⟨core, .idle⟩ es s) (ready : s.phase = .ready c) :
    AllObjects s.core c :=
  (sound_reachable fresh run).all ready

/-! ### Two builds -/

def release : Config := ⟨.release, none⟩
def debug : Config := ⟨.debug, none⟩

def mainObject : Path := [srcName, name "main.o"]

/-- A directory of one source, and nothing that was built. -/
def unbuilt : Tree := .dir [(srcName, .dir [(name "main.c", .file (.text ""))])]

def stamped : Tree :=
  .dir [(srcName, .dir [(name "main.c", .file (.text ""))]), (name ".stamp", .file (.text release.stamp))]

/-- The directory after a build, with a stamp. -/
def built (c : Config) : Tree :=
  .dir [(srcName, .dir [(name "main.c", .file (.text "")), (name "main.o", .file (.object release.defs))]),
    (name ".stamp", .file (.text c.stamp))]

theorem objects_unbuilt : objects unbuilt = [] := by
  have visited : unbuilt.visited [srcName] = [[srcName, name "main.c"]] := by
    simp [unbuilt, FileTree.visited, FileTree.walk, FileTree.leaves, FileTree.subdirs]
  unfold objects
  rw [visited]
  decide

theorem objects_built (c : Config) : objects (built c) = [mainObject] := by
  have visited : (built c).visited [srcName] = [[srcName, name "main.c"], mainObject] := by
    simp [built, mainObject, FileTree.visited, FileTree.walk, FileTree.leaves, FileTree.subdirs]
  unfold objects
  rw [visited]
  decide

/-- A release build that is not interrupted. -/
theorem release_run : Run (Guarded Step Clean) ⟨unbuilt, .idle⟩
    [.run release, .removeArchive false, .write release.stamp, .make, .compile mainObject, .finish]
    ⟨built release, .idle⟩ := by
  have put : unbuilt.put stampPath (.text release.stamp) = some stamped := rfl
  have compile : stamped.put mainObject (.object release.defs) = some (built release) := rfl
  have none_left := congrArg (Phase.removing release · []) objects_unbuilt
  refine .cons ⟨.changed release rfl (by decide), trivial⟩ ?_
  refine .cons ⟨.removeArchive false none_left, trivial⟩ ?_
  refine .cons ⟨.write rfl put, fun c failed stamping path mem => ?_⟩ ?_
  · cases stamping
    cases mem
  · refine .cons ⟨.make rfl, trivial⟩ ?_
    refine .cons ⟨.compile mainObject rfl (by decide) compile, trivial⟩ ?_
    exact .cons ⟨.finish rfl, trivial⟩ (.nil _)

/-- The same build again finds the objects that it made. -/
theorem never_mixed_release : ∃ s : Script, s.phase = .ready release ∧
    s.core.file? mainObject = some (.object release.defs) ∧ AllObjects s.core release := by
  have again : Guarded Step Clean ⟨built release, .idle⟩ (.run release) ⟨built release, .ready release⟩ :=
    ⟨.current release rfl rfl, trivial⟩
  have run := release_run.append (.single again)
  exact ⟨_, rfl, rfl, never_mixed rfl run rfl⟩

/-- The object of a release build cannot be removed, and the debug build after it keeps it. -/
theorem not_never_mixed : ¬∀ (core : Tree) es s c, core.file? stampPath = none →
    Run Step ⟨core, .idle⟩ es s → s.phase = .ready c → AllObjects s.core c := by
  intro all
  have first : Run Step ⟨unbuilt, .idle⟩ _ ⟨built release, .idle⟩ := release_run.mono fun _ _ _ h => h.1
  have put : (built release).put stampPath (.text debug.stamp) = some (built debug) := rfl
  have left := congrArg (Phase.removing debug · []) (objects_built release)
  have second : Run Step ⟨built release, .idle⟩ _ ⟨built debug, .ready debug⟩ :=
    .cons (.changed debug rfl (by decide)) <| .cons (.removeFailed left) <|
    .cons (.removeArchive false rfl) <| .cons (.write rfl put) <| .nil _
  have flags := all _ _ _ debug rfl (first.append second) rfl mainObject _ (by decide) rfl
  revert flags
  decide

end Rayforce.Build
