import Rayforce.Build.Stage
import Rayforce.Lib.Transition

/-! The build script's runs on one core directory (`rayforce-sys/build.rs`): the flags that each run
passes to `make lib`, the stamp that records them, and the objects that are dropped when it changes. -/

namespace Rayforce.Build

open Transition

inductive Flavour
  | release | debug
  deriving DecidableEq, Repr

/-- The version and the commit that are stamped into a vendored core. -/
structure Pin where
  version : String
  commit : String
  version_blank : ' ' ∉ version.toList
  commit_blank : ' ' ∉ commit.toList

/-- What a run's flags depend on. -/
structure Config where
  flavour : Flavour
  pin : Option Pin

def coreWarns : String := "-Wall -Wextra -Wstrict-prototypes -Wno-unused-parameter"

def debugCflags : String :=
  "RELEASE_CFLAGS=-fPIC $(WARNS) -std=$(STD) -g -O0 -march=$(RAY_MARCH) -DDEBUG -fno-omit-frame-pointer"

/-- The assignments on make's command line. -/
def Config.defs (c : Config) : List String :=
  ("WARNS=" ++ coreWarns) :: ((if c.flavour = .debug then [debugCflags] else []) ++
    match c.pin with
    | some pin => ["RAY_VERSION=" ++ pin.version, "GIT_HASH=" ++ pin.commit]
    | none => [])

def Config.stamp (c : Config) : String := " ".intercalate c.defs

/-- A file of the core directory: an object, with the flags it was compiled with, or a text. -/
inductive Content
  | object (defs : List String)
  | text (s : String)
  deriving DecidableEq, Repr

abbrev Tree := FileTree Name Content

def stampPath : Path := [name ".stamp"]
def archivePath : Path := [name "librayforce.a"]

def isObject (path : Path) : Bool := path.getLast?.bind extension = some (name "o")

/-- Where one run of the script stands. -/
inductive Phase
  | idle
  /-- The stamp has changed: the objects still to remove, and those that could not be. -/
  | removing (c : Config) (todo failed : List Path)
  | stamping (c : Config) (failed : List Path)
  /-- `make lib` is started next. -/
  | ready (c : Config)
  | making (c : Config)

structure Script where
  core : Tree
  phase : Phase

/-- The objects that the visit of `src` comes to. -/
def objects (core : Tree) : List Path := (core.visited [srcName]).filter isObject

/-- An object of the core directory. -/
def Object (path : Path) : Prop := [srcName] <+: path ∧ isObject path = true

instance (path : Path) : Decidable (Object path) := inferInstanceAs (Decidable (_ ∧ _))

inductive Event
  | run (c : Config)
  | remove (path : Path) (ok : Bool)
  | removeArchive (ok : Bool)
  | write (text : String)
  | make
  | compile (path : Path)
  | finish
  | interrupt
  | edit

inductive Step : Script → Event → Script → Prop
  | current {s : Script} (c : Config) :
      s.phase = .idle → s.core.file? stampPath = some (.text c.stamp) →
      Step s (.run c) { s with phase := .ready c }
  | changed {s : Script} (c : Config) :
      s.phase = .idle → s.core.file? stampPath ≠ some (.text c.stamp) →
      Step s (.run c) { s with phase := .removing c (objects s.core) [] }
  | remove {s : Script} {c : Config} {path : Path} {todo failed : List Path} :
      s.phase = .removing c (path :: todo) failed →
      Step s (.remove path true) ⟨s.core.remove path, .removing c todo failed⟩
  | removeFailed {s : Script} {c : Config} {path : Path} {todo failed : List Path} :
      s.phase = .removing c (path :: todo) failed →
      Step s (.remove path false) { s with phase := .removing c todo (path :: failed) }
  | removeArchive {s : Script} {c : Config} {failed : List Path} (ok : Bool) :
      s.phase = .removing c [] failed →
      Step s (.removeArchive ok)
        ⟨if ok then s.core.remove archivePath else s.core, .stamping c failed⟩
  | write {s : Script} {c : Config} {failed : List Path} {core : Tree} :
      s.phase = .stamping c failed → s.core.put stampPath (.text c.stamp) = some core →
      Step s (.write c.stamp) ⟨core, .ready c⟩
  /-- The write is interrupted, and leaves a part of the stamp. -/
  | tear {s : Script} {c : Config} {failed : List Path} {core : Tree} (text : String) :
      s.phase = .stamping c failed → text.toList <+: c.stamp.toList →
      s.core.put stampPath (.text text) = some core →
      Step s (.write text) ⟨core, .idle⟩
  | make {s : Script} {c : Config} : s.phase = .ready c → Step s .make { s with phase := .making c }
  /-- An object that is missing or out of date is compiled. -/
  | compile {s : Script} {c : Config} {core : Tree} (path : Path) :
      s.phase = .making c → Object path → s.core.put path (.object c.defs) = some core →
      Step s (.compile path) { s with core := core }
  | finish {s : Script} {c : Config} : s.phase = .making c → Step s .finish { s with phase := .idle }
  | interrupt {s : Script} : Step s .interrupt { s with phase := .idle }
  /-- Files that are neither objects nor the stamp come and go: sources are staged, and make writes the
  archive. -/
  | edit {s : Script} (core : Tree) :
      (∀ path, Object path ∨ path = stampPath → core.file? path = s.core.file? path) →
      Step s .edit { s with core := core }

/-- Every object was compiled with these flags. -/
def AllObjects (core : Tree) (c : Config) : Prop :=
  ∀ path x, Object path → core.file? path = some x → x = .object c.defs

/-- When the stamp is written, wholly or in part, each object that could not be removed was compiled
with exactly the flags that are written. -/
def Clean (s : Script) : Event → Prop
  | .write text => ∀ c failed, s.phase = .stamping c failed → ∀ path ∈ failed, Object path →
      ∀ x, s.core.file? path = some x → ∀ c' : Config, c'.stamp = text → x = .object c'.defs
  | _ => True

/-! ### The stamp stands for the flags -/

theorem toList_stamp (c : Config) : c.stamp.toList = ("WARNS=" ++ coreWarns).toList ++
    ((if c.flavour = .debug then " ".toList ++ debugCflags.toList else []) ++
      match c.pin with
      | some pin => " RAY_VERSION=".toList ++ (pin.version.toList ++ ' ' ::
          ("GIT_HASH=".toList ++ pin.commit.toList))
      | none => []) := by
  obtain ⟨flavour, pin⟩ := c
  cases flavour <;> cases pin <;> simp [Config.stamp, Config.defs]

/-- A word ends at the first blank. -/
theorem word_inj {v v' rest rest' : List Char} (word : ' ' ∉ v) (word' : ' ' ∉ v')
    (same : v ++ ' ' :: rest = v' ++ ' ' :: rest') : v = v' ∧ rest = rest' := by
  induction v generalizing v' with
  | nil =>
    cases v' with
    | nil => exact ⟨rfl, (List.cons.inj same).2⟩
    | cons a v' =>
      have first : ' ' = a := (List.cons.inj same).1
      exact absurd (first ▸ List.mem_cons_self) word'
  | cons a v ih =>
    cases v' with
    | nil =>
      have first : a = ' ' := (List.cons.inj same).1
      exact absurd (first ▸ List.mem_cons_self) word
    | cons b v' =>
      obtain ⟨first, tails⟩ := List.cons.inj same
      obtain ⟨words, rests⟩ := ih (fun mem => word (List.mem_cons_of_mem _ mem))
        (fun mem => word' (List.mem_cons_of_mem _ mem)) tails
      exact ⟨by rw [first, words], rests⟩

theorem pin_inj {pin pin' : Pin} {r : List Char}
    (same : pin.version.toList ++ ' ' :: (r ++ pin.commit.toList) =
      pin'.version.toList ++ ' ' :: (r ++ pin'.commit.toList)) :
    pin.version = pin'.version ∧ pin.commit = pin'.commit := by
  obtain ⟨version, commit⟩ := word_inj pin.version_blank pin'.version_blank same
  exact ⟨String.toList_inj.mp version, String.toList_inj.mp (List.append_cancel_left commit)⟩

/-- One comparison of the stamp covers the flavour, the version and the commit. -/
theorem stamp_injective {c c' : Config} (same : c.stamp = c'.stamp) : c.defs = c'.defs := by
  have lists := congrArg String.toList same
  rw [toList_stamp, toList_stamp] at lists
  have rest := List.append_cancel_left lists
  obtain ⟨flavour, pin⟩ := c
  obtain ⟨flavour', pin'⟩ := c'
  -- the third letter after the warnings tells the flavour, and the next words the version
  rcases pin with _ | pin <;> rcases pin' with _ | pin' <;> cases flavour <;> cases flavour' <;>
    simp [debugCflags, Config.defs] at rest ⊢
  · exact pin_inj (r := "GIT_HASH=".toList) (by simpa using rest)
  · exact pin_inj (r := "GIT_HASH=".toList) (by simpa using rest)

end Rayforce.Build
