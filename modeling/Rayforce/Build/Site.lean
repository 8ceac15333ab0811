import Rayforce.Build.Mirror
import Rayforce.Build.Stamp
import Rayforce.Lib.Rebuild

/-! The build script's runs on one core directory, file by file (`rayforce-sys/build.rs`): the core is
staged, or is a checkout that is built where it stands, objects are dropped where the stamp changes,
and make compiles what is missing or older than what it was compiled from.  The clock ticks between
any two writes. -/

namespace Rayforce.Build

open Transition

def Config.stampBytes (c : Config) : List UInt8 := c.stamp.toUTF8.data.toList

def Stamped (c : Config) (dst : FileTree Name File) : Prop :=
  (dst.file? stampPath).map (·.bytes) = some c.stampBytes

instance (c : Config) (dst : FileTree Name File) : Decidable (Stamped c dst) :=
  inferInstanceAs (Decidable (_ = _))

def removeIf (os : Os) (dst : FileTree Name File) (path : Path) : FileTree Name File :=
  if os.removes path then dst.remove path else dst

/-- The objects that the visit of `src` comes to, and the archive. -/
def dropObjects (os : Os) (dst : FileTree Name File) : FileTree Name File :=
  removeIf os (((dst.visited [srcName]).filter isObject).foldl (removeIf os) dst) archivePath

/-- There is none where the source panics: the stamp cannot be written. -/
def invalidateOnStampChange (os : Os) (c : Config) (dst : FileTree Name File) :
    Option (FileTree Name File) :=
  if Stamped c dst then some dst
  else (dropObjects os dst).put stampPath ⟨c.stampBytes, os.now stampPath⟩

/-! ### Make -/

/-- The bytes at the paths that a compiler may read. -/
abbrev Sources := Path → Option (List UInt8)

/-- A source, as far as compilers read files. -/
def sourceInput (path : Path) (file : File) : Option (List UInt8) :=
  if Covered path then some file.bytes else none

def sourcesIn (dst : FileTree Name File) : Sources := Rebuild.view sourceInput dst.file?

def Core.bytes (core : Core) (path : Path) : Option (List UInt8) :=
  (core.source? path).map (·.bytes)

/-- The core's Makefile and the compiler: the units that `make lib` archives, the object of each, and
how it is compiled with the flags on make's command line. -/
structure Toolchain where
  units : Sources → List Path
  object : Path → Path
  rule : List String → Path → Rebuild.Rule Path (List UInt8)
  object_injective : Function.Injective object
  object_isObject : ∀ unit, Object (object unit)

/-! ### Runs -/

/-- Where one run of the script stands.  A core is named where it was staged. -/
inductive SitePhase
  | idle
  | staged (core : Option Core) (c : Config)
  | ready (core : Option Core) (c : Config)
  | making (core : Option Core) (c : Config)
  /-- `make lib` has succeeded. -/
  | built (core : Option Core) (c : Config)

structure Site where
  dst : FileTree Name File
  /-- What the last compile of each unit read, as make recorded it. -/
  deps : Path → List Path
  now : Int
  phase : SitePhase

inductive SiteEvent
  | stage (os : Os) (core : Core) (c : Config)
  /-- The script is interrupted after some copies. -/
  | stageCut (os : Os) (core : Core) (copies : Nat)
  | checkout (c : Config)
  | invalidate (os : Os)
  /-- The script is interrupted before the stamp is written, or within. -/
  | invalidateCut (os : Os)
  | tear (os : Os) (text : List UInt8)
  | make
  | compile (unit : Path)
  | finish
  | interrupt
  | edit

/-- Whatever is written, at a time of its own. -/
def Os.Ticks (os : Os) (now now' : Int) : Prop :=
  now ≤ now' ∧ ∀ path, ∃ τ, os.now path = some τ ∧ now < τ ∧ τ ≤ now'

/-- What make finds of a unit, where it compiles nothing. -/
def Site.UpToDate (T : Toolchain) (s : Site) (unit : Path) : Prop :=
  ∃ f, s.dst.file? (T.object unit) = some f ∧
    Rebuild.UpToDate File.modified (s.deps unit) s.dst.file? f

inductive SiteStep (T : Toolchain) : Site → SiteEvent → Site → Prop
  | stage {s : Site} {os : Os} {core : Core} {dst : FileTree Name File} {now : Int} (c : Config) :
      s.phase = .idle → os.Ticks s.now now → stageCore os core s.dst = some dst →
      SiteStep T s (.stage os core c) { s with dst, now, phase := .staged (some core) c }
  | stageCut {s : Site} {os : Os} {core : Core} {copies : Nat} {m : Staging} {now : Int} :
      s.phase = .idle → os.Ticks s.now now →
      (core.sources.take copies).foldlM (copy os) ⟨s.dst, []⟩ = some m →
      SiteStep T s (.stageCut os core copies) { s with dst := m.dst, now }
  | checkout {s : Site} (c : Config) :
      s.phase = .idle → SiteStep T s (.checkout c) { s with phase := .staged none c }
  | invalidate {s : Site} {os : Os} {core : Option Core} {c : Config} {dst : FileTree Name File}
      {now : Int} :
      s.phase = .staged core c → os.Ticks s.now now → invalidateOnStampChange os c s.dst = some dst →
      SiteStep T s (.invalidate os) { s with dst, now, phase := .ready core c }
  | invalidateCut {s : Site} {os : Os} {core : Option Core} {c : Config} :
      s.phase = .staged core c → ¬Stamped c s.dst →
      SiteStep T s (.invalidateCut os) { s with dst := dropObjects os s.dst, phase := .idle }
  | tear {s : Site} {os : Os} {core : Option Core} {c : Config} {dst : FileTree Name File}
      {text : List UInt8} {now : Int} :
      s.phase = .staged core c → ¬Stamped c s.dst → os.Ticks s.now now → text <+: c.stampBytes →
      (dropObjects os s.dst).put stampPath ⟨text, os.now stampPath⟩ = some dst →
      SiteStep T s (.tear os text) { s with dst, now, phase := .idle }
  | make {s : Site} {core : Option Core} {c : Config} :
      s.phase = .ready core c → SiteStep T s .make { s with phase := .making core c }
  | compile {s : Site} {core : Option Core} {c : Config} {dst : FileTree Name File} {now : Int}
      (unit : Path) :
      s.phase = .making core c → s.now < now →
      s.dst.put (T.object unit) ⟨(T.rule c.defs unit).make (sourcesIn s.dst), some now⟩ = some dst →
      SiteStep T s (.compile unit) { s with
        dst, now
        deps := Function.update s.deps unit ((T.rule c.defs unit).reads (sourcesIn s.dst)) }
  | finish {s : Site} {core : Option Core} {c : Config} :
      s.phase = .making core c → (∀ unit ∈ T.units (sourcesIn s.dst), s.UpToDate T unit) →
      SiteStep T s .finish { s with phase := .built core c }
  | interrupt {s : Site} : SiteStep T s .interrupt { s with phase := .idle }
  /-- Between runs, files that are neither objects nor the stamp come and go. -/
  | edit {s : Site} {dst : FileTree Name File} {now : Int} :
      s.phase = .idle → s.now ≤ now → Rebuild.Since File.modified s.now now s.dst.file? dst.file? →
      (∀ path, Object path ∨ path = stampPath → dst.file? path = s.dst.file? path) →
      SiteStep T s .edit { s with dst, now }

/-- What staging takes for current is the same, and what it wants removed goes, objects of other flags
included. -/
def Faithful (s : Site) : SiteEvent → Prop
  | .stage os core _ => CurrentIsSame os core s.dst ∧ RemovesStale os core s.dst
  | .invalidate os | .tear os _ => ∀ core c, s.phase = .staged core c → ¬Stamped c s.dst →
      ∀ path, Object path → s.dst.file? path ≠ none → os.removes path = true
  | _ => True

end Rayforce.Build
