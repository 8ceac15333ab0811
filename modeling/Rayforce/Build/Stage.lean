import Rayforce.Lib.FileTree

/-! The build script's copy of the core (`rayforce-sys/build.rs`): sources are copied from the core's
tree to the staging directory where the copy there does not look current, and sources that the core's
tree does not have are deleted.  The file system answers every read. -/

namespace Rayforce.Build

/-- A file's name, in bytes. -/
abbrev Name := List UInt8

abbrev Path := List Name

def name (s : String) : Name := s.toList.map fun c => c.toNat.toUInt8

def makefileName : Name := name "Makefile"
def includeName : Name := name "include"
def srcName : Name := name "src"

/-- A modification time, where the system keeps one. -/
structure File where
  bytes : List UInt8
  modified : Option Int
  deriving DecidableEq, Repr

structure Metadata where
  len : Nat
  modified : Option Int

def File.metadata (file : File) : Metadata := ⟨file.bytes.length, file.modified⟩

abbrev Directory := List (Name × FileTree Name File)

/-- What `stage_core` reads of the core: its Makefile and two directories. -/
structure Core where
  makefile : File
  includeDir : Directory
  srcDir : Directory
  includeDistinct : (FileTree.dir includeDir).Distinct
  srcDistinct : (FileTree.dir srcDir).Distinct

/-- What the system says of a directory that stands in a file's place, the time a file is written at,
and whether it removes a file. -/
structure Os where
  directory : Path → Metadata
  now : Path → Option Int
  removes : Path → Bool

/-- `Path::extension` of a name: what follows its last dot, if more than that precedes the dot. -/
def extension (name : Name) : Option Name :=
  if name = [46, 46] then none
  else
    match name.reverse.span (· ≠ 46) with
    | (after, _ :: before) => if before = [] then none else some after.reverse
    | (_, []) => none

def isSource (path : Path) : Bool :=
  match path.getLast?.bind extension with
  | some extension => extension = name "c" || extension = name "h"
  | none => false

/-- The staging directory, and every destination touched in it. -/
structure Staging where
  dst : FileTree Name File
  staged : List Path

def Os.metadata (os : Os) (path : Path) : FileTree Name File → Metadata
  | .file file => file.metadata
  | .dir _ => os.directory path

def isCurrent (os : Os) (file : File) (dst : FileTree Name File) (dest : Path) : Bool :=
  match dst.node? dest with
  | none => false
  | some node =>
    let t := os.metadata dest node
    match file.modified, t.modified with
    | some fm, some tm => fm ≤ tm && file.bytes.length = t.len
    | _, _ => false

/-- There is none where the source panics: no directory can be made there, or no file. -/
def copyIfStale (os : Os) (file : File) (dest : Path) (s : Staging) : Option Staging :=
  let s := { s with staged := dest :: s.staged }
  if isCurrent os file s.dst dest then some s
  else (s.dst.put dest ⟨file.bytes, os.now dest⟩).map fun dst => { s with dst := dst }

mutual

def mirror (os : Os) : Directory → Path → Staging → Option Staging
  | [], _, s => some s
  | (name, entry) :: entries, dest, s =>
    (mirrorEntry os entry (dest ++ [name]) s).bind fun s => mirror os entries dest s

/-- The copy has the name of what it is a copy of. -/
def mirrorEntry (os : Os) : FileTree Name File → Path → Staging → Option Staging
  | .dir entries, dest, s => mirror os entries dest s
  | .file file, dest, s => if isSource dest then copyIfStale os file dest s else some s

end

def prune (os : Os) (staged : List Path) (dst : FileTree Name File) (path : Path) :
    FileTree Name File :=
  if isSource path && !staged.contains path && os.removes path then dst.remove path else dst

/-- What is deleted has been visited, so that the visit is that of the tree before any deletion. -/
def pruneRoot (os : Os) (staged : List Path) (dst : FileTree Name File) (root : Name) :
    FileTree Name File :=
  (dst.visited [root]).foldl (prune os staged) dst

def pruneStale (os : Os) (s : Staging) : FileTree Name File :=
  [srcName, includeName].foldl (pruneRoot os s.staged) s.dst

def stageCore (os : Os) (core : Core) (dst : FileTree Name File) : Option (FileTree Name File) := do
  let s ← copyIfStale os core.makefile [makefileName] ⟨dst, []⟩
  let s ← mirror os core.includeDir [includeName] s
  let s ← mirror os core.srcDir [srcName] s
  return pruneStale os s

/-! ### The sources of a directory -/

variable {os : Os} {file : File} {dest path q : Path} {s s' : Staging} {entries : Directory}

/-- The files to copy, each with the path it is copied to. -/
def sources (dest : Path) (t : FileTree Name File) : List (Path × File) :=
  (t.files.map fun e => (dest ++ e.1, e.2)).filter fun e => isSource e.1

def copy (os : Os) (s : Staging) (e : Path × File) : Option Staging := copyIfStale os e.2 e.1 s

theorem sources_cons (dest : Path) (n : Name) (t : FileTree Name File) (entries : Directory) :
    sources dest (.dir ((n, t) :: entries)) = sources (dest ++ [n]) t ++ sources dest (.dir entries) := by
  unfold sources
  simp [FileTree.files, FileTree.filesIn, Function.comp_def]

mutual

theorem mirror_eq (os : Os) : ∀ (entries : Directory) (dest : Path) (s : Staging),
    mirror os entries dest s = (sources dest (.dir entries)).foldlM (copy os) s
  | [], dest, s => by
    simp [mirror, sources, FileTree.files, FileTree.filesIn]
  | (n, t) :: entries, dest, s => by
    rw [mirror, mirrorEntry_eq os t, sources_cons, List.foldlM_append]
    congr 1
    funext s
    exact mirror_eq os entries dest s

theorem mirrorEntry_eq (os : Os) : ∀ (t : FileTree Name File) (dest : Path) (s : Staging),
    mirrorEntry os t dest s = (sources dest t).foldlM (copy os) s
  | .dir entries, dest, s => by
    rw [mirrorEntry]
    exact mirror_eq os entries dest s
  | .file file, dest, s => by
    rw [mirrorEntry]
    split
    · next source => simp [sources, FileTree.files, source, copy]
    · next other => simp [sources, FileTree.files, other]

end

end Rayforce.Build
