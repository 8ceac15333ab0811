import Mathlib.Algebra.Order.Ring.Nat
import Mathlib.Data.List.Nodup

/-! File trees: directories of named entries, what stands at a path, the creation and the removal of a
file, and the visit of every file of a directory. -/

inductive FileTree (N F : Type*)
  | file (content : F)
  | dir (entries : List (N × FileTree N F))

namespace FileTree

variable {N F : Type*} {entries : List (N × FileTree N F)} {path q : List N} {f g : F}

/-- The directories among the entries, each with the path it is at. -/
def subdirs (path : List N) : List (N × FileTree N F) → List (List N × List (N × FileTree N F))
  | [] => []
  | (_, .file _) :: entries => subdirs path entries
  | (n, .dir inner) :: entries => (path ++ [n], inner) :: subdirs path entries

def leaves (path : List N) : List (N × FileTree N F) → List (List N)
  | [] => []
  | (n, .file _) :: entries => (path ++ [n]) :: leaves path entries
  | (_, .dir _) :: entries => leaves path entries

theorem sizeOf_subdirs (path : List N) (entries : List (N × FileTree N F)) :
    ((subdirs path entries).map fun d => sizeOf d.2).sum < sizeOf entries := by
  induction entries with
  | nil => simp [subdirs]
  | cons entry entries ih =>
    obtain ⟨n, t⟩ := entry
    cases t with
    | file f =>
      simp only [subdirs, List.cons.sizeOf_spec]
      omega
    | dir inner =>
      simp [subdirs]
      omega

/-- Every file under the directories, which stand on a stack: the one on top is taken down, its files
are visited, and its own directories are put on top. -/
def walk : List (List N × List (N × FileTree N F)) → List (List N)
  | [] => []
  | (path, entries) :: dirs => leaves path entries ++ walk ((subdirs path entries).reverse ++ dirs)
termination_by dirs => (dirs.map fun d => sizeOf d.2).sum
decreasing_by
  have := sizeOf_subdirs path entries
  simp only [List.map_append, List.map_reverse, List.sum_append, List.sum_reverse, List.map_cons,
    List.sum_cons]
  omega

theorem prefix_of_mem_leaves (mem : q ∈ leaves path entries) : path <+: q := by
  induction entries with
  | nil => cases mem
  | cons entry entries ih =>
    obtain ⟨n, u⟩ := entry
    cases u with
    | dir inner => exact ih mem
    | file g =>
      rcases List.mem_cons.mp mem with rfl | mem
      · exact List.prefix_append ..
      · exact ih mem

theorem prefix_of_mem_subdirs {d : List N × List (N × FileTree N F)} (mem : d ∈ subdirs path entries) :
    path <+: d.1 := by
  induction entries with
  | nil => cases mem
  | cons entry entries ih =>
    obtain ⟨n, u⟩ := entry
    cases u with
    | file g => exact ih mem
    | dir inner =>
      rcases List.mem_cons.mp mem with rfl | mem
      · exact List.prefix_append ..
      · exact ih mem

theorem prefix_of_mem_walk {dirs : List (List N × List (N × FileTree N F))} (mem : q ∈ walk dirs) :
    ∃ d ∈ dirs, d.1 <+: q := by
  induction dirs using walk.induct with
  | case1 =>
    rw [walk] at mem
    cases mem
  | case2 top here dirs ih =>
    rw [walk, List.mem_append] at mem
    rcases mem with leaf | deeper
    · exact ⟨_, List.mem_cons_self, prefix_of_mem_leaves leaf⟩
    · obtain ⟨d, mem, leads⟩ := ih deeper
      rcases List.mem_append.mp mem with sub | below
      · have down := prefix_of_mem_subdirs (List.mem_reverse.mp sub)
        exact ⟨_, List.mem_cons_self, down.trans leads⟩
      · exact ⟨d, List.mem_cons_of_mem _ below, leads⟩

mutual

/-- The files, in the order of their directories' entries. -/
def files : FileTree N F → List (List N × F)
  | .file f => [([], f)]
  | .dir entries => filesIn entries

def filesIn : List (N × FileTree N F) → List (List N × F)
  | [] => []
  | (n, t) :: entries => t.files.map (fun e => (n :: e.1, e.2)) ++ filesIn entries

end

mutual

/-- No two entries of a directory have the same name. -/
def Distinct : FileTree N F → Prop
  | .file _ => True
  | .dir entries => DistinctIn entries

def DistinctIn : List (N × FileTree N F) → Prop
  | [] => True
  | (n, t) :: entries => t.Distinct ∧ (∀ e ∈ entries, e.1 ≠ n) ∧ DistinctIn entries

end

theorem head_of_mem_filesIn (mem : (path, f) ∈ filesIn entries) :
    ∃ e ∈ entries, ∃ below, path = e.1 :: below := by
  induction entries with
  | nil => cases mem
  | cons entry entries ih =>
    obtain ⟨n, t⟩ := entry
    rw [filesIn, List.mem_append, List.mem_map] at mem
    rcases mem with ⟨⟨below, g⟩, -, eq⟩ | mem
    · cases eq
      exact ⟨(n, t), List.mem_cons_self, below, rfl⟩
    · obtain ⟨e, under, below, eq⟩ := ih mem
      exact ⟨e, List.mem_cons_of_mem _ under, below, eq⟩

mutual

/-- No file's path leads through a file that stands earlier or later in the list. -/
theorem files_pairwise : ∀ (t : FileTree N F), t.Distinct → t.files.Pairwise fun a b => ¬b.1 <+: a.1
  | .file g, _ => by
    rw [files]
    exact List.pairwise_singleton _ _
  | .dir entries, distinct => by
    rw [files]
    exact filesIn_pairwise entries (by rwa [Distinct] at distinct)

theorem filesIn_pairwise : ∀ (entries : List (N × FileTree N F)), DistinctIn entries →
    (filesIn entries).Pairwise fun a b => ¬b.1 <+: a.1
  | [], _ => by
    rw [filesIn]
    exact List.Pairwise.nil
  | (n, t) :: entries, distinct => by
    rw [DistinctIn] at distinct
    obtain ⟨first, others, rest⟩ := distinct
    rw [filesIn, List.pairwise_append, List.pairwise_map]
    refine ⟨?_, filesIn_pairwise entries rest, ?_⟩
    · refine (files_pairwise t first).imp ?_
      intro a b apart leads
      exact apart (List.cons_prefix_cons.mp leads).2
    · intro a mem b mem' leads
      obtain ⟨e, -, rfl⟩ := List.mem_map.mp mem
      obtain ⟨e', under, below, eq⟩ := head_of_mem_filesIn mem'
      rw [eq] at leads
      exact others e' under (List.cons_prefix_cons.mp leads).1

end

/-! ### Paths -/

variable [DecidableEq N]

def node? : FileTree N F → List N → Option (FileTree N F)
  | t, [] => some t
  | .file _, _ :: _ => none
  | .dir entries, n :: path => (entries.lookup n).bind (·.node? path)

/-- The file itself, of what stands at a path. -/
def content? : FileTree N F → Option F
  | .file f => some f
  | .dir _ => none

def file? (t : FileTree N F) (path : List N) : Option F := (t.node? path).bind content?

/-- The file, and the directories that lead to it. -/
def branch : List N → F → FileTree N F
  | [], f => .file f
  | n :: path, f => .dir [(n, branch path f)]

/-- The entry of that name is replaced, or added. -/
def setEntry (n : N) (t : FileTree N F) : List (N × FileTree N F) → List (N × FileTree N F)
  | [] => [(n, t)]
  | (m, u) :: entries => if m = n then (n, t) :: entries else (m, u) :: setEntry n t entries

/-- A file is written, with the directories it needs.  There is none where a directory stands in its
place, or a file in that of a directory. -/
def put : FileTree N F → List N → F → Option (FileTree N F)
  | .file _, [], f => some (.file f)
  | .dir _, [], _ => none
  | .file _, _ :: _, _ => none
  | .dir entries, n :: path, f =>
    match entries.lookup n with
    | some t => (t.put path f).map fun t => .dir (setEntry n t entries)
    | none => some (.dir (setEntry n (branch path f) entries))

/-- The file at the path is removed, if one stands there. -/
def remove : FileTree N F → List N → FileTree N F
  | .dir entries, [n] =>
    match entries.lookup n with
    | some (.file _) => .dir (entries.filter fun e => e.1 ≠ n)
    | _ => .dir entries
  | .dir entries, n :: path =>
    match entries.lookup n with
    | some t => .dir (setEntry n (t.remove path) entries)
    | none => .dir entries
  | t, _ => t

/-- Every file under the path, which has none where no directory stands there. -/
def visited (t : FileTree N F) (path : List N) : List (List N) :=
  match t.node? path with
  | some (.dir entries) => walk [(path, entries)]
  | _ => []

/-! ### What stands at a path -/

variable {t t' : FileTree N F} {n m : N}

@[simp] theorem node?_nil (t : FileTree N F) : t.node? [] = some t := by
  cases t <;> rfl

@[simp] theorem node?_dir (entries : List (N × FileTree N F)) (n : N) (path : List N) :
    (FileTree.dir entries).node? (n :: path) = (entries.lookup n).bind (·.node? path) := rfl

theorem file?_dir (entries : List (N × FileTree N F)) (n : N) (path : List N) :
    (FileTree.dir entries).file? (n :: path) = (entries.lookup n).bind (·.file? path) := by
  unfold file?
  rw [node?_dir]
  cases entries.lookup n <;> rfl

theorem lookup_entry (k : N) (t : FileTree N F) (entries : List (N × FileTree N F)) (m : N) :
    ((k, t) :: entries).lookup m = if m = k then some t else entries.lookup m := by
  rw [List.lookup_cons]
  by_cases same : m = k
  · simp [same]
  · simp [same, beq_false_of_ne same]

theorem lookup_setEntry (n : N) (t : FileTree N F) (entries : List (N × FileTree N F)) (m : N) :
    (setEntry n t entries).lookup m = if m = n then some t else entries.lookup m := by
  induction entries with
  | nil => exact lookup_entry n t [] m
  | cons entry entries ih =>
    obtain ⟨k, u⟩ := entry
    unfold setEntry
    by_cases found : k = n
    · subst found
      rw [if_pos rfl, lookup_entry, lookup_entry]
      by_cases same : m = k
      · rw [if_pos same, if_pos same]
      · rw [if_neg same, if_neg same, if_neg same]
    · rw [if_neg found, lookup_entry, lookup_entry, ih]
      by_cases same : m = k
      · subst same
        rw [if_pos rfl, if_neg found, if_pos rfl]
      · rw [if_neg same, if_neg same]

theorem lookup_filter (n : N) (entries : List (N × FileTree N F)) (m : N) :
    (entries.filter fun e => e.1 ≠ n).lookup m = if m = n then none else entries.lookup m := by
  induction entries with
  | nil => exact (ite_self none).symm
  | cons entry entries ih =>
    obtain ⟨k, u⟩ := entry
    by_cases dropped : k = n
    · subst dropped
      rw [List.filter_cons_of_neg (by simp), ih, lookup_entry]
      by_cases same : m = k
      · rw [if_pos same, if_pos same]
      · rw [if_neg same, if_neg same, if_neg same]
    · rw [List.filter_cons_of_pos (by simpa using dropped), lookup_entry, lookup_entry, ih]
      by_cases same : m = k
      · subst same
        rw [if_pos rfl, if_neg dropped, if_pos rfl]
      · rw [if_neg same, if_neg same]

theorem file?_branch (path : List N) (f : F) (q : List N) :
    (branch path f).file? q = if q = path then some f else none := by
  induction path generalizing q with
  | nil =>
    cases q with
    | nil => rfl
    | cons n q => rfl
  | cons n path ih =>
    cases q with
    | nil => rfl
    | cons m q =>
      unfold branch file?
      unfold file? at ih
      rw [node?_dir, lookup_entry]
      by_cases same : m = n
      · subst same
        simp [ih]
      · simp [same]

theorem node?_branch (aside : ¬q <+: path) : (branch path f : FileTree N F).node? q = none := by
  induction path generalizing q with
  | nil =>
    cases q with
    | nil => exact absurd List.nil_prefix aside
    | cons n q => rfl
  | cons n path ih =>
    cases q with
    | nil => exact absurd List.nil_prefix aside
    | cons m q =>
      unfold branch
      rw [node?_dir, lookup_entry]
      by_cases same : m = n
      · subst same
        rw [if_pos rfl]
        exact ih fun leads => aside (List.cons_prefix_cons.mpr ⟨rfl, leads⟩)
      · rw [if_neg same]
        rfl

/-- A write replaces the entry that it goes through, or adds the whole branch. -/
theorem put_dir_eq_some (h : (FileTree.dir entries).put (n :: path) f = some t') :
    ∃ u, t' = .dir (setEntry n u entries) ∧ (entries.lookup n = none ∧ u = branch path f ∨
      ∃ v, entries.lookup n = some v ∧ v.put path f = some u) := by
  unfold put at h
  cases found : entries.lookup n with
  | none =>
    rw [found] at h
    cases h
    exact ⟨_, rfl, .inl ⟨rfl, rfl⟩⟩
  | some v =>
    rw [found] at h
    obtain ⟨u, put, rfl⟩ := Option.map_eq_some_iff.mp h
    exact ⟨u, rfl, .inr ⟨v, rfl, put⟩⟩

theorem file?_put (h : t.put path f = some t') (q : List N) :
    t'.file? q = if q = path then some f else t.file? q := by
  induction path generalizing t t' q with
  | nil =>
    cases t with
    | dir entries => cases h
    | file g =>
      cases h
      cases q with
      | nil => rfl
      | cons n q => rfl
  | cons n path ih =>
    cases t with
    | file g => cases h
    | dir entries =>
      obtain ⟨u, rfl, entry⟩ := put_dir_eq_some h
      have inner : ∀ q, u.file? q = if q = path then some f else (entries.lookup n).bind (·.file? q) := by
        intro q
        rcases entry with ⟨missing, rfl⟩ | ⟨v, found, put⟩
        · rw [missing]
          exact file?_branch path f q
        · rw [found]
          exact ih put q
      cases q with
      | nil => rfl
      | cons m q =>
        rw [file?_dir, file?_dir, lookup_setEntry]
        by_cases same : m = n
        · subst same
          rw [if_pos rfl, Option.bind_some, inner]
          simp
        · simp [same]

/-- A path that does not lead to the file that is written keeps what stands there. -/
theorem node?_put (h : t.put path f = some t') (aside : ¬q <+: path) : t'.node? q = t.node? q := by
  induction path generalizing t t' q with
  | nil =>
    cases t with
    | dir entries => cases h
    | file g =>
      cases h
      cases q with
      | nil => exact absurd List.nil_prefix aside
      | cons n q => rfl
  | cons n path ih =>
    cases q with
    | nil => exact absurd List.nil_prefix aside
    | cons m q =>
      cases t with
      | file g => cases h
      | dir entries =>
        obtain ⟨u, rfl, entry⟩ := put_dir_eq_some h
        have inner : ∀ q, ¬q <+: path → u.node? q = (entries.lookup n).bind (·.node? q) := by
          intro q aside
          rcases entry with ⟨missing, rfl⟩ | ⟨v, found, put⟩
          · rw [missing]
            exact node?_branch aside
          · rw [found]
            exact ih put aside
        rw [node?_dir, node?_dir, lookup_setEntry]
        by_cases same : m = n
        · subst same
          rw [if_pos rfl, Option.bind_some, inner]
          exact fun leads => aside (List.cons_prefix_cons.mpr ⟨rfl, leads⟩)
        · rw [if_neg same]

theorem file?_remove_single (entries : List (N × FileTree N F)) (n : N) (q : List N) :
    ((FileTree.dir entries).remove [n]).file? q =
      if q = [n] then none else (FileTree.dir entries).file? q := by
  unfold remove
  split
  · next g found =>
    cases q with
    | nil => rfl
    | cons m q =>
      rw [file?_dir, file?_dir, lookup_filter]
      by_cases same : m = n
      · subst same
        rw [if_pos rfl, found]
        cases q with
        | nil => rw [if_pos rfl]; rfl
        | cons k q => exact (ite_self none).symm
      · rw [if_neg same, if_neg (by simp [same])]
  · next other =>
    split
    · next same =>
      subst same
      rw [file?_dir]
      cases found : entries.lookup n with
      | none => rfl
      | some u =>
        cases u with
        | file g => exact absurd found (other g)
        | dir inner => rfl
    · rfl

theorem file?_remove_dir (entries : List (N × FileTree N F)) (path q : List N) :
    ((FileTree.dir entries).remove path).file? q =
      if q = path then none else (FileTree.dir entries).file? q := by
  induction path generalizing entries q with
  | nil =>
    cases q with
    | nil => rfl
    | cons m q => rfl
  | cons n path ih =>
    cases path with
    | nil => exact file?_remove_single entries n q
    | cons k path =>
      unfold remove
      cases found : entries.lookup n with
      | none =>
        dsimp only
        split
        · next same =>
          subst same
          rw [file?_dir, found]
          rfl
        · rfl
      | some u =>
        cases q with
        | nil => rfl
        | cons m q =>
          rw [file?_dir, file?_dir, lookup_setEntry]
          by_cases same : m = n
          · subst same
            rw [if_pos rfl, found]
            simp only [Option.bind_some, List.cons.injEq, true_and]
            cases u with
            | dir inner => exact ih inner q
            | file g =>
              split
              · next below =>
                subst below
                rfl
              · rfl
          · rw [if_neg same, if_neg (by simp [same])]

/-- Only the file at the path goes. -/
theorem file?_remove (t : FileTree N F) (named : path ≠ []) (q : List N) :
    (t.remove path).file? q = if q = path then none else t.file? q := by
  cases t with
  | dir entries => exact file?_remove_dir entries path q
  | file g =>
    obtain ⟨n, path, rfl⟩ := List.exists_cons_of_ne_nil named
    have same : (FileTree.file g).remove (n :: path) = .file g := rfl
    rw [same]
    split
    · next at_path =>
      rw [at_path]
      rfl
    · rfl

theorem file?_remove_eq_some (named : path ≠ []) (found : (t.remove path).file? q = some f) :
    q ≠ path ∧ t.file? q = some f := by
  rw [file?_remove t named] at found
  split at found
  · cases found
  · next other => exact ⟨other, found⟩

/-! ### The visit of every file -/

theorem mem_leaves (found : entries.lookup n = some (.file f)) : path ++ [n] ∈ leaves path entries := by
  induction entries with
  | nil => cases found
  | cons entry entries ih =>
    obtain ⟨k, u⟩ := entry
    rw [lookup_entry] at found
    split at found
    · next same =>
      cases found
      rw [same]
      exact List.mem_cons_self
    · cases u with
      | file g => exact List.mem_cons_of_mem _ (ih found)
      | dir inner => exact ih found

theorem mem_subdirs {inner : List (N × FileTree N F)} (found : entries.lookup n = some (.dir inner)) :
    (path ++ [n], inner) ∈ subdirs path entries := by
  induction entries with
  | nil => cases found
  | cons entry entries ih =>
    obtain ⟨k, u⟩ := entry
    rw [lookup_entry] at found
    split at found
    · next same =>
      cases found
      rw [same]
      exact List.mem_cons_self
    · cases u with
      | file g => exact ih found
      | dir inner' => exact List.mem_cons_of_mem _ (ih found)

/-- No file under a directory of the stack is left out. -/
theorem mem_walk {dirs : List (List N × List (N × FileTree N F))} (mem : (path, entries) ∈ dirs)
    (found : (FileTree.dir entries).file? q = some f) : path ++ q ∈ walk dirs := by
  induction dirs using walk.induct generalizing path entries q with
  | case1 => cases mem
  | case2 top here dirs ih =>
    rw [walk, List.mem_append]
    rcases List.mem_cons.mp mem with same | below
    · cases same
      cases q with
      | nil => cases found
      | cons n q =>
        unfold file? at found
        rw [node?_dir] at found
        cases entry : here.lookup n with
        | none =>
          rw [entry] at found
          cases found
        | some u =>
          rw [entry] at found
          cases u with
          | file g =>
            cases q with
            | nil => exact .inl (mem_leaves entry)
            | cons m q => cases found
          | dir inner =>
            right
            have under : (top ++ [n], inner) ∈ (subdirs top here).reverse ++ dirs :=
              List.mem_append_left dirs (List.mem_reverse.mpr (mem_subdirs entry))
            have deeper := ih under found
            rwa [List.append_assoc] at deeper
    · exact .inr (ih (List.mem_append_right _ below) found)

theorem node?_append (t : FileTree N F) (path q : List N) :
    t.node? (path ++ q) = (t.node? path).bind (·.node? q) := by
  induction path generalizing t with
  | nil => simp
  | cons n path ih =>
    cases t with
    | file g => rfl
    | dir entries =>
      rw [List.cons_append, node?_dir, node?_dir]
      cases entries.lookup n with
      | none => rfl
      | some u => exact ih u

theorem mem_visited (below : q ≠ []) (found : t.file? (path ++ q) = some f) :
    path ++ q ∈ t.visited path := by
  unfold file? at found
  rw [node?_append] at found
  unfold visited
  cases node : t.node? path with
  | none =>
    rw [node] at found
    cases found
  | some u =>
    rw [node] at found
    cases u with
    | dir entries => exact mem_walk List.mem_cons_self found
    | file g =>
      obtain ⟨n, q, rfl⟩ := List.exists_cons_of_ne_nil below
      cases found

theorem prefix_of_mem_visited (mem : q ∈ t.visited path) : path <+: q := by
  unfold visited at mem
  split at mem
  · obtain ⟨d, only, leads⟩ := prefix_of_mem_walk mem
    rwa [List.mem_singleton.mp only] at leads
  · cases mem

/-! ### The list of the files -/

mutual

/-- Where no name stands twice, the list has every file at its path. -/
theorem mem_files : ∀ (t : FileTree N F), t.Distinct → ∀ (path : List N) (f : F),
    (path, f) ∈ t.files ↔ t.file? path = some f
  | .file g, _, [], f => by
    rw [files, List.mem_singleton, Prod.mk.injEq]
    exact ⟨fun same => congrArg some same.2.symm, fun same => ⟨rfl, (Option.some.inj same).symm⟩⟩
  | .file g, _, n :: path, f => by
    rw [files, List.mem_singleton]
    exact iff_of_false nofun nofun
  | .dir entries, distinct, path, f => by
    rw [files]
    exact mem_filesIn entries (by rwa [Distinct] at distinct) path f

theorem mem_filesIn : ∀ (entries : List (N × FileTree N F)), DistinctIn entries →
    ∀ (path : List N) (f : F),
    (path, f) ∈ filesIn entries ↔ (FileTree.dir entries).file? path = some f
  | [], _, path, f => by
    rw [filesIn]
    cases path with
    | nil => exact iff_of_false nofun nofun
    | cons n path => exact iff_of_false nofun nofun
  | (n, t) :: entries, distinct, path, f => by
    rw [DistinctIn] at distinct
    obtain ⟨first, others, rest⟩ := distinct
    rw [filesIn, List.mem_append, mem_filesIn entries rest, List.mem_map]
    cases path with
    | nil =>
      refine iff_of_false ?_ nofun
      rintro (⟨e, -, eq⟩ | found)
      · cases eq
      · cases found
    | cons m path =>
      rw [file?_dir, file?_dir, lookup_entry]
      by_cases same : m = n
      · subst same
        have gone : entries.lookup m = none := by
          rw [List.lookup_eq_none_iff]
          intro e mem
          simpa using (others e mem).symm
        rw [if_pos rfl, gone]
        constructor
        · rintro (⟨e, mem, eq⟩ | found)
          · cases eq
            exact (mem_files t first _ _).mp mem
          · cases found
        · intro found
          exact .inl ⟨(path, f), (mem_files t first path f).mpr found, rfl⟩
      · rw [if_neg same]
        constructor
        · rintro (⟨e, -, eq⟩ | found)
          · cases eq
            exact absurd rfl same
          · exact found
        · exact .inr

end

end FileTree
