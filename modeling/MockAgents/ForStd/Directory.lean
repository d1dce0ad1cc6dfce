import Mathlib.Data.String.Basic
import MockAgents.ForStd.SortedMap

/-!
# A flat directory of files

The files of one directory by their paths, in the order in which `os.ReadDir` lists
them. Every operation is atomic: `os.ReadFile`, a write through a temporary file and a
rename, `os.Remove` and `os.Rename`.
-/

/-- The files of a directory, sorted by path. -/
structure Directory where
  files : List (String × Bytes)
  sorted : SortedMap.Sorted files

namespace Directory

/-- No files. -/
def empty : Directory := ⟨[], .nil⟩

/-- `os.ReadFile`; `none` when there is no such file. -/
def read (d : Directory) (path : String) : Option Bytes := d.files.lookup path

/-- `os.ReadDir`: the paths of the files, in order. -/
def paths (d : Directory) : List String := d.files.map Prod.fst

/-- Create or replace a file. -/
def write (d : Directory) (path : String) (data : Bytes) : Directory :=
  ⟨SortedMap.insert path data d.files, d.sorted.insert path data⟩

def remove (d : Directory) (path : String) : Directory :=
  ⟨d.files.filter fun e => e.1 ≠ path, d.sorted.filter _⟩

/-- `os.Rename`: the file replaces one that may stand under the new path. -/
def rename (d : Directory) (old new : String) : Directory :=
  match d.read old with
  | none => d
  | some data => (d.remove old).write new data

variable (d : Directory) (path : String)

/-- A path of a sorted list has one entry, so the listing and the reads agree. -/
theorem mem_files (data : Bytes) : (path, data) ∈ d.files ↔ d.read path = some data := by
  obtain ⟨files, hsorted⟩ := d
  show (path, data) ∈ files ↔ files.lookup path = some data
  induction files with
  | nil => simp
  | cons e files ih =>
    obtain ⟨hhead, htail⟩ := List.pairwise_cons.mp hsorted
    by_cases hpath : path = e.1
    · have hgone : (path, data) ∉ files := fun h => by
        have hlt := hhead _ h
        exact absurd hpath.symm (ne_of_lt hlt)
      rw [List.mem_cons, or_iff_left hgone, List.lookup_cons, hpath]
      simp [Prod.ext_iff, eq_comm]
    · have hne : (path, data) ≠ e := fun h => hpath (congrArg Prod.fst h)
      rw [List.mem_cons, or_iff_right hne, ih htail, List.lookup_cons,
        beq_eq_false_iff_ne.mpr hpath]

theorem mem_paths : path ∈ d.paths ↔ ∃ data, d.read path = some data := by
  constructor
  · intro h
    obtain ⟨e, he, rfl⟩ := List.mem_map.mp h
    exact ⟨e.2, (d.mem_files e.1 e.2).mp he⟩
  · rintro ⟨data, h⟩
    exact List.mem_map.mpr ⟨(path, data), (d.mem_files path data).mpr h, rfl⟩

theorem read_write (path' : String) (data : Bytes) :
    (d.write path data).read path' = if path' = path then some data else d.read path' := by
  split
  · rename_i h
    subst h
    exact (mem_files _ _ _).mp (SortedMap.mem_insert_self _ _ _)
  · rename_i hne
    refine Option.ext fun data' => ?_
    rw [← mem_files, ← mem_files]
    constructor
    · intro h
      rcases SortedMap.mem_insert h with heq | h
      · exact absurd (congrArg Prod.fst heq) hne
      · exact h
    · exact fun h => SortedMap.mem_insert_of_ne h hne

theorem read_remove (path' : String) :
    (d.remove path).read path' = if path' = path then none else d.read path' := by
  refine Option.ext fun data => ?_
  rw [← mem_files, remove, List.mem_filter, mem_files]
  by_cases h : path' = path <;> simp [h]

theorem read_rename {d : Directory} {old new : String} {data : Bytes}
    (h : d.read old = some data) (path : String) :
    (d.rename old new).read path =
      if path = new then some data else if path = old then none else d.read path := by
  rw [rename, h]
  show ((d.remove old).write new data).read path = _
  rw [read_write, read_remove]

end Directory
