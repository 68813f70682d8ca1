import Mathlib.Data.List.Infix
import Mathlib.Logic.Function.Basic
import EncryptedTransfer.Text

/-!
# Windows paths and a disk of locations

A relative path is cut at both separators; walking its components from a directory resolves
`.` and `..`. A disk holds files and directories at locations, the component lists below the
root.
-/
namespace EncryptedTransfer.WindowsPaths
open ByteFormats Text

def backslash : Char := Char.ofNat 92

def isSeparator (c : Char) : Bool := c = backslash || c = '/'

def dot : Str := ['.']

def dotdot : Str := ['.', '.']

/-- The components of a path; empty ones and `.` have no effect. -/
def components (path : Str) : List Str :=
  (path.splitOnP isSeparator).filter (fun c => c ≠ [] ∧ c ≠ dot)

abbrev Location := List Str

def enter (here : Location) (c : Str) : Location :=
  if c = dotdot then here.dropLast else here ++ [c]

def walk (start : Location) (cs : List Str) : Location := cs.foldl enter start

/-- Where a relative path leads from the current directory. -/
def resolve (cwd : Location) (path : Str) : Location := walk cwd (components path)

/-- A path that ends in a separator names no file. -/
def namesFile (path : Str) : Bool := path.getLast?.any (fun c => !isSeparator c)

theorem walk_append (start : Location) (cs ds : List Str) :
    walk start (cs ++ ds) = walk (walk start cs) ds := List.foldl_append

theorem components_append_sep {a : Str} (ha : ∀ c ∈ a, isSeparator c = false) (b : Str) :
    components (a ++ backslash :: b) =
      ([a].filter (fun c => c ≠ [] ∧ c ≠ dot)) ++ components b := by
  rw [components, List.splitOnP_append_cons_of_forall_mem ha backslash (by decide) b,
    ← List.singleton_append, List.filter_append]
  rfl

theorem resolve_append_sep {a : Str} (ha : ∀ c ∈ a, isSeparator c = false) (hne : a ≠ [])
    (hdot : a ≠ dot) (hdotdot : a ≠ dotdot) (cwd : Location) (b : Str) :
    resolve cwd (a ++ backslash :: b) = resolve (cwd ++ [a]) b := by
  rw [resolve, components_append_sep ha, walk_append]
  simp [hne, hdot, walk, enter, hdotdot, resolve]

structure Disk where
  cwd : Location
  files : Location → Option Bytes
  dirs : Location → Bool
  cwd_dirs : ∀ l, l <+: cwd → dirs l = true
  disjoint : ∀ l, dirs l = true → files l = none
  parents : ∀ l, (files l).isSome = true → dirs l.dropLast = true

namespace Disk

variable (d : Disk) (path : Str)

abbrev target : Location := resolve d.cwd path

def pathExists : Bool :=
  if nul ∈ path then false
  else d.dirs (d.target path) || (namesFile path && (d.files (d.target path)).isSome)

/-- A directory is made where nothing is and its parent is a directory. -/
def mkdir : Option Disk :=
  if h : nul ∉ path ∧ d.files (d.target path) = none ∧ d.dirs (d.target path).dropLast = true then
    if d.dirs (d.target path) then none
    else some {
      cwd := d.cwd
      files := d.files
      dirs := Function.update d.dirs (d.target path) true
      cwd_dirs := by
        intro l hl
        rw [Function.update_apply]
        split_ifs
        · rfl
        · exact d.cwd_dirs l hl
      disjoint := by
        intro l hl
        rw [Function.update_apply] at hl
        split_ifs at hl with he
        · rw [he]
          exact h.2.1
        · exact d.disjoint l hl
      parents := by
        intro l hl
        rw [Function.update_apply]
        split_ifs
        · rfl
        · exact d.parents l hl }
  else none

def writeFile (content : Bytes) : Option Disk :=
  if h : nul ∉ path ∧ namesFile path = true ∧ d.dirs (d.target path) = false ∧
      d.dirs (d.target path).dropLast = true then
    some {
      cwd := d.cwd
      files := Function.update d.files (d.target path) (some content)
      dirs := d.dirs
      cwd_dirs := d.cwd_dirs
      disjoint := by
        intro l hl
        have hne : l ≠ d.target path := by
          rintro rfl
          simp [h.2.2.1] at hl
        rw [Function.update_of_ne hne]
        exact d.disjoint l hl
      parents := by
        intro l hl
        by_cases he : l = d.target path
        · rw [he]
          exact h.2.2.2
        · rw [Function.update_of_ne he] at hl
          exact d.parents l hl }
  else none

def readFile : Option Bytes :=
  if nul ∉ path ∧ namesFile path = true then d.files (d.target path) else none

def remove : Option Disk :=
  if _h : nul ∉ path ∧ namesFile path = true ∧ (d.files (d.target path)).isSome = true then
    some {
      cwd := d.cwd
      files := Function.update d.files (d.target path) none
      dirs := d.dirs
      cwd_dirs := d.cwd_dirs
      disjoint := by
        intro l hl
        rw [Function.update_apply]
        split_ifs
        · rfl
        · exact d.disjoint l hl
      parents := by
        intro l hl
        by_cases he : l = d.target path
        · rw [he, Function.update_self] at hl
          cases hl
        · rw [Function.update_of_ne he] at hl
          exact d.parents l hl }
  else none

variable {d path}

theorem mkdir_files {d' : Disk} (h : d.mkdir path = some d') :
    d'.cwd = d.cwd ∧ d'.files = d.files := by
  unfold mkdir at h
  split_ifs at h
  obtain rfl := Option.some.inj h
  exact ⟨rfl, rfl⟩

/-- A write changes at most the one location its path leads to. -/
theorem writeFile_files {d' : Disk} {content : Bytes} (h : d.writeFile path content = some d') :
    d'.cwd = d.cwd ∧ (nul ∉ path ∧ namesFile path = true ∧ d.dirs (d.target path) = false) ∧
      ∀ l, l ≠ d.target path → d'.files l = d.files l := by
  unfold writeFile at h
  split_ifs at h with hc
  obtain rfl := Option.some.inj h
  exact ⟨rfl, ⟨hc.1, hc.2.1, hc.2.2.1⟩, fun l hl => Function.update_of_ne hl _ _⟩

theorem remove_isSome (hn : nul ∉ path) (hf : namesFile path = true)
    (hfile : (d.files (d.target path)).isSome = true) :
    ∃ d', d.remove path = some d' ∧ d'.files (d.target path) = none := by
  have hc : nul ∉ path ∧ namesFile path = true ∧ (d.files (d.target path)).isSome = true :=
    ⟨hn, hf, hfile⟩
  unfold remove
  rw [dif_pos hc]
  exact ⟨_, rfl, Function.update_self _ _ _⟩

theorem remove_files {d' : Disk} (h : d.remove path = some d') :
    d'.cwd = d.cwd ∧
      (nul ∉ path ∧ namesFile path = true ∧ d.dirs (d.target path) = false) ∧
      ∀ l, l ≠ d.target path → d'.files l = d.files l := by
  unfold remove at h
  split_ifs at h with hc
  obtain rfl := Option.some.inj h
  refine ⟨rfl, ⟨hc.1, hc.2.1, ?_⟩, fun l hl => Function.update_of_ne hl _ _⟩
  rw [Bool.eq_false_iff]
  intro hd
  simp [d.disjoint _ hd] at hc

end Disk

end EncryptedTransfer.WindowsPaths
