import Mathlib.Data.List.Basic
import Mathlib.Data.String.Basic
import MessageCatalog.Scan

/-!
The files of a scan. They are the paths that are found below the starts and are not left out, each
once and in order.
-/

namespace MessageCatalog

namespace Scan

theorem mem_insertPath {path file : String} {files : List String} :
    file ∈ insertPath path files ↔ file = path ∨ file ∈ files := by
  induction files with
  | nil => simp [insertPath]
  | cons first rest ih =>
      rw [insertPath]
      split
      next same =>
        rw [beq_iff_eq] at same
        simp [same]
      next =>
        split
        next => simp
        next => simp [ih, or_left_comm]

theorem pairwise_insertPath (path : String) {files : List String}
    (sorted : files.Pairwise (· < ·)) : (insertPath path files).Pairwise (· < ·) := by
  induction sorted with
  | nil => exact List.pairwise_singleton _ path
  | @cons first rest before sorted ih =>
      rw [insertPath]
      split
      next => exact .cons before sorted
      next apart =>
        rw [beq_iff_eq] at apart
        split
        next below =>
          refine .cons (fun file member => ?_) (.cons before sorted)
          rcases List.mem_cons.mp member with rfl | later
          · exact below
          · exact lt_trans below (before file later)
        next above =>
          refine .cons (fun file member => ?_) ih
          rcases mem_insertPath.mp member with rfl | later
          · exact lt_of_le_of_ne (not_lt.mp above) (Ne.symm apart)
          · exact before file later

theorem pairwise_foldl_insertPath (paths : List String) {files : List String}
    (sorted : files.Pairwise (· < ·)) :
    (paths.foldl (fun files path => insertPath path files) files).Pairwise (· < ·) := by
  induction paths generalizing files with
  | nil => exact sorted
  | cons path rest ih => exact ih (pairwise_insertPath path sorted)

theorem mem_foldl_insertPath {file : String} {paths files : List String} :
    file ∈ paths.foldl (fun files path => insertPath path files) files ↔
      file ∈ paths ∨ file ∈ files := by
  induction paths generalizing files with
  | nil => simp
  | cons path rest ih =>
      rw [List.foldl_cons, ih, mem_insertPath, List.mem_cons, or_left_comm, or_assoc]

end Scan

theorem scan_files_pairwise (t : FileTree) (base : String) (includes ignores : List String)
    (ignoreTests : Bool) : (scan t base includes ignores ignoreTests).files.Pairwise (· < ·) :=
  Scan.pairwise_foldl_insertPath _ .nil

theorem mem_scan_files {t : FileTree} {base : String} {includes ignores : List String}
    {ignoreTests : Bool} {file : String} :
    file ∈ (scan t base includes ignores ignoreTests).files ↔
      (∃ start ∈ Scan.starts t base includes, ∃ paths, Scan.listed t start = some paths ∧
        file ∈ paths) ∧
      Scan.isListed t (.ofList base ignores ignoreTests) file = true := by
  unfold scan
  dsimp only
  rw [Scan.mem_foldl_insertPath, List.mem_filter, List.mem_flatMap]
  simp only [List.not_mem_nil, or_false]
  refine and_congr_left' (exists_congr fun start => and_congr_right' ?_)
  cases Scan.listed t start <;> simp

theorem isScannable_of_scan {t : FileTree} {base : String} {includes ignores : List String}
    {ignoreTests : Bool} {file : String}
    (member : file ∈ (scan t base includes ignores ignoreTests).files) :
    Scan.isScannable file = true :=
  (Bool.and_eq_true_iff.mp (mem_scan_files.mp member).2).2

end MessageCatalog
