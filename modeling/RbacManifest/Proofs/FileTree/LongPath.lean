import RbacManifest.Proofs.FileTree.Names

/-!
# Paths that are too long

A path may be short enough to be followed and still too long to be continued by a name. So there are
directories with entries that cannot be reached through the path of the directory. `Path.still`
makes such paths, which lead nowhere but through many steps that stay in place.
-/

namespace RbacManifest

namespace Path

/-- A path that stays in place, with as many steps and one more. -/
def still : Nat → String
  | 0 => "."
  | count + 1 => "./" ++ still count

theorem toList_still_succ (count : Nat) :
    (still (count + 1)).toList = '.' :: '/' :: (still count).toList := by
  rw [still, String.toList_append]
  rfl

theorem utf8ByteSize_still (count : Nat) : (still count).utf8ByteSize = 2 * count + 1 := by
  induction count with
  | zero => rfl
  | succ count ih =>
      have step_size : ("./" : String).utf8ByteSize = 2 := rfl
      rw [still, String.utf8ByteSize_append, step_size, ih]
      omega

theorem names_still (count : Nat) : names (still count) = List.replicate (count + 1) "." := by
  induction count with
  | zero => rfl
  | succ count ih =>
      have pieces_eq : Text.pieces '/' (still (count + 1)).toList =
          ['.'] :: Text.pieces '/' (still count).toList := by
        rw [toList_still_succ]
        change Text.pieces '/' (['.'] ++ '/' :: (still count).toList) = _
        rw [Text.pieces_append_separator]
        rfl
      rw [names] at ih ⊢
      rw [pieces_eq, List.replicate_succ, ← ih]
      rfl

theorem getLast?_still (count : Nat) : (still count).toList.getLast? = some '.' := by
  induction count with
  | zero => rfl
  | succ count ih =>
      rw [toList_still_succ, List.getLast?_cons_cons, List.getLast?_cons, ih]
      rfl

theorem isPossible_still (count : Nat) : IsPossible (still count) := by
  induction count with
  | zero => decide
  | succ count ih =>
      rw [IsPossible, toList_still_succ]
      simpa [IsPossible] using ih

theorem steps_still (count : Nat) : steps (still count) = List.replicate (count + 1) "." := by
  rw [steps, getLast?_still, names_still]
  simp

theorem isAbsolute_still (count : Nat) : isAbsolute (still count) = false := by
  cases count with
  | zero => rfl
  | succ count => simp [isAbsolute, toList_still_succ]

/-- A path that is continued is not shorter than both parts. -/
theorem utf8ByteSize_lt_join {path more : String} (relative : isAbsolute more = false)
    (open_ended : path.toList.getLast? ≠ some '/') (nonempty : path ≠ "") :
    path.utf8ByteSize < (join path more).utf8ByteSize := by
  have separator_size : ("/" : String).utf8ByteSize = 1 := rfl
  have isFollowed : (path.isEmpty || path.toList.getLast? = some '/') = false := by
    simp [open_ended, nonempty]
  rw [join, relative, isFollowed]
  simp only [Bool.false_eq_true, if_false, String.utf8ByteSize_append, separator_size]
  omega

end Path

namespace FileTree

variable {tree : FileTree} {path : String} {entries : List (String × Entry)}

theorem list_of_longPath (possible : Path.IsPossible path)
    (tooLong : longPath ≤ path.utf8ByteSize) : tree.list path = .error .nameTooLong := by
  have noNull : path.toList.contains '\x00' = false := by
    simpa [Path.IsPossible] using possible
  have resolve_eq : tree.resolve true path = .error .nameTooLong := by
    rw [resolve, noNull, if_neg Bool.false_ne_true, if_pos tooLong]
  rw [list, entry, resolve_eq]
  rfl

theorem walk_still (root : Entry) (here : Place) (count : Nat) :
    walk root true here (List.replicate count ".") = .arrived (.found here) := by
  induction count with
  | zero => rfl
  | succ count ih =>
      rw [List.replicate_succ, walk, if_pos rfl]
      exact ih

/-- The root is listed through a path that stays in place, if the path is not too long itself. -/
theorem list_still {count : Nat} (short : 2 * count + 1 < longPath) :
    (FileTree.mk (.directory entries) []).list (Path.still count) = .ok entries := by
  have noNull : (Path.still count).toList.contains '\x00' = false := by
    simpa [Path.IsPossible] using Path.isPossible_still count
  have fits : ¬longPath ≤ (Path.still count).utf8ByteSize := by
    rw [Path.utf8ByteSize_still]
    omega
  have nonempty : (Path.still count).isEmpty = false := by
    cases count <;> simp [Path.still]
  refine list_eq_ok_iff.mpr ⟨[], ?_, rfl⟩
  rw [resolve, noNull, if_neg Bool.false_ne_true, if_neg fits, nonempty, if_neg Bool.false_ne_true,
    Path.steps_still, follow, walk_still, Path.isAbsolute_still]
  rfl

/-- No directory can be listed through a longest path that is continued. -/
theorem list_join_still {name : String} (relative : Path.isAbsolute name = false)
    (possible : Path.IsPossible name) {count : Nat} (long : longPath ≤ 2 * count + 2) :
    tree.list (Path.join (Path.still count) name) = .error .nameTooLong := by
  apply list_of_longPath ((Path.isPossible_still count).join possible)
  have open_ended : (Path.still count).toList.getLast? ≠ some '/' := by
    simp [Path.getLast?_still]
  have nonempty : Path.still count ≠ "" := by
    cases count <;> simp [Path.still]
  have longer := Path.utf8ByteSize_lt_join relative open_ended nonempty
  rw [Path.utf8ByteSize_still] at longer
  omega

end FileTree

end RbacManifest
