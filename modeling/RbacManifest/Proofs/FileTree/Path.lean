import Mathlib.Data.List.Basic
import RbacManifest.FileTree.Path
import RbacManifest.Proofs.Text.Split

/-!
# Joined paths

A path that is continued by a relative path leads through the names of the first and then takes the
steps of the second.
-/

namespace RbacManifest

namespace Path

variable {path more : String}

theorem names_join (relative : isAbsolute more = false) :
    names (join path more) = names path ++ names more := by
  simp only [join, relative, Bool.false_eq_true, if_false]
  split
  · next atEnd =>
    rcases Bool.or_eq_true _ _ |>.mp atEnd with empty | slash
    · have path_eq : path = "" := by simpa using empty
      subst path_eq
      simp [names, Text.pieces]
    · have slash_last : path.toList.getLast? = some '/' := by simpa using slash
      rcases List.getLast?_eq_some_iff.mp slash_last with ⟨before, path_eq⟩
      have joined_eq : (path ++ more).toList = before ++ '/' :: more.toList := by
        simp [path_eq]
      simp only [names, joined_eq, path_eq, Text.pieces_append_separator]
      simp [Text.pieces]
  · have joined_eq : (path ++ "/" ++ more).toList = path.toList ++ '/' :: more.toList := by
      simp
    simp [names, joined_eq, Text.pieces_append_separator]

theorem getLast?_join (relative : isAbsolute more = false) (nonempty : more ≠ "") :
    (join path more).toList.getLast? = more.toList.getLast? := by
  have chars_nonempty : more.toList ≠ [] := by simpa using nonempty
  have last_append (chars : List Char) :
      (chars ++ more.toList).getLast? = more.toList.getLast? := by
    rw [List.getLast?_append_of_ne_nil _ chars_nonempty]
  simp only [join, relative, Bool.false_eq_true, if_false]
  split
  · simp only [String.toList_append, last_append]
  · simp only [String.toList_append, last_append]

theorem steps_join (relative : isAbsolute more = false) (nonempty : more ≠ "") :
    steps (join path more) = names path ++ steps more := by
  simp only [steps, names_join relative, getLast?_join relative nonempty, List.append_assoc]

theorem isAbsolute_join (relative : isAbsolute more = false) (nonempty : path ≠ "") :
    isAbsolute (join path more) = isAbsolute path := by
  have chars_nonempty : path.toList ≠ [] := by simpa using nonempty
  simp only [join, relative, Bool.false_eq_true, if_false]
  split
  · simp [isAbsolute, List.head?_append_of_ne_nil _ chars_nonempty]
  · simp [isAbsolute, List.head?_append_of_ne_nil _ chars_nonempty]

theorem isSuffix_join : more.toList <:+ (join path more).toList := by
  rw [join]
  split
  · exact List.suffix_refl _
  split
  · rw [String.toList_append]
    exact List.suffix_append _ _
  · rw [String.toList_append]
    exact List.suffix_append _ _

/-- The last step of a path ends as the path does. -/
theorem exists_steps_of_isSuffix {ending : List Char} (nonempty : ending ≠ [])
    (noSlash : '/' ∉ ending) (isSuffix : ending <:+ path.toList) :
    ∃ before last, steps path = before ++ [last] ∧ ending <:+ last.toList := by
  rcases isSuffix with ⟨start, path_eq⟩
  rcases Text.exists_pieces_append noSlash with ⟨before, last, pieces_eq⟩
  have noSlashLast : path.toList.getLast? ≠ some '/' := by
    rw [← path_eq, List.getLast?_append_of_ne_nil _ nonempty]
    exact fun isLast => noSlash (List.mem_of_getLast? isLast)
  have kept : (last ++ ending).isEmpty = false := by simp [nonempty]
  refine ⟨(before.filter (!·.isEmpty)).map String.ofList, String.ofList (last ++ ending), ?_, ?_⟩
  · rw [steps, if_neg noSlashLast, names, ← path_eq, pieces_eq, List.filter_append]
    simp [kept]
  · rw [String.toList_ofList]
    exact List.suffix_append _ _

theorem join_left_injective {other : String} (more_relative : isAbsolute more = false)
    (other_relative : isAbsolute other = false) (same : join path more = join path other) :
    more = other := by
  simp only [join, more_relative, other_relative, Bool.false_eq_true, if_false] at same
  split at same
  · simpa using same
  · simpa using same

end Path

end RbacManifest
