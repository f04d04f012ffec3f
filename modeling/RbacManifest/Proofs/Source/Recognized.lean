import RbacManifest.Proofs.Source.Written

/-!
# Which lines are markers

A line is a marker if it consists of the token of a comment, an opening and a body, with white
space around each of them. `Source.recognizes_commentTokens` states that a body is found on these
lines and on no others, so that neither text in front of the comment nor a second token passes for a
part of a marker.
-/

namespace RbacManifest

namespace Marker

/-- Whether a line is a marker with a body. -/
inductive IsMarker (tokens : List String) : List Char → List Char → Prop
  | parts {margin gap space body behind : List Char} {token opening : String}
      (isMargin : margin.all Text.isBlank = true) (isToken : token ∈ tokens)
      (isGap : gap.all Text.isBlank = true) (isOpening : opening ∈ openings)
      (isSpace : space.all Text.isBlank = true) (isBody : Text.IsTrimmed body)
      (isBehind : behind.all Text.isBlank = true) :
      IsMarker tokens
        (margin ++ token.toList ++ gap ++ opening.toList ++ space ++ body ++ behind) body

/-- Whether bodies are found on the markers among all lines, and on no others. -/
structure RecognizesMarkers (tokens : List String) : Prop where
  recognized : ∀ line body, body? tokens line = some body ↔ IsMarker tokens line body
  unique : ∀ line body other,
    IsMarker tokens line body → IsMarker tokens line other → other = body
  rejected : ∀ line, body? tokens line = none ↔ ∀ body, ¬IsMarker tokens line body
  /-- Something else stands in front of the first token. -/
  textBefore : ∀ line, (∀ token ∈ tokens, ¬token.toList <+: Text.trimStart line) →
    body? tokens line = none
  /-- The comment is one of another type of file. -/
  otherToken : ∀ (margin rest : List Char), ∀ token ∈ commentTokens, token ∉ tokens →
    margin.all Text.isBlank = true → body? tokens (margin ++ token.toList ++ rest) = none
  /-- There is a comment inside of the comment. -/
  twoTokens : ∀ (margin gap rest : List Char), ∀ token ∈ tokens, ∀ second ∈ commentTokens,
    margin.all Text.isBlank = true → gap.all Text.isBlank = true →
      body? tokens (margin ++ token.toList ++ gap ++ second.toList ++ rest) = none

variable {tokens : List String} {line body margin gap rest : List Char} {token second : String}

theorem isTight_commentToken (isToken : token ∈ commentTokens) :
    Text.IsTight token.toList := by
  revert token
  decide

theorem isMarker_of_body? (found : body? tokens line = some body) : IsMarker tokens line body := by
  simp only [body?, Option.bind_eq_bind, Option.bind_eq_some_iff, Option.pure_def,
    Option.some.injEq] at found
  rcases found with ⟨comment, after_token, rest, after_opening, body_eq⟩
  rcases Text.exists_of_afterAny? after_token with ⟨_, token_mem, line_eq⟩
  rcases Text.exists_of_afterAny? after_opening with ⟨_, opening_mem, comment_eq⟩
  rcases List.mem_map.mp token_mem with ⟨token, isToken, rfl⟩
  rcases List.mem_map.mp opening_mem with ⟨opening, isOpening, rfl⟩
  rcases Text.trim_eq_iff.mp line_eq with ⟨_, margin, behindLine, isMargin, lineBlank, split⟩
  rcases Text.trim_eq_iff.mp comment_eq with
    ⟨_, gap, behindComment, isGap, commentBlank, comment_split⟩
  rcases Text.trim_eq_iff.mp body_eq with ⟨isBody, space, behindBody, isSpace, bodyBlank, rfl⟩
  have isBehind : (behindBody ++ behindComment ++ behindLine).all Text.isBlank = true := by
    simp only [List.all_append, bodyBlank, commentBlank, lineBlank, Bool.and_self]
  have isMarker := IsMarker.parts isMargin isToken isGap isOpening isSpace isBody isBehind
  rw [split, comment_split]
  simpa only [List.append_assoc] using isMarker

theorem body?_eq_none_of_start
    (otherwise : ∀ token ∈ tokens, ¬token.toList <+: Text.trimStart line) :
    body? tokens line = none := by
  have absent : Text.afterAny? (tokens.map String.toList) (Text.trim line) = none := by
    apply Text.afterAny?_eq_none_iff.mpr
    rw [List.forall_mem_map]
    intro token isToken isStart
    apply otherwise token isToken
    exact isStart.trans (Text.trim_prefix_trimStart line)
  rw [body?, absent]
  rfl

section Tokens

variable (apart : Text.AreApart (tokens.map String.toList))
  (tight : ∀ token ∈ tokens, Text.IsTight token.toList)

include apart tight

theorem body?_eq_some_iff : body? tokens line = some body ↔ IsMarker tokens line body := by
  constructor
  · exact isMarker_of_body?
  · intro isMarker
    cases isMarker with
    | parts isMargin isToken isGap isOpening isSpace isBody isBehind =>
        simp only [List.append_assoc]
        rw [body?_of_opening apart tight isToken isMargin isGap isOpening,
          Text.trim_append isSpace, Text.trim_append_blank isBehind, isBody.trim_eq]

/-- What stands behind a second token is no body. -/
theorem body?_of_second (isToken : token ∈ tokens) (isSecond : second ∈ commentTokens)
    (isMargin : margin.all Text.isBlank = true) (isGap : gap.all Text.isBlank = true) :
    body? tokens (margin ++ token.toList ++ gap ++ second.toList ++ rest) = none := by
  have startsApart : Text.AreApart ((openings ++ commentTokens).map String.toList) := by decide
  have differ : ∀ opening ∈ openings, ∀ second ∈ commentTokens, opening ≠ second := by decide
  have noOpening : ∀ opening ∈ openings,
      ¬opening.toList <+: second.toList ++ Text.trimEnd rest := by
    intro opening isOpening isStart
    apply differ opening isOpening second isSecond
    apply String.toList_inj.mp
    refine startsApart.eq_of_prefix ?_ ?_ isStart
    · exact List.mem_map_of_mem (List.mem_append_left _ isOpening)
    · exact List.mem_map_of_mem (List.mem_append_right _ isSecond)
  simp only [List.append_assoc]
  rw [body?_of_token apart tight isToken isMargin, Text.trim_append isGap,
    Text.trim_append_of_isTight (isTight_commentToken isSecond),
    Text.afterAny?_eq_none_iff.mpr, Option.map_none]
  rwa [List.forall_mem_map]

end Tokens

end Marker

namespace Source

open Marker

variable {path token : String} {margin rest : List Char}

theorem body?_of_otherToken (isToken : token ∈ Marker.commentTokens)
    (isOther : token ∉ commentTokens path) (isMargin : margin.all Text.isBlank = true) :
    body? (commentTokens path) (margin ++ token.toList ++ rest) = none := by
  have known : ∀ own ∈ commentTokens path, own ∈ Marker.commentTokens :=
    commentTokens_cases (fun tokens => ∀ own ∈ tokens, own ∈ Marker.commentTokens)
      (by decide) (by decide) (by decide)
  have apart : Text.AreApart (Marker.commentTokens.map String.toList) := by decide
  apply body?_eq_none_of_start
  intro own isOwn isStart
  rw [List.append_assoc, Text.trimStart_append isMargin,
    Text.trimStart_append_of_isTight (isTight_commentToken isToken)] at isStart
  have same : own = token := by
    apply String.toList_inj.mp
    exact apart.eq_of_prefix (List.mem_map_of_mem (known own isOwn))
      (List.mem_map_of_mem isToken) isStart
  rw [same] at isOwn
  exact isOther isOwn

/-- In a file of any type, the lines with the form of a marker are recognised, and no others. -/
theorem recognizes_commentTokens (path : String) : RecognizesMarkers (commentTokens path) := by
  have found_iff (line body : List Char) :
      body? (commentTokens path) line = some body ↔ IsMarker (commentTokens path) line body :=
    body?_eq_some_iff areApart_commentTokens isTight_of_mem_commentTokens
  constructor
  · exact found_iff
  · intro line body other isMarker otherMarker
    rw [← found_iff] at isMarker otherMarker
    exact Option.some.inj (otherMarker.symm.trans isMarker)
  · intro line
    simp only [Option.eq_none_iff_forall_ne_some, ne_eq, found_iff]
  · intro line otherwise
    exact body?_eq_none_of_start otherwise
  · intro margin rest token isToken isOther isMargin
    exact body?_of_otherToken isToken isOther isMargin
  · intro margin gap rest token isToken second isSecond isMargin isGap
    exact body?_of_second areApart_commentTokens isTight_of_mem_commentTokens isToken isSecond
      isMargin isGap

/-- White space of all sorts may stand around the parts of a marker. -/
example : body? (commentTokens "a.py") "\t#\u2003+rbac:\u00A0verbs=get \u000C".toList =
    some "verbs=get".toList := by
  decide

end Source

end RbacManifest
