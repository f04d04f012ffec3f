import Mathlib.Data.List.Basic
import RbacManifest.Yaml.Token

/-!
# Resolving keys piece by piece

Where a key begins is known only at its colon, so the tokens of a row depend on what follows. A
piece of a row whose colons name marks of the piece itself is resolved by itself: `Token.Resolves`.
-/

namespace RbacManifest

namespace Yaml

namespace Token

/-- Whether a row does not break off at a place where the text is no token. -/
def Unbroken (lexemes : List Lexeme) : Prop :=
  ∀ awaited fault, .broken awaited fault ∉ lexemes

theorem unbroken_append_iff {lexemes others : List Lexeme} :
    Unbroken (lexemes ++ others) ↔ Unbroken lexemes ∧ Unbroken others := by
  simp [Unbroken, forall_and]

/-- What follows the place where a row breaks off makes no difference. -/
theorem resolve_append_of_broken {lexemes : List Lexeme} {awaited : Option Nat} {fault : Fault}
    (isMember : .broken awaited fault ∈ lexemes) (rest : List Lexeme) :
    resolve (lexemes ++ rest) = resolve lexemes := by
  induction lexemes with
  | nil => cases isMember
  | cons first lexemes ih =>
      cases first with
      | broken awaited fault => rfl
      | token token =>
          have isLater : .broken awaited fault ∈ lexemes := by simpa using isMember
          rw [List.cons_append, resolve, resolve, ih isLater]
      | mark index =>
          have isLater : .broken awaited fault ∈ lexemes := by simpa using isMember
          rw [List.cons_append, resolve, resolve, ih isLater]
      | colon index opens =>
          have isLater : .broken awaited fault ∈ lexemes := by simpa using isMember
          rw [List.cons_append, resolve, resolve, ih isLater]

/-- Whether a piece of a row becomes the given tokens in front of every rest of the row whose colons
name no mark before `high`. The colons of both name no mark before `low` then. -/
def Resolves (low high : Nat) (lexemes : List Lexeme) (tokens : List Token) : Prop :=
  ∀ rest, (∀ key ∈ (resolve rest).2, high ≤ key.1) →
    (resolve (lexemes ++ rest)).1 = tokens ++ (resolve rest).1 ∧
      ∀ key ∈ (resolve (lexemes ++ rest)).2, low ≤ key.1

namespace Resolves

variable {low high index : Nat} {lexemes others : List Lexeme} {tokens more : List Token}

theorem nil (ordered : low ≤ high) : Resolves low high [] [] := by
  intro rest behind
  exact ⟨rfl, fun key isMember => Nat.le_trans ordered (behind key isMember)⟩

theorem append {middle : Nat} (first : Resolves low middle lexemes tokens)
    (second : Resolves middle high others more) :
    Resolves low high (lexemes ++ others) (tokens ++ more) := by
  intro rest behind
  rcases second rest behind with ⟨others_eq, others_behind⟩
  rcases first (others ++ rest) others_behind with ⟨lexemes_eq, lexemes_behind⟩
  refine ⟨?_, ?_⟩
  · rw [List.append_assoc, lexemes_eq, others_eq, List.append_assoc]
  · rwa [List.append_assoc]

theorem token (ordered : low ≤ high) (token : Token) :
    Resolves low high [.token token] [token] := by
  intro rest behind
  exact ⟨rfl, fun key isMember => Nat.le_trans ordered (behind key isMember)⟩

theorem row (ordered : low ≤ high) (tokens : List Token) :
    Resolves low high (tokens.map .token) tokens := by
  induction tokens with
  | nil => exact nil ordered
  | cons first rest ih => exact append (token (Nat.le_refl low) first) ih

/-- A mark that no colon names is no token. -/
theorem mark (ordered : low ≤ high) (before : index < high) :
    Resolves low high [.mark index] [] := by
  intro rest behind
  have notNamed : (resolve rest).2.lookup index = none := by
    rw [List.lookup_eq_none_iff]
    intro key isMember
    have key_ne : index ≠ key.1 := Nat.ne_of_lt (Nat.lt_of_lt_of_le before (behind key isMember))
    simpa using key_ne
  refine ⟨?_, ?_⟩
  · simp [resolve, notNamed]
  · intro key isMember
    simp only [List.singleton_append, resolve, notNamed] at isMember
    exact Nat.le_trans ordered (behind key isMember)

/-- A mark that is named by the next colon becomes a key. -/
theorem key (ordered : index ≤ high) (token : Token) (opens : Bool) :
    Resolves index high [.mark index, .token token, .colon index opens]
      ((if opens then [.blockMapping] else []) ++ [.key, token, .value]) := by
  intro rest behind
  refine ⟨?_, ?_⟩
  · cases opens <;> simp [resolve]
  · intro key isMember
    have isMember : key = (index, .ok opens) ∨ key ∈ (resolve rest).2 := by
      cases opens <;> simpa [resolve] using isMember
    rcases isMember with rfl | isMember
    · exact Nat.le_refl _
    · exact Nat.le_trans ordered (behind key isMember)

/-- A piece with something behind it does not break off. -/
theorem unbroken (resolves : Resolves low high lexemes tokens) : Unbroken lexemes := by
  intro awaited fault isMember
  have alone := (resolves [] (by simp [resolve])).1
  have followed := (resolves [.token .comma] (by simp [resolve])).1
  rw [resolve_append_of_broken isMember] at alone followed
  rw [alone] at followed
  simp [resolve] at followed

end Resolves

end Token

end Yaml

end RbacManifest
