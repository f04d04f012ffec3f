import RbacManifest.Proofs.Plan

/-!
# Outcomes of runs

The outcome of a run in terms of the outcomes of its stages, without the log and the changes to the
tree of files.
-/

namespace RbacManifest

variable {tree : FileTree} {options : Options} {source : String → Logged (List Rule)}

namespace Plan

/-- The options are checked, then the rules are found and checked, and then the plan depends on the
merged rules alone. -/
theorem outcome_make :
    (make tree options source).outcome =
      options.check tree >>= fun _ =>
        (source options.inputDirectory).outcome >>= fun rules =>
          checkRules rules >>= fun _ =>
            if Rule.aggregate rules = [] then .ok ⟨0, []⟩
            else (ofRules options (Rule.aggregate rules)).outcome := by
  simp only [make, merge, Logged.outcome_bind, Logged.outcome_of]
  cases options.check tree with
  | error failure => rfl
  | ok _ =>
      simp only [bind, Except.bind]
      cases (source options.inputDirectory).outcome with
      | error failure => rfl
      | ok rules =>
          simp only
          cases checkRules rules with
          | error failure => rfl
          | ok _ => cases aggregated : Rule.aggregate rules <;> rfl

/-- A manifest that cannot be written is the only failure once the plan is made. -/
theorem failsAs_commit {files : List PlannedFile} :
    FailsAs [.write] (commit tree files).2.outcome := by
  induction files generalizing tree with
  | nil => exact FailsAs.ok
  | cons file rest ih =>
      rw [commit]
      cases tree.writeFile file.path file.bytes with
      | error fault => simp [Logged.fail, Failure.kind]
      | ok middle =>
          rw [Logged.outcome_bind, Logged.outcome_record]
          exact ih

end Plan

theorem outcome_generateFrom :
    (generateFrom source tree options).2.outcome =
      (Plan.make tree options source).outcome >>= fun plan =>
        (Plan.commit tree plan.files).2.outcome.map fun _ =>
          ⟨plan.ruleCount, plan.files.map (·.path)⟩ := by
  rw [generateFrom]
  cases planned : (Plan.make tree options source).outcome with
  | error failure => rfl
  | ok plan =>
      simp only [Logged.outcome_bind, Logged.outcome_pure, planned]
      simp only [bind, Except.bind]
      cases (Plan.commit tree plan.files).2.outcome <;> rfl

end RbacManifest
