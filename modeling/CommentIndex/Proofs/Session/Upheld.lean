import CommentIndex.Proofs.Session.Stretch
import Mathlib.Order.Defs.PartialOrder

/-!
# What an activity upholds as others go on

What is known of a workspace may grow while an activity pauses: it comes to a later stage.
`Activity.Upholds` says that an activity keeps what is known whenever it pauses and once it has
ended, at whatever stage it goes on after a pause. An activity may itself come to a later stage
before it pauses, but only to one that is equivalent.
-/

namespace CommentIndex.Activity

variable {α β σ : Type} [Preorder σ] [Setoid σ] {knows : σ → Workspace → Prop} {stage : σ}
  {activity : Activity α} {before : Workspace}

/-- What is known at a stage holds at every pause of an activity and at its end, if after each pause
what is known at a later stage holds. -/
def Upholds (knows : σ → Workspace → Prop) (stage : σ) : Activity α → Workspace → Prop
  | .done _, workspace | .fail _, workspace => knows stage workspace
  | .act update next, workspace => (next workspace).Upholds knows stage (update workspace)
  | .tell _ next, workspace => next.Upholds knows stage workspace
  | .pause _ next, workspace =>
    ∃ paused, stage ≤ paused ∧ stage ≈ paused ∧ knows paused workspace ∧
      ∀ later workspace, paused ≤ later → knows later workspace → next.Upholds knows later workspace

/-- What is left of an activity upholds what is known from a stage on. -/
def UpholdsFrom (knows : σ → Workspace → Prop) (stage : σ) (rest : Activity α) : Prop :=
  ∀ later workspace, stage ≤ later → knows later workspace → rest.Upholds knows later workspace

/-- What is upheld from a stage on is upheld from a later one on. -/
theorem UpholdsFrom.mono {later : σ} (h : activity.UpholdsFrom knows stage) (hle : stage ≤ later) :
    activity.UpholdsFrom knows later :=
  fun last workspace hlast => h last workspace (le_trans hle hlast)

/-- What is left upholds what is known if there is nothing left. -/
theorem upholdsFrom_done (result : α) : (done result).UpholdsFrom knows stage :=
  fun _ _ _ hknows => hknows

/-- Or if nothing is left but to tell of a change. -/
theorem upholdsFrom_notify : notify.UpholdsFrom knows stage :=
  fun _ _ _ hknows => hknows

/-- One activity after another upholds what both uphold. -/
theorem Upholds.bind {first : Activity α} (h : first.Upholds knows stage before)
    {second : α → Activity β} (hsecond : ∀ result, (second result).UpholdsFrom knows stage) :
    (first.bind second).Upholds knows stage before := by
  induction first generalizing before stage with
  | done result => exact hsecond result stage before le_rfl h
  | fail error => exact h
  | act update next ih => exact ih before h hsecond
  | tell signal next ih => exact ih h hsecond
  | pause reason next ih =>
      obtain ⟨paused, hle, hsame, hknows, hnext⟩ := h
      refine ⟨paused, hle, hsame, hknows, fun later workspace hlater hknown => ?_⟩
      exact ih (hnext later workspace hlater hknown) fun result =>
        (hsecond result).mono (le_trans hle hlater)

/-- Whether an error is a result makes no difference. -/
theorem Upholds.attempt (h : activity.Upholds knows stage before) :
    activity.attempt.Upholds knows stage before := by
  induction activity generalizing before stage with
  | done result => exact h
  | fail error => exact h
  | act update next ih => exact ih before h
  | tell signal next ih => exact ih h
  | pause reason next ih =>
      obtain ⟨paused, hle, hsame, hknows, hnext⟩ := h
      exact ⟨paused, hle, hsame, hknows, fun later workspace hlater hknown =>
        ih (hnext later workspace hlater hknown)⟩

@[simp] theorem upholds_workspace (next : Workspace → Activity α) :
    (workspace.bind next).Upholds knows stage before ↔ (next before).Upholds knows stage before :=
  Iff.rfl

@[simp] theorem upholds_change (update : Workspace → Workspace) (next : Unit → Activity α) :
    ((change update).bind next).Upholds knows stage before ↔
      (next ()).Upholds knows stage (update before) :=
  Iff.rfl

/-- A question is answered by what is known. -/
theorem upholds_ask {question : Workspace → Except WorkspaceError β} {next : β → Activity α}
    (hknows : knows stage before)
    (hnext : ∀ answer, question before = .ok answer → (next answer).Upholds knows stage before) :
    ((ask question).bind next).Upholds knows stage before := by
  show ((ofExcept (question before)).bind next).Upholds knows stage before
  cases hanswer : question before with
  | ok answer => exact hnext answer hanswer
  | error error => exact hknows

/-- After a stretch what is known at some later stage holds, and what is held upholds it from then
on. -/
theorem Upholds.stretch (h : activity.Upholds knows stage before) (holds : Pause → Bool) :
    ∃ after, stage ≤ after ∧ stage ≈ after ∧ knows after (activity.stretch holds before).2 ∧
      ∀ rest, (activity.stretch holds before).1 = .held rest → rest.UpholdsFrom knows after := by
  induction activity generalizing before stage with
  | done result => exact ⟨stage, le_rfl, Setoid.refl _, h, fun rest heq => by contradiction⟩
  | fail error => exact ⟨stage, le_rfl, Setoid.refl _, h, fun rest heq => by contradiction⟩
  | act update next ih => exact ih before h
  | tell signal next ih => exact ih h
  | pause reason next ih =>
      obtain ⟨paused, hle, hsame, hknows, hnext⟩ := h
      unfold Activity.stretch
      split
      · refine ⟨paused, hle, hsame, hknows, fun rest heq => ?_⟩
        cases heq
        exact hnext
      · obtain ⟨after, hafter, hlike, hknown⟩ := ih (hnext paused before le_rfl hknows)
        exact ⟨after, le_trans hle hafter, Setoid.trans hsame hlike, hknown⟩

end CommentIndex.Activity
