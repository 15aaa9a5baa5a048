import CommentIndex.Session

/-!
# What an activity does at one stretch

`Activity.stretch` is what an activity does to a workspace up to its next held pause, without the
session around it. By `runAtOnce_eq_stretch` a session does the same with it, whoever watches, and
leaves its other tasks alone.
-/

namespace CommentIndex

variable {α β : Type}

namespace Activity

@[simp] theorem bind_eq (first : Activity α) (second : α → Activity β) :
    first >>= second = first.bind second := rfl

@[simp] theorem pure_eq (result : α) : (pure result : Activity α) = .done result := rfl

@[simp] theorem map_eq (change : α → β) (activity : Activity α) :
    change <$> activity = activity.bind fun result => .done (change result) := rfl

/-- What follows what follows an activity follows it. -/
theorem bind_assoc {γ : Type} (first : Activity α) (second : α → Activity β)
    (third : β → Activity γ) :
    (first.bind second).bind third = first.bind fun result => (second result).bind third := by
  induction first with
  | done result => rfl
  | fail error => rfl
  | act update next ih => exact congrArg (act update) (funext ih)
  | tell signal next ih => exact congrArg (tell signal) ih
  | pause reason next ih => exact congrArg (pause reason) ih

/-- An activity whose result is the result is the activity. -/
theorem bind_done (activity : Activity α) : activity.bind .done = activity := by
  induction activity with
  | done result => rfl
  | fail error => rfl
  | act update next ih => exact congrArg (act update) (funext ih)
  | tell signal next ih => exact congrArg (tell signal) ih
  | pause reason next ih => exact congrArg (pause reason) ih

/-- How far an activity gets while time stands still, and the workspace that it leaves. -/
def stretch (holds : Pause → Bool) : Activity α → Workspace → Progress α × Workspace
  | .done result, workspace => (.finished (.ok result), workspace)
  | .fail error, workspace => (.finished (.error error), workspace)
  | .act update next, workspace => (next workspace).stretch holds (update workspace)
  | .tell _ next, workspace => next.stretch holds workspace
  | .pause reason next, workspace =>
    if holds reason then (.held next, workspace) else next.stretch holds workspace

section

variable (holds : Pause → Bool) (before : Workspace)

@[simp] theorem stretch_done (result : α) :
    (done result).stretch holds before = (.finished (.ok result), before) := rfl

@[simp] theorem stretch_workspace (next : Workspace → Activity α) :
    (workspace.bind next).stretch holds before = (next before).stretch holds before := rfl

@[simp] theorem stretch_change (update : Workspace → Workspace) (next : Unit → Activity α) :
    ((change update).bind next).stretch holds before =
      (next ()).stretch holds (update before) := rfl

@[simp] theorem stretch_change_last (update : Workspace → Workspace) :
    (change update).stretch holds before = (.finished (.ok ()), update before) := rfl

@[simp] theorem stretch_notify : notify.stretch holds before = (.finished (.ok ()), before) := rfl

@[simp] theorem stretch_report (severity : Severity) (message : String)
    (next : Unit → Activity α) :
    ((report severity message).bind next).stretch holds before =
      (next ()).stretch holds before := rfl

@[simp] theorem stretch_wait (reason : Pause) (next : Unit → Activity α) :
    ((wait reason).bind next).stretch holds before =
      if holds reason then (.held (next ()), before) else (next ()).stretch holds before := rfl

/-- A question that has an answer is one more thing that is known. -/
theorem stretch_ask {question : Workspace → Except WorkspaceError β} {answer : β}
    (h : question before = .ok answer) (next : β → Activity α) :
    ((ask question).bind next).stretch holds before = (next answer).stretch holds before := by
  simp [ask, bind, stretch, h, ofExcept]

/-- A question that has no answer is an error. -/
theorem stretch_ask_error {question : Workspace → Except WorkspaceError β} {error : WorkspaceError}
    (h : question before = .error error) (next : β → Activity α) :
    ((ask question).bind next).stretch holds before = (.finished (.error error), before) := by
  simp [ask, bind, stretch, h, ofExcept]

end

/-- One activity after another goes on where the first one ends. -/
theorem stretch_bind (holds : Pause → Bool) (first : Activity α) (second : α → Activity β)
    (workspace : Workspace) :
    (first.bind second).stretch holds workspace =
      match first.stretch holds workspace with
      | (.finished (.ok result), after) => (second result).stretch holds after
      | (.finished (.error error), after) => (.finished (.error error), after)
      | (.held rest, after) => (.held (rest.bind second), after) := by
  induction first generalizing workspace with
  | done result => rfl
  | fail error => rfl
  | act update next ih => exact ih workspace (update workspace)
  | tell signal next ih => exact ih workspace
  | pause reason next ih =>
      have hpause : (bind (.pause reason next) second) = .pause reason (next.bind second) := rfl
      rw [hpause, stretch, stretch]
      by_cases h : holds reason
      · rw [if_pos h, if_pos h]
      · rw [if_neg h, if_neg h]
        exact ih workspace

end Activity

namespace Session

/-- Two sessions with the same workspace in which the same tasks wait. -/
structure SameWork (session after : Session) : Prop where
  workspace : after.workspace = session.workspace
  holdsReads : after.holdsReads = session.holdsReads
  gates : after.gates = session.gates
  tasks : after.tasks = session.tasks

/-- A callback leaves the work as it is. -/
theorem sameWork_call (session : Session) (listener : Listener) :
    SameWork session (session.call listener) := by
  cases listener with
  | counter number =>
      simp only [call]
      split <;> exact ⟨rfl, rfl, rfl, rfl⟩
  | widget name serial =>
      simp only [call]
      split
      · split <;> exact ⟨rfl, rfl, rfl, rfl⟩
      · exact ⟨rfl, rfl, rfl, rfl⟩
  | panel name serial =>
      simp only [call]
      split
      · split <;> exact ⟨rfl, rfl, rfl, rfl⟩
      · exact ⟨rfl, rfl, rfl, rfl⟩

/-- A signal leaves the work as it is, whoever hears it. -/
theorem sameWork_hear (session : Session) (signal : Signal) :
    SameWork session (session.hear signal) := by
  cases signal with
  | report report => exact ⟨rfl, rfl, rfl, rfl⟩
  | progress found total => exact ⟨rfl, rfl, rfl, rfl⟩
  | changed =>
      unfold hear
      induction session.subscriptions.notified generalizing session with
      | nil => exact ⟨rfl, rfl, rfl, rfl⟩
      | cons listener rest ih =>
          have hcall := session.sameWork_call listener
          have hrest := ih (session.call listener)
          exact ⟨hrest.workspace.trans hcall.workspace, hrest.holdsReads.trans hcall.holdsReads,
            hrest.gates.trans hcall.gates, hrest.tasks.trans hcall.tasks⟩

/-- What a session does with an activity at one stretch: the activity gets as far as it does by
itself, and nothing changes but the workspace. -/
theorem runAtOnce_eq_stretch (activity : Activity α) (session : Session) :
    (runAtOnce activity session).1 =
        (activity.stretch session.holds session.workspace).1 ∧
      SameWork
        { session with
          workspace := (activity.stretch session.holds session.workspace).2 }
        (runAtOnce activity session).2 := by
  induction activity generalizing session with
  | done result => exact ⟨rfl, rfl, rfl, rfl, rfl⟩
  | fail error => exact ⟨rfl, rfl, rfl, rfl, rfl⟩
  | act update next ih =>
      exact ih session.workspace { session with workspace := update session.workspace }
  | tell signal next ih =>
      -- Those who hear the signal do what they do, but not to the workspace.
      have hhear := session.sameWork_hear signal
      have hholds : (session.hear signal).holds = session.holds := by
        unfold holds
        rw [hhear.holdsReads]
      have hnext := ih (session.hear signal)
      rw [hholds, hhear.workspace] at hnext
      refine ⟨hnext.1, hnext.2.workspace, ?_, ?_, ?_⟩
      · exact hnext.2.holdsReads.trans hhear.holdsReads
      · exact hnext.2.gates.trans hhear.gates
      · exact hnext.2.tasks.trans hhear.tasks
  | pause reason next ih =>
      unfold runAtOnce Activity.stretch
      by_cases h : session.holds reason
      · rw [if_pos h, if_pos h]
        exact ⟨rfl, rfl, rfl, rfl, rfl⟩
      · rw [if_neg h, if_neg h]
        exact ih session

end Session

end CommentIndex
