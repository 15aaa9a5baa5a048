import CommentIndex.Proofs.Cache.Tidy
import CommentIndex.Proofs.Session.Readings

/-!
# What an activity maintains

`Activity.Maintains` says that a property of workspaces holds whenever an activity pauses and once
it has ended, if whatever happens during its pauses keeps the property too. So it is enough to look
at the activity alone, with every pause held, to know what it does among others. The reading of the
files of a scan maintains that the workspace is `Surveyed`.
-/

namespace CommentIndex

variable {α β : Type}

namespace Activity

variable {inv : Workspace → Prop} {activity rest : Activity α} {before after : Workspace}
  {holds : Pause → Bool} {outcome : Outcome α}

/-- A property holds at every pause of an activity and at its end, if it holds again after each
pause. -/
def Maintains (inv : Workspace → Prop) : Activity α → Workspace → Prop
  | .done _, workspace | .fail _, workspace => inv workspace
  | .act update next, workspace => (next workspace).Maintains inv (update workspace)
  | .tell _ next, workspace => next.Maintains inv workspace
  | .pause _ next, workspace => inv workspace ∧ ∀ later, inv later → next.Maintains inv later

/-- What an activity maintains and what follows it maintains is maintained by both together. -/
theorem Maintains.bind {first : Activity α} (h : first.Maintains inv before)
    {second : α → Activity β}
    (hsecond : ∀ result workspace, inv workspace → (second result).Maintains inv workspace) :
    (first.bind second).Maintains inv before := by
  induction first generalizing before with
  | done result => exact hsecond result before h
  | fail error => exact h
  | act update next ih => exact ih before h
  | tell signal next ih => exact ih h
  | pause reason next ih => exact ⟨h.1, fun later hlater => ih (h.2 later hlater)⟩

/-- Whether an error is a result makes no difference. -/
theorem Maintains.attempt (h : activity.Maintains inv before) :
    activity.attempt.Maintains inv before := by
  induction activity generalizing before with
  | done result => exact h
  | fail error => exact h
  | act update next ih => exact ih before h
  | tell signal next ih => exact ih h
  | pause reason next ih => exact ⟨h.1, fun later hlater => ih (h.2 later hlater)⟩

/-- What is maintained holds after a stretch, and what is held maintains it from then on. -/
theorem Maintains.stretch (h : activity.Maintains inv before) (holds : Pause → Bool) :
    inv (activity.stretch holds before).2 ∧
      ∀ rest, (activity.stretch holds before).1 = .held rest →
        ∀ later, inv later → rest.Maintains inv later := by
  induction activity generalizing before with
  | done result => exact ⟨h, fun rest heq => by contradiction⟩
  | fail error => exact ⟨h, fun rest heq => by contradiction⟩
  | act update next ih => exact ih before h
  | tell signal next ih => exact ih h
  | pause reason next ih =>
      unfold Activity.stretch
      split
      · refine ⟨h.1, fun rest heq => ?_⟩
        cases heq
        exact h.2
      · exact ih (h.2 before h.1)

/-- An activity that ends without a pause maintains what holds then. -/
theorem Maintains.of_finished
    (h : activity.stretch (fun _ => true) before = (.finished outcome, after)) (hinv : inv after) :
    activity.Maintains inv before := by
  induction activity generalizing before with
  | done result =>
      cases h
      exact hinv
  | fail error =>
      cases h
      exact hinv
  | act update next ih => exact ih before h
  | tell signal next ih => exact ih h
  | pause reason next ih => cases h

/-- An activity that pauses maintains what holds then and is maintained from then on. -/
theorem Maintains.of_held
    (h : activity.stretch (fun _ => true) before = (.held rest, after)) (hinv : inv after)
    (hrest : ∀ later, inv later → rest.Maintains inv later) : activity.Maintains inv before := by
  induction activity generalizing before with
  | done result => cases h
  | fail error => cases h
  | act update next ih => exact ih before h
  | tell signal next ih => exact ih h
  | pause reason next ih =>
      cases h
      exact ⟨hinv, hrest⟩

/-- At its first pause an activity is held, or it goes on at once. -/
theorem stretch_of_held (h : activity.stretch (fun _ => true) before = (.held rest, after))
    (holds : Pause → Bool) :
    activity.stretch holds before = (.held rest, after) ∨
      activity.stretch holds before = rest.stretch holds after := by
  induction activity generalizing before with
  | done result => cases h
  | fail error => cases h
  | act update next ih => exact ih before h
  | tell signal next ih => exact ih h
  | pause reason next ih =>
      cases h
      by_cases hreason : holds reason
      · exact .inl (if_pos hreason)
      · exact .inr (if_neg hreason)

/-- An activity whose error is a result ends with that result. -/
theorem stretch_attempt (activity : Activity α) (holds : Pause → Bool) (before : Workspace) :
    activity.attempt.stretch holds before =
      match activity.stretch holds before with
      | (.finished outcome, after) => (.finished (.ok outcome), after)
      | (.held rest, after) => (.held rest.attempt, after) := by
  induction activity generalizing before with
  | done result => rfl
  | fail error => rfl
  | act update next ih => exact ih before (update before)
  | tell signal next ih => exact ih before
  | pause reason next ih =>
      have hpause : (pause reason next).attempt = .pause reason next.attempt := rfl
      rw [hpause, stretch, stretch]
      by_cases hreason : holds reason
      · rw [if_pos hreason, if_pos hreason]
      · rw [if_neg hreason, if_neg hreason]
        exact ih before

end Activity

namespace Workspace

open Activity

variable {file : Path → Path} {base : Nat} {Meant : Path → Prop} {workspace : Workspace}
  {path : Path}

/-- A workspace in which documents can be read: paths name the files of `file`, there is something
to search for, and the cache has been tidy since a ticket. The focus is where it is meant to be. -/
structure Tended (file : Path → Path) (base : Nat) (Meant : Path → Prop) (workspace : Workspace) :
    Prop where
  names : workspace.Names file
  matcher : workspace.matcher.isSome
  tidy : Traffic.Tidy file base workspace.cache
  focus : ∀ path, workspace.active = some path → Meant path

/-- A workspace while the files of a scan are read. -/
structure Surveyed (file : Path → Path) (base : Nat) (Meant : Path → Prop) (workspace : Workspace) :
    Prop extends Tended file base Meant workspace where
  loaded : workspace.isLoaded = false
  scanning : workspace.isScanning = true

/-- Documents can be read in a workspace with another tidy cache. -/
theorem Tended.withCache (h : Tended file base Meant workspace) {cache : Cache}
    (htidy : Traffic.Tidy file base cache) :
    Tended file base Meant { workspace with cache := cache } :=
  ⟨h.names, h.matcher, htidy, h.focus⟩

/-- Documents can be read in a workspace with another focus and another tidy cache. -/
theorem Tended.withFocus (h : Tended file base Meant workspace) {focus : Option Path}
    (hmeant : ∀ path, focus = some path → Meant path) {cache : Cache}
    (htidy : Traffic.Tidy file base cache) :
    Tended file base Meant { workspace with active := focus, cache := cache } :=
  ⟨h.names, h.matcher, htidy, hmeant⟩

/-- The files can be read in a workspace with another tidy cache. -/
theorem Surveyed.withCache (h : Surveyed file base Meant workspace) {cache : Cache}
    (htidy : Traffic.Tidy file base cache) :
    Surveyed file base Meant { workspace with cache := cache } :=
  ⟨h.toTended.withCache htidy, h.loaded, h.scanning⟩

/-- A replacement begins a reading, whose ticket is later than those before. -/
theorem Tended.replace_held (h : Tended file base Meant workspace)
    (husable : path.isUnusable = false) :
    ∃ matcher registry text, ∃ attempt : Attempt,
      attempt.path = path ∧ base < attempt.ticket ∧
      (replace path).stretch (fun _ => true) workspace =
        (.held (endReading matcher registry attempt.path attempt.ticket attempt.before text),
          { workspace with
            cache := (workspace.cache.displace path (file path)).issue path }) := by
  obtain ⟨matcher, hmatcher⟩ := Option.isSome_iff_exists.mp h.matcher
  let every : Pause → Bool := fun _ => true
  have hbuffer : every .buffer = true := rfl
  have hfile : every .file = true := rfl
  obtain ⟨text, hheld⟩ := stretch_replace h.names hbuffer hfile husable hmatcher
  exact ⟨matcher, workspace.registry, text,
    ⟨path, workspace.cache.nextTicket, workspace.cache.lookup? (file path), true⟩, rfl,
    Nat.lt_succ_of_le h.tidy.since, hheld⟩

/-- A replacement goes on among the files of a scan. -/
theorem Surveyed.replace (h : Surveyed file base Meant workspace) (path : Path) :
    (Workspace.replace path).Maintains (Surveyed file base Meant) workspace := by
  by_cases hpath : path.isUnusable
  · exact .of_finished (stretch_fileAt_of_unusable hpath _) h
  · have husable : path.isUnusable = false := eq_false_of_ne_true hpath
    obtain ⟨matcher, registry, text, attempt, rfl, hsince, hheld⟩ :=
      h.toTended.replace_held husable
    -- All that is known of the workspace after the pause is that it is surveyed again.
    refine .of_held hheld (h.withCache (h.tidy.replace _)) fun later hlater => ?_
    obtain ⟨found, result, hends⟩ :=
      stretch_endReading (fun _ => true) hlater.names husable matcher registry text
    exact .of_finished hends (hlater.withCache (hlater.tidy.ended hsince result))

/-- So does the reading of one file after the other. -/
theorem Surveyed.readFilesFrom (h : Surveyed file base Meant workspace)
    {read : Path → Activity Bool}
    (hread : ∀ path workspace, Surveyed file base Meant workspace →
      (read path).Maintains (Surveyed file base Meant) workspace)
    (most : Int) (total index found : Nat) (paths : List Path) :
    (Workspace.readFilesFrom read most total index found paths).Maintains
      (Surveyed file base Meant) workspace := by
  induction paths generalizing workspace index found with
  | nil => exact h
  | cons path rest ih =>
      unfold Workspace.readFilesFrom
      split
      · exact h
      · split
        · refine ⟨h, fun later hlater =>
            (hread path later hlater).attempt.bind fun outcome after hafter => ?_⟩
          split
          · exact ih hafter (index + 1) (found + 1)
          · exact ih hafter (index + 1) found
        · refine (hread path workspace h).attempt.bind fun outcome after hafter => ?_
          split
          · exact ih hafter (index + 1) (found + 1)
          · exact ih hafter (index + 1) found

/-- And so does the whole of the reading. -/
theorem Surveyed.scanFiles (h : Surveyed file base Meant workspace) (settings : WorkspaceSettings) :
    (Workspace.scanFiles settings).Maintains (Surveyed file base Meant) workspace := by
  have hfind : (findFiles settings.matchFiles settings.excludeFiles).Maintains
      (Surveyed file base Meant) workspace := by
    refine ⟨h, fun later hlater => ?_⟩
    cases workspace.disk.findFiles workspace.root settings.matchFiles settings.excludeFiles with
    | ok files => exact hlater
    | error error => exact hlater
  refine hfind.bind fun files workspace h => ?_
  have hclear : Workspace.clear.Maintains (Surveyed file base Meant) workspace :=
    h.withCache h.tidy.clear
  exact hclear.bind fun _ _ h => h.readFilesFrom (fun path _ h => h.replace path) _ _ _ _ _

end Workspace

end CommentIndex
