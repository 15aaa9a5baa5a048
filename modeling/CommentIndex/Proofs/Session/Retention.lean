import CommentIndex.Proofs.Session.Workshop

/-!
# What decides about closed documents

Whether the outline of a document is kept when it is closed depends on three things, its
`Retention`: whether the workspace is enabled, whether it has been scanned, and where it lies.
`Activity.Leaves` says that an activity leaves some part of a workspace as it is. Everything that is
done to a workspace leaves its retention, but for scans and rebuilds, and these change it only
before they first pause (`Errand.fixes`). So nothing that is held in a workshop is going to change
it (`Workshop.IsCalm.run`).
-/

namespace CommentIndex

variable {α β γ : Type}

namespace Activity

variable {part : Workspace → γ} {activity : Activity α}

/-- An activity leaves a part of the workspace as it is. -/
def Leaves (part : Workspace → γ) : Activity α → Prop
  | .done _ | .fail _ => True
  | .act update next =>
    (∀ workspace, part (update workspace) = part workspace) ∧
      ∀ workspace, (next workspace).Leaves part
  | .tell _ next | .pause _ next => next.Leaves part

/-- Two activities one after the other leave what both leave. -/
theorem Leaves.bind {first : Activity α} {second : α → Activity β} (hfirst : first.Leaves part)
    (hsecond : ∀ result, (second result).Leaves part) : (first.bind second).Leaves part := by
  induction first with
  | done result => exact hsecond result
  | fail error => trivial
  | act update next ih => exact ⟨hfirst.1, fun workspace => ih workspace (hfirst.2 workspace)⟩
  | tell signal next ih => exact ih hfirst
  | pause reason next ih => exact ih hfirst

theorem Leaves.attempt (h : activity.Leaves part) : activity.attempt.Leaves part := by
  induction activity with
  | done result => trivial
  | fail error => trivial
  | act update next ih => exact ⟨h.1, fun workspace => ih workspace (h.2 workspace)⟩
  | tell signal next ih => exact ih h
  | pause reason next ih => exact ih h

/-- At one stretch, an activity gives a part of the workspace its value, and what is held of it
leaves this part as it is. -/
structure Fixes (part : Workspace → γ) (value : γ) (holds : Pause → Bool) (activity : Activity α)
    (workspace : Workspace) : Prop where
  value : part (activity.stretch holds workspace).2 = value
  rests : ∀ rest, (activity.stretch holds workspace).1 = .held rest → rest.Leaves part

/-- An activity that has ended has nothing left. -/
theorem Fixes.of_finished {holds : Pause → Bool} {workspace after : Workspace}
    {outcome : Outcome α}
    (h : activity.stretch holds workspace = (.finished outcome, after)) :
    activity.Fixes part (part after) holds workspace :=
  ⟨by rw [h], fun rest hheld => by rw [h] at hheld; cases hheld⟩

theorem Leaves.fixes (h : activity.Leaves part) (holds : Pause → Bool) (workspace : Workspace) :
    activity.Fixes part (part workspace) holds workspace := by
  induction activity generalizing workspace with
  | done result => exact .of_finished rfl
  | fail error => exact .of_finished rfl
  | act update next ih =>
      have hnext := ih workspace (h.2 workspace) (update workspace)
      exact ⟨hnext.value.trans (h.1 workspace), hnext.rests⟩
  | tell signal next ih => exact ⟨(ih h workspace).value, (ih h workspace).rests⟩
  | pause reason next ih =>
      by_cases hreason : holds reason
      · have hheld : (pause reason next).stretch holds workspace = (.held next, workspace) :=
          if_pos hreason
        refine ⟨by rw [hheld], fun rest hrest => ?_⟩
        rw [hheld] at hrest
        cases hrest
        exact h
      · have hgoes : (pause reason next).stretch holds workspace =
            next.stretch holds workspace := if_neg hreason
        have hnext := ih h workspace
        exact ⟨by rw [hgoes, hnext.value], by rw [hgoes]; exact hnext.rests⟩

/-- What follows leaves the value. -/
theorem Fixes.bind {first : Activity α} {second : α → Activity β} {value : γ}
    {holds : Pause → Bool} {workspace : Workspace}
    (hfirst : first.Fixes part value holds workspace)
    (hsecond : ∀ result, (second result).Leaves part) :
    (first.bind second).Fixes part value holds workspace := by
  obtain ⟨hvalue, hrests⟩ := hfirst
  rcases hresult : first.stretch holds workspace with ⟨progress, after⟩
  have hboth := stretch_bind holds first second workspace
  rw [hresult] at hvalue hrests hboth
  rcases progress with (error | result) | rest
  · exact hvalue ▸ .of_finished hboth
  · have hnext := (hsecond result).fixes holds after
    exact ⟨by rw [hboth, hnext.value, hvalue], by rw [hboth]; exact hnext.rests⟩
  · refine ⟨by rw [hboth, hvalue], fun held hheld => ?_⟩
    rw [hboth] at hheld
    cases hheld
    exact (hrests rest rfl).bind hsecond

theorem leaves_workspace : workspace.Leaves part := ⟨fun _ => rfl, fun _ => trivial⟩

theorem leaves_change {update : Workspace → Workspace}
    (h : ∀ workspace, part (update workspace) = part workspace) : (change update).Leaves part :=
  ⟨h, fun _ => trivial⟩

/-- A change of something else is left to what follows. -/
theorem Leaves.change {update : Workspace → Workspace} {next : Unit → Activity α}
    (h : ∀ workspace, part (update workspace) = part workspace) (hnext : (next ()).Leaves part) :
    ((change update).bind next).Leaves part :=
  ⟨h, fun _ => hnext⟩

theorem leaves_notify : notify.Leaves part := trivial

theorem leaves_wait (reason : Pause) : (wait reason).Leaves part := trivial

theorem leaves_ofExcept (outcome : Except WorkspaceError α) : (ofExcept outcome).Leaves part := by
  cases outcome <;> trivial

theorem leaves_ask (question : Workspace → Except WorkspaceError α) : (ask question).Leaves part :=
  ⟨fun _ => rfl, fun workspace => leaves_ofExcept (question workspace)⟩

end Activity

/-- What decides whether the outline of a closed document is kept. -/
structure Retention where
  isEnabled : Bool
  isScanned : Bool
  root : Path
deriving DecidableEq, Repr

/-- Whether the outline of a closed document is kept. -/
def Retention.retains (retention : Retention) (path : Path) : Bool :=
  retention.isEnabled && retention.isScanned && retention.root.isBelow path

namespace Workspace

open Activity

/-- What a workspace has decided about closed documents. -/
def retention (workspace : Workspace) : Retention :=
  ⟨workspace.settings.workspace.enabled, workspace.isScanned, workspace.root⟩

theorem retains_eq (workspace : Workspace) (path : Path) :
    workspace.retains path = workspace.retention.retains path := rfl

/-! ## What leaves it -/

theorem leaves_readText (path : Path) : (readText path).Leaves retention := by
  refine leaves_workspace.bind fun workspace => ?_
  split
  · trivial
  · split <;> trivial

theorem leaves_giveUp (path : Path) (ticket : Nat) (before : Option Outline) :
    (giveUp path ticket before).Leaves retention :=
  .change (fun _ => rfl) trivial

theorem leaves_land (path : Path) (ticket : Nat) (outline : Outline) :
    (land path ticket outline).Leaves retention := by
  refine leaves_workspace.bind fun workspace => ?_
  split
  · refine (leaves_ask _).bind fun file => .change (fun _ => rfl) ?_
    split <;> trivial
  · trivial

theorem leaves_endReading (matcher : Matcher) (registry : Registry) (path : Path)
    (ticket : Nat) (before : Option Outline) (text : Except FileError (List Char)) :
    (endReading matcher registry path ticket before text).Leaves retention := by
  unfold endReading
  split
  · exact leaves_giveUp _ _ _
  · refine leaves_workspace.bind fun workspace => ?_
    dsimp only
    split
    · exact leaves_giveUp _ _ _
    · exact (leaves_land _ _ _).bind fun _ => trivial

theorem leaves_readUnder (path : Path) (before : Option Outline) :
    (readUnder path before).Leaves retention := by
  refine leaves_workspace.bind fun workspace => ?_
  split
  · refine leaves_workspace.bind fun _ => .change (fun _ => rfl) ?_
    exact (leaves_readText path).bind fun text => leaves_endReading ..
  · trivial

theorem leaves_replace (path : Path) : (replace path).Leaves retention := by
  refine (leaves_ask _).bind fun file => leaves_workspace.bind fun workspace => ?_
  exact .change (fun _ => rfl) (leaves_readUnder _ _)

theorem leaves_refresh (path : Path) : (refresh path).Leaves retention := by
  refine (leaves_ask _).bind fun file => leaves_workspace.bind fun workspace => ?_
  exact leaves_readUnder _ _

theorem leaves_remove (path : Path) : (remove path).Leaves retention :=
  (leaves_ask _).bind fun _ => leaves_change fun _ => rfl

theorem leaves_clear : clear.Leaves retention := leaves_change fun _ => rfl

theorem leaves_setActive (path : Option Path) : (setActive path).Leaves retention := by
  refine .change (fun _ => rfl) (leaves_workspace.bind fun workspace => ?_)
  split
  · cases path with
    | none => trivial
    | some path =>
        refine (leaves_ask _).bind fun isCached => ?_
        split
        · exact (leaves_replace path).bind fun _ => leaves_notify
        · trivial
  · trivial

theorem leaves_openDocument (path : Path) (text : String) (takesFocus : Bool) :
    (openDocument path text takesFocus).Leaves retention := by
  refine .change (fun _ => rfl) ?_
  split
  · exact leaves_setActive _
  · trivial

theorem leaves_refreshActive : refreshActive.Leaves retention := by
  refine leaves_workspace.bind fun workspace => ?_
  split
  · exact (leaves_refresh _).bind fun _ => trivial
  · trivial

theorem leaves_closeDocument (path : Path) : (closeDocument path).Leaves retention := by
  have hforget : (forget path).Leaves retention := by
    refine leaves_workspace.bind fun workspace => ?_
    split
    · exact (leaves_remove path).bind fun _ => leaves_notify
    · trivial
  refine .change (fun _ => rfl) (leaves_workspace.bind fun workspace => ?_)
  split
  · refine (leaves_ask _).bind fun same => ?_
    split
    · exact .change (fun _ => rfl) hforget
    · exact hforget
  · exact hforget

theorem leaves_build : build.Leaves retention := by
  refine leaves_workspace.bind fun workspace => ?_
  dsimp only
  split
  · trivial
  · generalize delayOf workspace.settings = delay
    refine .change (fun _ => rfl) ((leaves_ofExcept delay).bind fun delay => ?_)
    exact .change (fun _ => rfl) trivial

theorem leaves_readFilesFrom (most : Int) (total index found : Nat) (paths : List Path) :
    (readFilesFrom replace most total index found paths).Leaves retention := by
  induction paths generalizing index found with
  | nil => trivial
  | cons path rest ih =>
      unfold readFilesFrom
      split
      · trivial
      · split
        · refine (leaves_wait _).bind fun _ => (leaves_replace path).attempt.bind fun outcome => ?_
          split
          · exact ih (index + 1) (found + 1)
          · exact ih (index + 1) found
        · refine (leaves_replace path).attempt.bind fun outcome => ?_
          split
          · exact ih (index + 1) (found + 1)
          · exact ih (index + 1) found

theorem leaves_scanFiles (settings : WorkspaceSettings) :
    (scanFiles settings).Leaves retention := by
  have hfind : (findFiles settings.matchFiles settings.excludeFiles).Leaves retention := by
    refine leaves_workspace.bind fun workspace => (leaves_wait _).bind fun _ => ?_
    cases workspace.disk.findFiles workspace.root settings.matchFiles settings.excludeFiles with
    | ok files => trivial
    | error error => trivial
  exact hfind.bind fun files => leaves_clear.bind fun _ => leaves_readFilesFrom _ _ _ _ _

theorem leaves_replaceActive : replaceActive.Leaves retention := by
  refine leaves_workspace.bind fun workspace => ?_
  split
  · exact (leaves_replace _).bind fun _ => trivial
  · trivial

theorem leaves_closeScan (read : Except WorkspaceError Nat) :
    (closeScan read).Leaves retention := by
  have hfinish (count : Nat) : (finishScan count).Leaves retention :=
    .change (fun _ => rfl) <| leaves_replaceActive.bind fun _ => .change (fun _ => rfl) trivial
  cases read with
  | ok count => exact hfinish count
  | error error => exact hfinish 0

/-! ## Scans and rebuilds -/

/-- There is no matcher for settings. -/
def Refuses (settings : Settings) (error : MatcherError) : Prop :=
  Matcher.compile (.ofSettings settings.tags.listed settings.tags.keyed) settings.tags.separators
    settings.tags.marks settings.tags.endTag settings.tags.matchCase = .error error

/-- A workspace with settings for which there is no matcher. -/
def refused (workspace : Workspace) (settings : Settings) : Workspace :=
  { workspace with settings := settings, isScanned := false }

/-- Without a matcher, building leaves everything. -/
theorem stretch_build_of_refuses (holds : Pause → Bool) (workspace : Workspace)
    {error : MatcherError} (h : Refuses workspace.settings error) :
    build.stretch holds workspace = (.finished (.ok false), workspace) := by
  unfold Refuses at h
  simp [build, h]

/-- A rebuild for which there is no matcher leaves everything but the settings, and that the
workspace has been scanned. -/
theorem stretch_rebuild_of_refuses (holds : Pause → Bool) (workspace : Workspace)
    (given : Option Settings) {error : MatcherError}
    (h : Refuses (given.getD workspace.settings) error) :
    (rebuild given).stretch holds workspace =
      (.finished (.ok false), workspace.refused (given.getD workspace.settings)) := by
  have hbuild := stretch_build_of_refuses holds
    (workspace.refused (given.getD workspace.settings)) h
  show (build.bind fun built => _).stretch holds (workspace.refused _) = _
  rw [stretch_bind, hbuild]
  rfl

/-- Whether a rebuild with settings scans the workspace. -/
def scansAtOnce (settings : Settings) : Bool :=
  (Matcher.compile (.ofSettings settings.tags.listed settings.tags.keyed) settings.tags.separators
      settings.tags.marks settings.tags.endTag settings.tags.matchCase).toOption.isSome &&
    (delayOf settings).toOption.isSome && settings.workspace.enabled &&
      !settings.workspace.lazyLoad

/-- A scan has scanned the workspace as soon as it pauses. -/
theorem fixes_scan (holds : Pause → Bool) (workspace : Workspace) :
    scan.Fixes retention { workspace.retention with isScanned := true } holds workspace := by
  have hreads := ((leaves_scanFiles workspace.settings.workspace).attempt.bind
    leaves_closeScan).fixes holds workspace.underScan
  exact ⟨by rw [stretch_scan, hreads.value]; rfl, by rw [stretch_scan]; exact hreads.rests⟩

/-- A rebuild goes by its settings as soon as it pauses, and has scanned the workspace if it does so
at all. -/
theorem fixes_rebuild (holds : Pause → Bool) (workspace : Workspace) (given : Option Settings) :
    let settings := given.getD workspace.settings
    (rebuild given).Fixes retention
      ⟨settings.workspace.enabled, scansAtOnce settings, workspace.root⟩ holds workspace := by
  intro settings
  cases hmatcher : Matcher.compile (.ofSettings settings.tags.listed settings.tags.keyed)
      settings.tags.separators settings.tags.marks settings.tags.endTag
      settings.tags.matchCase with
  | error error =>
      have hscans : scansAtOnce settings = false := by
        simp [scansAtOnce, hmatcher, Except.toOption]
      rw [hscans]
      exact .of_finished (stretch_rebuild_of_refuses holds workspace given hmatcher)
  | ok matcher =>
      cases hdelay : delayOf settings with
      | error error =>
          have hscans : scansAtOnce settings = false := by
            simp [scansAtOnce, hdelay, Except.toOption]
          have hbuilt := (leaves_build.fixes holds (workspace.refused settings)).value
          have hfails : (rebuild given).stretch holds workspace =
              (.finished (.error error), (build.stretch holds (workspace.refused settings)).2) :=
            stretch_rebuild_of_delay holds workspace given rfl hmatcher hdelay
          rw [hscans]
          exact ⟨by rw [hfails, hbuilt]; rfl, (Fixes.of_finished hfails).rests⟩
      | ok delay =>
          have hrebuild := stretch_rebuild_of_fit holds workspace given rfl hmatcher hdelay
          by_cases heager : settings.workspace.enabled && !settings.workspace.lazyLoad
          · have hscans : scansAtOnce settings = true := by
              simpa [scansAtOnce, hmatcher, hdelay, Except.toOption] using heager
            rw [if_pos heager] at hrebuild
            have hdone : (Activity.done true).Leaves retention := trivial
            have hscan := (fixes_scan holds (workspace.rebuilt settings matcher delay)).bind
              fun _ => hdone
            rw [hscans]
            exact ⟨by rw [hrebuild, hscan.value]; rfl, by rw [hrebuild]; exact hscan.rests⟩
          · have hscans : scansAtOnce settings = false := by
              simpa [scansAtOnce, hmatcher, hdelay, Except.toOption] using heager
            have hloads : ((change load).bind fun _ => replaceActive.bind fun _ =>
                notify.bind fun _ => Activity.done true).Leaves retention :=
              .change (fun _ => rfl) (leaves_replaceActive.bind fun _ => trivial)
            have hload := hloads.fixes holds (workspace.rebuilt settings matcher delay)
            rw [if_neg heager] at hrebuild
            rw [hscans]
            exact ⟨by rw [hrebuild, hload.value]; rfl, by rw [hrebuild]; exact hload.rests⟩

end Workspace

open Activity Workspace

/-! ## Turns -/

/-- What decides about closed documents once an errand has begun. -/
def Errand.retention (workspace : Workspace) : Errand → Retention
  | .survey .scan => { workspace.retention with isScanned := true }
  | .survey (.rebuild given) =>
    let settings := given.getD workspace.settings
    ⟨settings.workspace.enabled, scansAtOnce settings, workspace.root⟩
  | _ => workspace.retention

/-- An errand decides about closed documents at once or not at all. -/
theorem Errand.fixes (errand : Errand) (holds : Pause → Bool) (workspace : Workspace) :
    errand.activity.Fixes Workspace.retention (errand.retention workspace) holds workspace := by
  have hdone : (Activity.done ()).Leaves Workspace.retention := trivial
  cases errand with
  | replace path => exact ((leaves_replace path).bind fun _ => hdone).fixes holds workspace
  | refresh path => exact ((leaves_refresh path).bind fun _ => hdone).fixes holds workspace
  | remove path => exact (leaves_remove path).fixes holds workspace
  | clear => exact leaves_clear.fixes holds workspace
  | «open» path text takesFocus =>
      exact (leaves_openDocument path text takesFocus).fixes holds workspace
  | edit path text =>
      have hedit : (Workspace.edit path text).Leaves Workspace.retention :=
        leaves_change fun _ => rfl
      exact hedit.fixes holds workspace
  | focus path => exact (leaves_setActive path).fixes holds workspace
  | close path => exact (leaves_closeDocument path).fixes holds workspace
  | delete path => exact ((leaves_remove path).bind fun _ => leaves_notify).fixes holds workspace
  | refreshActive => exact leaves_refreshActive.fixes holds workspace
  | build => exact (leaves_build.bind fun _ => hdone).fixes holds workspace
  | survey kind =>
      cases kind with
      | scan => exact (fixes_scan holds workspace).bind fun _ => hdone
      | rebuild given => exact (fixes_rebuild holds workspace given).bind fun _ => hdone

namespace Workshop

variable {holds : Pause → Bool} {workshop : Workshop}

/-- Nothing that is held decides about closed documents. -/
def IsCalm (workshop : Workshop) : Prop :=
  ∀ progress ∈ workshop.errands, ∀ rest, progress = .held rest →
    rest.Leaves Workspace.retention

/-- An errand begins. -/
theorem IsCalm.begin (h : workshop.IsCalm) (holds : Pause → Bool) (errand : Errand) :
    (workshop.turn holds (.begin errand)).IsCalm ∧
      (workshop.turn holds (.begin errand)).workspace.retention =
        errand.retention workshop.workspace := by
  have hfixes := errand.fixes holds workshop.workspace
  refine ⟨fun progress hmem rest hheld => ?_, hfixes.value⟩
  rcases List.mem_append.mp hmem with hold | hnew
  · exact h progress hold rest hheld
  · exact hfixes.rests rest ((List.mem_singleton.mp hnew).symm.trans hheld)

/-- An errand goes on. -/
theorem IsCalm.goOn (h : workshop.IsCalm) (holds : Pause → Bool) (index : Nat) :
    (workshop.turn holds (.goOn index)).IsCalm ∧
      (workshop.turn holds (.goOn index)).workspace.retention = workshop.workspace.retention := by
  simp only [turn]
  split
  · next rest hrest =>
      have hfixes := (h _ (List.mem_of_getElem? hrest) rest rfl).fixes holds workshop.workspace
      refine ⟨fun progress hmem other hheld => ?_, hfixes.value⟩
      rcases List.mem_or_eq_of_mem_set hmem with hold | hnew
      · exact h progress hold other hheld
      · exact hfixes.rests other (hnew.symm.trans hheld)
  · exact ⟨h, rfl⟩

theorem IsCalm.run (h : workshop.IsCalm) (holds : Pause → Bool) (turns : List Turn) :
    (workshop.run holds turns).IsCalm := by
  induction turns generalizing workshop with
  | nil => exact h
  | cons next rest ih =>
      rw [run_cons]
      cases next with
      | begin errand => exact ih (h.begin holds errand).1
      | goOn index => exact ih (h.goOn holds index).1
      | outside next => exact ih h

end Workshop

end CommentIndex
