import CommentIndex.Proofs.Session.Focus

/-!
# How scans begin and end

A `Survey` is a scan of a workspace, or the rebuild of which one is part. It reads the files, and
then the document that has the focus, before the workspace counts as loaded. `Stage` says what is
known of a survey that has begun and of its workspace, whether it pauses or has ended: it is kept
when the survey goes on (`Stage.goOn`), when a reading ends (`Stage.ended`), and when the focus
moves (`Stage.focus`).
-/

namespace CommentIndex

open Activity

namespace Workspace

variable {file : Path → Path} {base : Nat} {Meant : Path → Prop} {workspace : Workspace}
  {path : Path} {update : Workspace → Workspace}

/-! ## Scans -/

/-- Loads a workspace. -/
def load (workspace : Workspace) : Workspace :=
  { workspace with isLoaded := true }

/-- Documents can be read in a workspace that is loaded. -/
theorem Tended.load (h : Tended file base Meant workspace) :
    Tended file base Meant workspace.load :=
  ⟨h.names, h.matcher, h.tidy, h.focus⟩

/-- What a scan does last of all. -/
def opening : Activity Unit :=
  .act load fun _ => Activity.notify

/-- The document that has the focus is replaced, if there is one. -/
theorem stretch_replaceActive (holds : Pause → Bool) (workspace : Workspace)
    (next : Activity Unit) :
    (replaceActive.bind fun _ => next).stretch holds workspace =
      match workspace.active with
      | some path => ((replace path).bind fun _ => next).stretch holds workspace
      | none => next.stretch holds workspace := by
  simp only [replaceActive, bind_eq, Activity.bind_assoc, stretch_workspace]
  cases workspace.active with
  | none => rfl
  | some path =>
      simp only [Activity.bind_assoc]
      rfl

/-- What a scan does last, once it has counted the files with anchors. -/
def finishScan (count : Nat) : Activity Nat := do
  Activity.change fun workspace => { workspace with isScanning := false }
  replaceActive
  Activity.change load
  Activity.notify
  return count

/-- What a scan does once its files have been read. -/
def closeScan : Except WorkspaceError Nat → Activity Nat
  | .ok count => finishScan count
  | .error error => do
    Activity.report .error (scanFailed ++ errorDetail error)
    finishScan 0

/-- A workspace whose scan has begun. -/
def underScan (workspace : Workspace) : Workspace :=
  { workspace with isScanned := true, isLoaded := false, isScanning := true }

/-- A scan reads the files and closes. -/
theorem stretch_scan (holds : Pause → Bool) (workspace : Workspace) :
    scan.stretch holds workspace =
      ((scanFiles workspace.settings.workspace).attempt.bind closeScan).stretch holds
        workspace.underScan := by
  have hclose : closeScan = fun read => closeScan read := rfl
  rw [hclose]
  simp only [scan, bind_eq, stretch_workspace, stretch_change]
  refine congrArg (fun next => ((scanFiles workspace.settings.workspace).attempt.bind next).stretch
    holds _) ?_
  funext read
  cases read <;> rfl

/-- There is something to search for with the settings of a workspace, and the delay is allowed. -/
structure IsFit (settings : Settings) : Prop where
  compiles : ∃ matcher, Matcher.compile (.ofSettings settings.tags.listed settings.tags.keyed)
    settings.tags.separators settings.tags.marks settings.tags.endTag settings.tags.matchCase =
      .ok matcher
  delay : ∃ delay, delayOf settings = .ok delay

/-- What is searched for with settings. -/
def Compiles (settings : Settings) (matcher : Matcher) : Prop :=
  Matcher.compile (.ofSettings settings.tags.listed settings.tags.keyed) settings.tags.separators
    settings.tags.marks settings.tags.endTag settings.tags.matchCase = .ok matcher

/-- With fit settings, there is a matcher. -/
theorem stretch_build (holds : Pause → Bool) (workspace : Workspace) {matcher : Matcher}
    (hmatcher : Compiles workspace.settings matcher) {delay : Nat}
    (hdelay : delayOf workspace.settings = .ok delay) :
    build.stretch holds workspace =
      (.finished (.ok true),
        { workspace with
          registry := .ofSettings workspace.settings.tags.listed workspace.settings.tags.keyed
          matcher := some matcher
          debouncer := { workspace.debouncer with delay := delay } }) := by
  unfold Compiles at hmatcher
  simp [build, hmatcher, hdelay, Activity.ofExcept, Activity.bind]

/-- With a delay that is not allowed, building fails once there is a matcher. -/
theorem stretch_build_of_delay (holds : Pause → Bool) (workspace : Workspace) {matcher : Matcher}
    (hmatcher : Compiles workspace.settings matcher) {error : WorkspaceError}
    (hdelay : delayOf workspace.settings = .error error) :
    (build.stretch holds workspace).1 = .finished (.error error) := by
  unfold Compiles at hmatcher
  simp [build, hmatcher, hdelay, Activity.ofExcept, Activity.bind, Activity.stretch]

/-- A workspace with new settings, and what follows from them. -/
def rebuilt (workspace : Workspace) (settings : Settings) (matcher : Matcher) (delay : Nat) :
    Workspace :=
  { workspace with
    settings := settings
    isScanned := false
    registry := .ofSettings settings.tags.listed settings.tags.keyed
    matcher := some matcher
    debouncer := { workspace.debouncer with delay := delay } }

/-- A rebuild for which there are a matcher and a delay scans the workspace or loads it. -/
theorem stretch_rebuild_of_fit (holds : Pause → Bool) (workspace : Workspace)
    (given : Option Settings) {settings : Settings}
    (hsettings : given.getD workspace.settings = settings) {matcher : Matcher}
    (hmatcher : Compiles settings matcher) {delay : Nat} (hdelay : delayOf settings = .ok delay) :
    (rebuild given).stretch holds workspace =
      (if settings.workspace.enabled && !settings.workspace.lazyLoad then
          scan.bind fun _ => .done true
        else (change load).bind fun _ => replaceActive.bind fun _ =>
          notify.bind fun _ => .done true).stretch holds
        (workspace.rebuilt settings matcher delay) := by
  subst hsettings
  let set : Workspace :=
    { workspace with settings := given.getD workspace.settings, isScanned := false }
  show (build.bind fun built => _).stretch holds set = _
  rw [stretch_bind, stretch_build holds set hmatcher hdelay]
  rfl

/-- A rebuild for which there are a matcher but no delay goes no further than its build. -/
theorem stretch_rebuild_of_delay (holds : Pause → Bool) (workspace : Workspace)
    (given : Option Settings) {settings : Settings}
    (hsettings : given.getD workspace.settings = settings) {matcher : Matcher}
    (hmatcher : Compiles settings matcher) {error : WorkspaceError}
    (hdelay : delayOf settings = .error error) :
    (rebuild given).stretch holds workspace = (.finished (.error error),
      (build.stretch holds { workspace with settings := settings, isScanned := false }).2) := by
  subst hsettings
  let set : Workspace :=
    { workspace with settings := given.getD workspace.settings, isScanned := false }
  have hbuild := stretch_build_of_delay holds set hmatcher hdelay
  show (build.bind fun built => _).stretch holds set = (_, (build.stretch holds set).2)
  rw [stretch_bind]
  generalize build.stretch holds set = built at hbuild
  obtain ⟨progress, after⟩ := built
  rw [show progress = _ from hbuild]

end Workspace

/-! ## Surveys -/

/-- What scans a workspace. -/
inductive Survey where
  | scan
  | rebuild (settings : Option Settings)

namespace Survey

open Workspace

variable {file : Path → Path} {base : Nat} {Meant : Path → Prop} {workspace : Workspace}
  {path : Path} {survey : Survey}

/-- What is done in a survey. -/
def activity : Survey → Activity Unit
  | .scan => Workspace.scan.bind fun _ => .done ()
  | .rebuild settings => (Workspace.rebuild settings).bind fun _ => .done ()

/-- A rebuild scans if its settings are fit and do not have scans wait. -/
def Scans (workspace : Workspace) : Survey → Prop
  | .scan => True
  | .rebuild settings =>
    let settings := settings.getD workspace.settings
    IsFit settings ∧ settings.workspace.enabled ∧ settings.workspace.lazyLoad = false

/-- What a survey does once its files have been read. -/
def close (read : Except WorkspaceError Nat) : Activity Unit :=
  (closeScan read).bind fun _ => .done ()

/-- A survey that is a scan reads the files and closes. -/
theorem stretch_scan_close (holds : Pause → Bool) (workspace : Workspace) :
    (Workspace.scan.bind fun _ => .done ()).stretch holds workspace =
      ((scanFiles workspace.settings.workspace).attempt.bind close).stretch holds
        workspace.underScan := by
  have hclose : close = fun read => (closeScan read).bind fun _ => .done () := rfl
  rw [hclose, ← Activity.bind_assoc, stretch_bind, stretch_scan, ← stretch_bind]

/-- A workspace is surveyed once its scan has begun. -/
theorem surveyed_underScan (h : Tended file base Meant workspace) :
    Surveyed file base Meant workspace.underScan :=
  ⟨⟨h.names, h.matcher, h.tidy, h.focus⟩, rfl, rfl⟩

/-- A survey that is a rebuild scans the workspace if scans do not wait to be asked for. -/
theorem stretch_rebuild (holds : Pause → Bool) (workspace : Workspace) (given : Option Settings)
    {settings : Settings} (hsettings : given.getD workspace.settings = settings)
    {matcher : Matcher} (hmatcher : Compiles settings matcher) {delay : Nat}
    (hdelay : delayOf settings = .ok delay) (henabled : settings.workspace.enabled = true)
    (heager : settings.workspace.lazyLoad = false) :
    (activity (.rebuild given)).stretch holds workspace =
      ((scanFiles settings.workspace).attempt.bind close).stretch holds
        (workspace.rebuilt settings matcher delay).underScan := by
  have hrebuild := stretch_rebuild_of_fit holds workspace given hsettings hmatcher hdelay
  have hscans : (settings.workspace.enabled && !settings.workspace.lazyLoad) = true := by
    rw [henabled, heager]
    rfl
  rw [if_pos hscans] at hrebuild
  refine Eq.trans ?_ (stretch_scan_close holds (workspace.rebuilt settings matcher delay))
  rw [activity, stretch_bind, hrebuild, ← stretch_bind, Activity.bind_assoc]
  rfl

/-- A rebuild whose delay is not allowed fails before it scans. -/
theorem stretch_rebuild_of_delay (holds : Pause → Bool) (workspace : Workspace)
    (given : Option Settings) {settings : Settings}
    (hsettings : given.getD workspace.settings = settings) {matcher : Matcher}
    (hmatcher : Compiles settings matcher) {error : WorkspaceError}
    (hdelay : delayOf settings = .error error) :
    ((activity (.rebuild given)).stretch holds workspace).1 = .finished (.error error) := by
  rw [activity, stretch_bind,
    Workspace.stretch_rebuild_of_delay holds workspace given hsettings hmatcher hdelay]

/-- A survey begins to read the files of its settings. -/
theorem begins (h : Tended file base Meant workspace) (hscans : survey.Scans workspace)
    (holds : Pause → Bool) :
    ∃ settings surveyed, Surveyed file base Meant surveyed ∧
      survey.activity.stretch holds workspace =
        ((scanFiles settings).attempt.bind close).stretch holds surveyed := by
  cases survey with
  | scan => exact ⟨_, _, surveyed_underScan h, stretch_scan_close holds workspace⟩
  | rebuild settings =>
      obtain ⟨⟨⟨matcher, hmatcher⟩, delay, hdelay⟩, henabled, heager⟩ := hscans
      have htended : Tended file base Meant
          (workspace.rebuilt (settings.getD workspace.settings) matcher delay) :=
        ⟨h.names, rfl, h.tidy, h.focus⟩
      exact ⟨_, _, surveyed_underScan htended,
        stretch_rebuild holds workspace settings rfl hmatcher hdelay henabled heager⟩

/-- A survey closes with the document that has the focus. -/
theorem stretch_close (holds : Pause → Bool) (workspace : Workspace)
    (read : Except WorkspaceError Nat) :
    (close read).stretch holds workspace =
      (replaceActive.bind fun _ => opening).stretch holds
        { workspace with isScanning := false } := by
  cases read with
  | ok count =>
      simp only [close, closeScan, finishScan, bind_eq, Activity.bind_assoc, stretch_change]
      rfl
  | error error =>
      simp only [close, closeScan, finishScan, bind_eq, Activity.bind_assoc, stretch_change,
        stretch_report]
      rfl

/-! ## Stages -/

/-- The document that has the focus has an outline unless it is `stranded`. -/
structure Served (file : Path → Path) (workspace : Workspace) (stranded : Bool) : Prop where
  cached : ∀ path, workspace.active = some path → path.isUnusable = false →
    (workspace.cache.lookup? (file path)).isSome = !stranded
  focused : workspace.active = none → stranded = false

/-- How far a survey has got that has begun, its workspace, and whether the document that has the
focus is stranded. -/
inductive Stage (file : Path → Path) (base : Nat) (Meant : Path → Prop) :
    Progress Unit × Workspace → Bool → Prop
  /-- It reads files. -/
  | reading {workspace : Workspace} (rest : Activity Nat)
    (surveyed : Surveyed file base Meant workspace)
    (maintains : ∀ later, Surveyed file base Meant later →
      rest.Maintains (Surveyed file base Meant) later) :
    Stage file base Meant (.held (rest.attempt.bind close), workspace) false
  /-- It reads the document that had the focus when all files had been read. -/
  | closing {workspace : Workspace} {stranded : Bool} (rest : Activity Unit)
    (tended : Tended file base Meant workspace) (loaded : workspace.isLoaded = false)
    (scanning : workspace.isScanning = false) (ends : Ends file base load rest)
    (served : Served file workspace stranded) :
    Stage file base Meant (.held rest, workspace) stranded
  | closed {workspace : Workspace} {stranded : Bool} (tended : Tended file base Meant workspace)
    (loaded : workspace.isLoaded = true) (served : Served file workspace stranded) :
    Stage file base Meant (.finished (.ok ()), workspace) stranded
  /-- The document that had the focus then cannot be read. -/
  | failed {workspace : Workspace} {stranded : Bool} (tended : Tended file base Meant workspace)
    (loaded : workspace.isLoaded = false) (path : Path) (meant : Meant path)
    (unusable : path.isUnusable) :
    Stage file base Meant (.finished (.error .unusablePath), workspace) stranded

/-- At every stage documents can be read. -/
theorem Stage.tended {result : Progress Unit × Workspace} {stranded : Bool}
    (h : Stage file base Meant result stranded) : Tended file base Meant result.2 := by
  cases h with
  | reading rest surveyed maintains => exact surveyed.toTended
  | closing rest tended loaded scanning ends served => exact tended
  | closed tended loaded served => exact tended
  | failed tended loaded path meant unusable => exact tended

/-- A document with the focus and an outline is not stranded. -/
theorem served_of_cached (hfocus : workspace.active = some path)
    (hcached : (workspace.cache.lookup? (file path)).isSome) : Served file workspace false where
  cached := by
    intro other hother _
    obtain rfl := Option.some.inj (hfocus.symm.trans hother)
    rw [hcached]
    rfl
  focused := fun _ => rfl

/-- Without a focus, no document is stranded. -/
theorem served_of_none (hfocus : workspace.active = none) : Served file workspace false where
  cached := fun path hpath => by
    rw [hfocus] at hpath
    contradiction
  focused := fun _ => rfl

/-- The document that has the focus is cached unless it is stranded or cannot be read. -/
theorem Served.cached_iff {stranded : Bool} (h : Served file workspace stranded)
    (htended : Tended file base Meant workspace) :
    (∀ path, workspace.active = some path → workspace.isCached path = .ok true) ↔
      (∀ path, workspace.active = some path → path.isUnusable = false) ∧ stranded = false := by
  constructor
  · intro hcached
    have husable (path : Path) (hfocus : workspace.active = some path) :
        path.isUnusable = false := by
      refine eq_false_of_ne_true fun hpath => ?_
      have herror : workspace.isCached path = .error .unusablePath := by
        simp [Workspace.isCached, Workspace.lookup?, Workspace.fileAt, hpath, Except.map]
      rw [hcached path hfocus] at herror
      contradiction
    refine ⟨husable, ?_⟩
    cases hfocus : workspace.active with
    | none => exact h.focused hfocus
    | some path =>
        have hknown := htended.isCached (husable path hfocus)
        rw [hcached path hfocus, h.cached path hfocus (husable path hfocus)] at hknown
        simpa using hknown
  · rintro ⟨husable, rfl⟩ path hfocus
    rw [htended.isCached (husable path hfocus), h.cached path hfocus (husable path hfocus)]
    rfl

/-- When the files have been read, the document that has the focus is read. -/
theorem stage_close (h : Surveyed file base Meant workspace) (holds : Pause → Bool)
    (read : Except WorkspaceError Nat) :
    Stage file base Meant ((close read).stretch holds workspace) false := by
  let scanned : Workspace := { workspace with isScanning := false }
  have htended : Tended file base Meant scanned := ⟨h.names, h.matcher, h.tidy, h.focus⟩
  have hclose : (close read).stretch holds workspace =
      (replaceActive.bind fun _ => opening).stretch holds scanned := stretch_close ..
  rw [hclose, stretch_replaceActive]
  cases hfocus : scanned.active with
  | none =>
      exact .closed htended.load rfl (served_of_none hfocus)
  | some path =>
      by_cases hpath : path.isUnusable
      · have hfails : ((replace path).bind fun _ => opening).stretch holds scanned =
            (.finished (.error .unusablePath), scanned) := by
          rw [stretch_bind, replace, bind_eq, stretch_fileAt_of_unusable hpath]
        dsimp only
        rw [hfails]
        exact .failed htended h.loaded path (h.focus path hfocus) hpath
      · have hreads : Reads file base load path scanned
            (((replace path).bind fun _ => opening).stretch holds scanned) :=
          htended.replace_bind (eq_false_of_ne_true hpath) (fun _ _ _ => rfl) holds
        dsimp only
        generalize ((replace path).bind fun _ => opening).stretch holds scanned = result at hreads
        cases hreads with
        | held cache rest tidy cached ends =>
            exact .closing rest (htended.withCache tidy) h.loaded rfl ends
              (served_of_cached hfocus cached)
        | ended cache tidy cached =>
            exact .closed (htended.withCache tidy).load rfl (served_of_cached hfocus cached)

/-- A survey that reads files goes on with them, and closes when there are no more. -/
theorem stage_reading {rest : Activity Nat}
    (hrest : rest.Maintains (Surveyed file base Meant) workspace) (holds : Pause → Bool) :
    Stage file base Meant ((rest.attempt.bind close).stretch holds workspace) false := by
  obtain ⟨hsurveyed, hheld⟩ := hrest.stretch holds
  rw [stretch_bind, stretch_attempt]
  generalize rest.stretch holds workspace = result at hsurveyed hheld
  obtain ⟨progress, after⟩ := result
  cases progress with
  | finished outcome => exact stage_close hsurveyed holds outcome
  | held later => exact .reading later hsurveyed (hheld later rfl)

/-- A survey that begins reads files. -/
theorem stage_activity (h : Tended file base Meant workspace) (hscans : survey.Scans workspace)
    (holds : Pause → Bool) :
    Stage file base Meant (survey.activity.stretch holds workspace) false := by
  obtain ⟨settings, surveyed, hsurveyed, hbegins⟩ := begins h hscans holds
  rw [hbegins]
  exact stage_reading (hsurveyed.scanFiles settings) holds

/-- The end of a reading strands no document, and serves none that is stranded. -/
theorem Served.ended {stranded : Bool} (h : Served file workspace stranded)
    (htended : Tended file base Meant workspace) {attempt : Attempt}
    (hsince : base < attempt.ticket) (result : Option Outline) :
    Served file { workspace with cache := Traffic.ended file workspace.cache attempt result }
      stranded where
  cached := fun path hfocus husable =>
    (htended.tidy.isSome_lookup_ended hsince result _).trans (h.cached path hfocus husable)
  focused := h.focused

/-- A survey goes on from one stage to another. -/
theorem Stage.goOn {rest : Activity Unit} {stranded : Bool}
    (h : Stage file base Meant (.held rest, workspace) stranded) (holds : Pause → Bool) :
    Stage file base Meant (rest.stretch holds workspace) stranded := by
  cases h with
  | reading rest surveyed maintains => exact stage_reading (maintains workspace surveyed) holds
  | closing rest tended loaded scanning ends served =>
      obtain ⟨attempt, hsince, hends⟩ := ends
      obtain ⟨result, hend⟩ := hends holds workspace tended.names
      have hserved := served.ended tended hsince result
      rw [hend]
      exact .closed (tended.withCache (tended.tidy.ended hsince result)).load rfl
        ⟨hserved.cached, hserved.focused⟩

/-- A survey stays where it is when another reading ends. -/
theorem Stage.ended {progress : Progress Unit} {stranded : Bool}
    (h : Stage file base Meant (progress, workspace) stranded) {attempt : Attempt}
    (hsince : base < attempt.ticket) (result : Option Outline) :
    Stage file base Meant
      (progress, { workspace with cache := Traffic.ended file workspace.cache attempt result })
      stranded := by
  have htidy := h.tended.tidy.ended hsince result
  cases h with
  | reading rest surveyed maintains =>
      exact .reading rest (surveyed.withCache htidy) maintains
  | closing rest tended loaded scanning ends served =>
      exact .closing rest (tended.withCache htidy) loaded scanning ends
        (served.ended tended hsince result)
  | closed tended loaded served =>
      exact .closed (tended.withCache htidy) loaded (served.ended tended hsince result)
  | failed tended loaded path meant unusable =>
      exact .failed (tended.withCache htidy) loaded path meant unusable

/-! ## The focus -/

/-- Whether a document that gets the focus is stranded: the survey does not look for the focus any
more, the workspace is not loaded yet, and nothing is cached for the document. -/
def strands (survey : Option (Progress Unit)) (workspace : Workspace) (focus : Option Path) :
    Bool :=
  match survey, focus with
  | some (.held _), some path =>
    !workspace.isScanning && decide (workspace.isCached path ≠ .ok true)
  | _, _ => false

/-- A survey stays where it is when the focus moves. -/
theorem Stage.focus {progress : Progress Unit} {stranded : Bool} {focus : Option Path}
    (h : Stage file base Meant (progress, workspace) stranded)
    (hmeant : ∀ path, focus = some path → Meant path) {cache : Cache}
    {result : Progress Unit × Workspace} (hmoves : Moves file base focus workspace cache result) :
    Stage file base Meant (progress, result.2) (strands (some progress) workspace focus) := by
  have hmoved := h.tended.withFocus hmeant hmoves.tidy
  rw [hmoves.after]
  cases h with
  | reading rest surveyed maintains =>
      -- The survey is still going to look for the focus.
      have hstrands : strands (some (.held (rest.attempt.bind close))) workspace focus = false := by
        cases focus <;> simp [strands, surveyed.scanning]
      rw [hstrands]
      exact .reading rest ⟨hmoved, surveyed.loaded, surveyed.scanning⟩ maintains
  | closing rest tended loaded scanning ends served =>
      -- It has looked, and nothing is read for the focus before the workspace is loaded.
      refine .closing rest hmoved loaded scanning ends ⟨?_, ?_⟩
      · rintro path hpath husable
        obtain rfl : focus = some path := hpath
        have hstrands : strands (some (.held rest)) workspace (some path) =
            !(workspace.cache.lookup? (file path)).isSome := by
          show (!workspace.isScanning && decide (workspace.isCached path ≠ .ok true)) = _
          rw [scanning, tended.isCached husable]
          cases (workspace.cache.lookup? (file path)).isSome <;> rfl
        rw [hmoves.idle loaded, hstrands, Bool.not_not]
      · intro hnone
        obtain rfl : focus = none := hnone
        rfl
  | closed tended loaded served =>
      refine .closed hmoved loaded ⟨?_, fun _ => by cases focus <;> rfl⟩
      intro path hpath husable
      rw [hmoves.cached loaded path hpath husable]
      cases focus <;> rfl
  | failed tended loaded path meant unusable =>
      exact .failed hmoved loaded path meant unusable

end Survey

end CommentIndex
