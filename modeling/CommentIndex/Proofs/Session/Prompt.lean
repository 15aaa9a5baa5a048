import CommentIndex.Proofs.Cache.Writing
import CommentIndex.Proofs.Session.Readings
import CommentIndex.Workspace.Documents

/-!
# Activities that take no time

An activity that never rests is run to its end in no time. By `run_eq_stretch` it then does to the
workspace what it does at one stretch that nothing holds up. The activities of open documents are of
this kind, and for a document with a text their readings end at once: `stretch_replace_now` and
`stretch_refresh_now` say with which cache.
-/

namespace CommentIndex

variable {α β : Type}

namespace Activity

/-- An activity that never rests. -/
def IsPrompt : Activity α → Prop
  | .done _ => True
  | .fail _ => True
  | .act _ next => ∀ workspace, (next workspace).IsPrompt
  | .tell _ next => next.IsPrompt
  | .pause reason next => (∀ milliseconds, reason ≠ .rest milliseconds) ∧ next.IsPrompt

/-- An activity that never rests and tells of no progress. -/
def IsPlain : Activity α → Prop
  | .done _ => True
  | .fail _ => True
  | .act _ next => ∀ workspace, (next workspace).IsPlain
  | .tell signal next => (∀ found total, signal ≠ .progress found total) ∧ next.IsPlain
  | .pause reason next => (∀ milliseconds, reason ≠ .rest milliseconds) ∧ next.IsPlain

/-- Two plain activities one after the other are a plain one. -/
theorem IsPlain.bind {first : Activity α} {second : α → Activity β} (hfirst : first.IsPlain)
    (hsecond : ∀ result, (second result).IsPlain) : (first.bind second).IsPlain := by
  induction first with
  | done result => exact hsecond result
  | fail error => trivial
  | act update next ih => exact fun workspace => ih workspace (hfirst workspace)
  | tell signal next ih => exact ⟨hfirst.1, ih hfirst.2⟩
  | pause reason next ih => exact ⟨hfirst.1, ih hfirst.2⟩

theorem IsPlain.isPrompt {activity : Activity α} (h : activity.IsPlain) : activity.IsPrompt := by
  induction activity with
  | done result => trivial
  | fail error => trivial
  | act update next ih => exact fun workspace => ih workspace (h workspace)
  | tell signal next ih => exact ih h.2
  | pause reason next ih => exact ⟨h.1, ih h.2⟩

theorem isPlain_workspace : workspace.IsPlain := fun _ => trivial

theorem isPlain_change (update : Workspace → Workspace) : (change update).IsPlain :=
  fun _ => trivial

theorem isPlain_notify : notify.IsPlain := ⟨by simp, trivial⟩

theorem isPlain_report (severity : Severity) (message : String) :
    (report severity message).IsPlain := ⟨by simp, trivial⟩

theorem isPlain_ask (question : Workspace → Except WorkspaceError α) :
    (ask question).IsPlain := by
  intro workspace
  show (ofExcept (question workspace)).IsPlain
  cases question workspace <;> trivial

@[simp] theorem isPrompt_change (update : Workspace → Workspace) : (change update).IsPrompt :=
  (isPlain_change update).isPrompt

end Activity

namespace Session

/-- An activity that never rests, run to its end, changes nothing but the workspace, and that as at
one stretch that nothing holds up. -/
theorem run_eq_stretch {activity : Activity α} (h : activity.IsPrompt) (session : Session) :
    SameWork
      { session with
        workspace := (activity.stretch (fun _ => false) session.workspace).2 }
      (run activity session).2 := by
  induction activity generalizing session with
  | done result => exact ⟨rfl, rfl, rfl, rfl⟩
  | fail error => exact ⟨rfl, rfl, rfl, rfl⟩
  | act update next ih =>
      exact ih session.workspace (h session.workspace)
        { session with workspace := update session.workspace }
  | tell signal next ih =>
      have hhear := session.sameWork_hear signal
      have hnext := ih h (session.hear signal)
      rw [hhear.workspace] at hnext
      exact ⟨hnext.workspace, hnext.holdsReads.trans hhear.holdsReads,
        hnext.gates.trans hhear.gates, hnext.tasks.trans hhear.tasks⟩
  | pause reason next ih =>
      cases reason with
      | rest milliseconds => exact absurd rfl (h.1 milliseconds)
      | buffer => exact ih h.2 session
      | file => exact ih h.2 session
      | listing => exact ih h.2 session

/-- An activity that never rests, run to its end, gives what it gives at one stretch that nothing
holds up. -/
theorem stretch_eq_finished {activity : Activity α} (h : activity.IsPrompt) (session : Session) :
    (activity.stretch (fun _ => false) session.workspace).1 =
      .finished (run activity session).1 := by
  induction activity generalizing session with
  | done result => rfl
  | fail error => rfl
  | act update next ih =>
      exact ih session.workspace (h session.workspace)
        { session with workspace := update session.workspace }
  | tell signal next ih =>
      have hnext := ih h (session.hear signal)
      rwa [(session.sameWork_hear signal).workspace] at hnext
  | pause reason next ih =>
      cases reason with
      | rest milliseconds => exact absurd rfl (h.1 milliseconds)
      | buffer => exact ih h.2 session
      | file => exact ih h.2 session
      | listing => exact ih h.2 session

end Session

namespace Workspace

open Activity

/-! ## Plain activities -/

theorem isPlain_readText (path : Path) : (readText path).IsPlain := by
  refine isPlain_workspace.bind fun workspace => ?_
  split
  · exact ⟨by simp, trivial⟩
  · split
    · trivial
    · exact ⟨by simp, trivial⟩

theorem isPlain_giveUp (path : Path) (ticket : Nat) (before : Option Outline) :
    (giveUp path ticket before).IsPlain :=
  (isPlain_change _).bind fun _ => trivial

theorem isPlain_land (path : Path) (ticket : Nat) (outline : Outline) :
    (land path ticket outline).IsPlain := by
  refine isPlain_workspace.bind fun workspace => ?_
  split
  · refine (isPlain_ask _).bind fun file => (isPlain_change _).bind fun _ => ?_
    split
    · exact isPlain_notify
    · trivial
  · trivial

theorem isPlain_endReading (matcher : Matcher) (registry : Registry) (path : Path)
    (ticket : Nat) (before : Option Outline) (text : Except FileError (List Char)) :
    (endReading matcher registry path ticket before text).IsPlain := by
  unfold endReading
  split
  · exact (isPlain_report _ _).bind fun _ => isPlain_giveUp _ _ _
  · refine isPlain_workspace.bind fun workspace => ?_
    dsimp only
    split
    · exact isPlain_giveUp _ _ _
    · exact (isPlain_land _ _ _).bind fun _ => trivial

theorem isPlain_readUnder (path : Path) (before : Option Outline) :
    (readUnder path before).IsPlain := by
  refine isPlain_workspace.bind fun workspace => ?_
  split
  · refine isPlain_workspace.bind fun _ => (isPlain_change _).bind fun _ => ?_
    exact (isPlain_readText path).bind fun text => isPlain_endReading ..
  · trivial

theorem isPlain_replace (path : Path) : (replace path).IsPlain := by
  refine (isPlain_ask _).bind fun file => isPlain_workspace.bind fun workspace => ?_
  exact (isPlain_change _).bind fun _ => isPlain_readUnder _ _

theorem isPlain_refresh (path : Path) : (refresh path).IsPlain := by
  refine (isPlain_ask _).bind fun file => isPlain_workspace.bind fun workspace => ?_
  exact isPlain_readUnder _ _

theorem isPlain_refreshActive : refreshActive.IsPlain := by
  refine isPlain_workspace.bind fun workspace => ?_
  split
  · exact (isPlain_refresh _).bind fun _ => trivial
  · trivial

theorem isPlain_setActive (path : Option Path) : (setActive path).IsPlain := by
  refine (isPlain_change _).bind fun _ => isPlain_workspace.bind fun workspace => ?_
  split
  · cases path with
    | none => exact isPlain_notify
    | some path =>
        refine (isPlain_ask _).bind fun isCached => ?_
        split
        · exact (isPlain_replace path).bind fun _ => isPlain_notify
        · exact isPlain_notify
  · trivial

theorem isPrompt_replace (path : Path) : (replace path).IsPrompt :=
  (isPlain_replace path).isPrompt

theorem isPrompt_setActive (path : Option Path) : (setActive path).IsPrompt :=
  (isPlain_setActive path).isPrompt

theorem isPrompt_openDocument (path : Path) (text : String) (takesFocus : Bool) :
    (openDocument path text takesFocus).IsPrompt := by
  refine ((isPlain_change _).bind fun _ => ?_).isPrompt
  split
  · exact isPlain_setActive _
  · trivial

/-! ## Readings that end at once -/

variable {file : Path → Path} {holds : Pause → Bool} {workspace : Workspace} {path : Path}

/-- A reading whose text has an outline lands. -/
theorem stretch_endReading_of_outline (hnames : workspace.Names file)
    (husable : path.isUnusable = false) {matcher : Matcher} {registry : Registry}
    {text : List Char} {read : Outline × Bool}
    (htext : Outline.ofText matcher registry workspace.settings.tags.showTag text = .ok read)
    (ticket : Nat) (before : Option Outline) :
    (endReading matcher registry path ticket before (.ok text)).stretch holds workspace =
      (.finished (.ok read.2),
        { workspace with cache := workspace.cache.land path (file path) ticket read.1 }) := by
  unfold endReading
  simp only [bind_eq, pure_eq, stretch_workspace, htext]
  rw [stretch_bind, stretch_land hnames husable]
  rfl

/-- The text of an open document is there at once. -/
theorem stretch_readText_now {α : Type} (workspace : Workspace) (hbuffer : holds .buffer = false)
    {text : String} (hopen : workspace.buffers.find? path = some text)
    (next : Except FileError (List Char) → Activity α) :
    ((readText path).bind next).stretch holds workspace =
      (next (.ok text.toList)).stretch holds workspace := by
  unfold readText
  simp [Activity.bind_assoc, hopen, hbuffer, Activity.bind]

/-- The reading of an open document gives out a ticket and ends with the text of its buffer. -/
theorem stretch_readUnder_open (workspace : Workspace) (hbuffer : holds .buffer = false)
    {matcher : Matcher} (hmatcher : workspace.matcher = some matcher) {text : String}
    (hopen : workspace.buffers.find? path = some text) (before : Option Outline) :
    (readUnder path before).stretch holds workspace =
      (endReading matcher workspace.registry path workspace.cache.nextTicket before
        (.ok text.toList)).stretch holds
        { workspace with cache := workspace.cache.issue path } := by
  simp only [readUnder, readOutline, bind_eq, stretch_workspace]
  split
  · next found hfound =>
      obtain rfl : matcher = found := Option.some.inj (hmatcher.symm.trans hfound)
      rw [stretch_workspace, stretch_change]
      exact stretch_readText_now { workspace with cache := workspace.cache.issue path } hbuffer
        hopen _
  · next hnone =>
      rw [hmatcher] at hnone
      contradiction

/-- The reading of an open document ends at once. -/
theorem stretch_readUnder_now (workspace : Workspace) (hnames : workspace.Names file)
    (husable : path.isUnusable = false) (hbuffer : holds .buffer = false) {matcher : Matcher}
    (hmatcher : workspace.matcher = some matcher) {text : String}
    (hopen : workspace.buffers.find? path = some text) {read : Outline × Bool}
    (htext : Outline.ofText matcher workspace.registry workspace.settings.tags.showTag
      text.toList = .ok read) (before : Option Outline) :
    (readUnder path before).stretch holds workspace =
      (.finished (.ok read.2),
        { workspace with cache := workspace.cache.landed path (file path) read.1 }) := by
  let issued : Workspace := { workspace with cache := workspace.cache.issue path }
  have hissued : issued.Names file := hnames
  rw [stretch_readUnder_open workspace hbuffer hmatcher hopen]
  exact stretch_endReading_of_outline hissued husable htext _ _

/-- Replacing the outline of an open document ends at once. -/
theorem stretch_replace_now (workspace : Workspace) (hnames : workspace.Names file)
    (husable : path.isUnusable = false) (hbuffer : holds .buffer = false) {matcher : Matcher}
    (hmatcher : workspace.matcher = some matcher) {text : String}
    (hopen : workspace.buffers.find? path = some text) {read : Outline × Bool}
    (htext : Outline.ofText matcher workspace.registry workspace.settings.tags.showTag
      text.toList = .ok read) :
    (replace path).stretch holds workspace =
      (.finished (.ok read.2),
        { workspace with
          cache :=
            (workspace.cache.displace path (file path)).landed path (file path) read.1 }) := by
  simp only [replace, bind_eq, hnames.stretch husable, stretch_workspace, stretch_change]
  exact stretch_readUnder_now
    { workspace with cache := workspace.cache.displace path (file path) } hnames husable hbuffer
    hmatcher hopen htext _

/-- Refreshing the outline of an open document that is kept under no other path ends at once. -/
theorem stretch_refresh_now (workspace : Workspace) (hnames : workspace.Names file)
    (husable : path.isUnusable = false)
    (hholder : workspace.cache.holderOr path (file path) = path) (hbuffer : holds .buffer = false)
    {matcher : Matcher} (hmatcher : workspace.matcher = some matcher) {text : String}
    (hopen : workspace.buffers.find? path = some text) {read : Outline × Bool}
    (htext : Outline.ofText matcher workspace.registry workspace.settings.tags.showTag
      text.toList = .ok read) :
    (refresh path).stretch holds workspace =
      (.finished (.ok read.2),
        { workspace with cache := workspace.cache.landed path (file path) read.1 }) := by
  simp only [refresh, bind_eq, hnames.stretch husable, stretch_workspace, hholder]
  exact stretch_readUnder_now workspace hnames husable hbuffer hmatcher hopen htext _

/-! ## Giving the focus -/

/-- Before the workspace is loaded, giving the focus does nothing else. -/
theorem stretch_setActive_of_not_loaded (hloaded : workspace.isLoaded = false)
    (path : Option Path) :
    (setActive path).stretch holds workspace =
      (.finished (.ok ()), { workspace with active := path }) := by
  simp [setActive, hloaded]

/-- Taking the focus away only tells of it. -/
theorem stretch_setActive_none (hloaded : workspace.isLoaded = true) :
    (setActive none).stretch holds workspace =
      (.finished (.ok ()), { workspace with active := none }) := by
  simp [setActive, hloaded]

/-- Once the workspace is loaded, it is asked whether a document that gets the focus is cached. -/
theorem stretch_setActive_of_loaded (workspace : Workspace) (hloaded : workspace.isLoaded = true)
    (path : Path) :
    (setActive (some path)).stretch holds workspace =
      ((ask (·.isCached path)).bind fun known =>
        if known then notify else (replace path).bind fun _ => notify).stretch holds
          { workspace with active := some path } := by
  have hfocused : { workspace with active := some path }.isLoaded = true := hloaded
  generalize hnow : { workspace with active := some path } = focused at hfocused
  have hstretch : (setActive (some path)).stretch holds workspace =
      (Activity.bind Activity.workspace _).stretch holds { workspace with active := some path } :=
    rfl
  rw [hstretch, hnow, stretch_workspace, hfocused, if_pos rfl]
  refine congrArg (fun next => ((ask (·.isCached path)).bind next).stretch holds focused) ?_
  funext known
  cases known <;> rfl

/-- Once the workspace is loaded, a document that gets the focus is read unless it is cached. -/
theorem stretch_setActive_some (workspace : Workspace) (hloaded : workspace.isLoaded = true)
    {known : Bool} (hknown : workspace.isCached path = .ok known) :
    (setActive (some path)).stretch holds workspace =
      (if known then notify else (replace path).bind fun _ => notify).stretch holds
        { workspace with active := some path } := by
  rw [stretch_setActive_of_loaded workspace hloaded]
  exact stretch_ask holds { workspace with active := some path } hknown _

/-- An unusable path gets the focus, but it cannot be told whether it is cached. -/
theorem stretch_setActive_of_unusable (workspace : Workspace) (hloaded : workspace.isLoaded = true)
    (husable : path.isUnusable = true) :
    (setActive (some path)).stretch holds workspace =
      (.finished (.error .unusablePath), { workspace with active := some path }) := by
  have hasked : { workspace with active := some path }.isCached path = .error .unusablePath := by
    simp [isCached, lookup?, fileAt, husable, Except.map]
  rw [stretch_setActive_of_loaded workspace hloaded]
  exact stretch_ask_error holds { workspace with active := some path } hasked _

end Workspace

end CommentIndex
