import CommentIndex.Proofs.Session.Edits

/-!
# What opening and closing a document reads

A document has a text in its buffer while it is open, and one in its file. Opening it reads its text
only if nothing is cached for it, and closing it reads nothing. So what is cached for a document
that was cached before it is opened, or that is kept when it is closed, is what was cached before,
whatever its text is now: `lookup?_after_opening_and_closing`.
-/

namespace CommentIndex

open Activity

namespace Workspace

/-- The text that a reading of a document takes: that of its buffer if it is open, and else that of
its file. -/
def textAt (workspace : Workspace) (path : Path) : Except FileError (List Char) :=
  match workspace.buffers.find? path with
  | some text => .ok text.toList
  | none => workspace.disk.readText path

/-- The outline of the text of a document as it is now, if that can be read. -/
def outlineAt? (workspace : Workspace) (path : Path) : Option Outline := do
  let matcher ← workspace.matcher
  let text ← (workspace.textAt path).toOption
  let (outline, _) ←
    (Outline.ofText matcher workspace.registry workspace.settings.tags.showTag text).toOption
  return outline

/-- Whether a reading of a document as it is now meets anything. -/
def findsAt (workspace : Workspace) (path : Path) : Bool :=
  match workspace.matcher, workspace.textAt path with
  | some matcher, .ok text =>
    match Outline.ofText matcher workspace.registry workspace.settings.tags.showTag text with
    | .ok (_, found) => found
    | .error _ => false
  | _, _ => false

variable {holds : Pause → Bool} {workspace : Workspace} {path : Path}

/-! ## One reading -/

/-- A reading whose text has no outline gives up its ticket. -/
theorem stretch_endReading_of_error (workspace : Workspace) {matcher : Matcher}
    {registry : Registry} {text : List Char} {error : ParseError}
    (htext : Outline.ofText matcher registry workspace.settings.tags.showTag text = .error error)
    (ticket : Nat) (before : Option Outline) :
    (endReading matcher registry path ticket before (.ok text)).stretch holds workspace =
      (.finished (.ok false),
        { workspace with cache := workspace.cache.giveUp path ticket before }) := by
  unfold endReading
  simp only [bind_eq, stretch_workspace, htext]
  exact stretch_giveUp path ticket before

/-- Why a reading of a document pauses. -/
def pauseAt (workspace : Workspace) (path : Path) : Pause :=
  if workspace.isOpen path then .buffer else .file

/-- The workspace once a reading of a document has begun that displaces what is cached for its
file. -/
def readingBegun (workspace : Workspace) (path : Path) : Workspace :=
  { workspace with
    cache := (workspace.cache.displace path (workspace.disk.real path)).issue path }

/-- A reading pauses once, and it has the text that was there before. -/
theorem stretch_readText_pause {α : Type} (workspace : Workspace)
    (husable : path.isUnusable = false) (next : Except FileError (List Char) → Activity α) :
    ((readText path).bind next).stretch holds workspace =
      (Activity.pause (workspace.pauseAt path) (next (workspace.textAt path))).stretch holds
        workspace := by
  unfold readText textAt pauseAt isOpen KeyedList.contains
  cases hbuffer : workspace.buffers.find? path with
  | none =>
      simp only [bind_eq, Activity.bind_assoc, stretch_workspace, hbuffer, husable]
      rfl
  | some text =>
      simp only [bind_eq, Activity.bind_assoc, stretch_workspace, hbuffer]
      rfl

/-- A document that is replaced is read, with one pause. -/
theorem stretch_replace_pause {α : Type} (workspace : Workspace) (husable : path.isUnusable = false)
    {matcher : Matcher} (hmatcher : workspace.matcher = some matcher) (next : Bool → Activity α) :
    ((replace path).bind next).stretch holds workspace =
      (Activity.pause (workspace.pauseAt path)
        ((endReading matcher workspace.registry path workspace.cache.nextTicket
          (workspace.cache.lookup? (workspace.disk.real path)) (workspace.textAt path)).bind
            next)).stretch holds (workspace.readingBegun path) := by
  have hnames : workspace.Names workspace.disk.real := fun _ _ => rfl
  simp only [replace, readUnder, bind_eq, Activity.bind_assoc, hnames.stretch husable,
    stretch_workspace, stretch_change]
  split
  · next found hfound =>
      obtain rfl : matcher = found := Option.some.inj (hmatcher.symm.trans hfound)
      simp only [readOutline, bind_eq, Activity.bind_assoc, stretch_workspace, stretch_change]
      exact stretch_readText_pause (workspace.readingBegun path) husable _
  · next hmissing =>
      rw [hmatcher] at hmissing
      contradiction

/-- The end of a reading that is the latest of its path, whatever its text is, is the end of a
replacement in which nothing else happens. -/
theorem stretch_endReading_replaced (workspace : Workspace) (husable : path.isUnusable = false)
    {matcher : Matcher} (hmatcher : workspace.matcher = some matcher) :
    (endReading matcher workspace.registry path workspace.cache.nextTicket
        (workspace.cache.lookup? (workspace.disk.real path))
        (workspace.textAt path)).stretch (fun _ => false) (workspace.readingBegun path) =
      (.finished (.ok (workspace.findsAt path)),
        { workspace with
          cache :=
            workspace.cache.replaced path (workspace.disk.real path)
              (workspace.outlineAt? path) }) := by
  have hnames : (workspace.readingBegun path).Names workspace.disk.real := fun _ _ => rfl
  cases htext : workspace.textAt path with
  | error error =>
      have hnone : workspace.outlineAt? path = none := by
        simp [outlineAt?, hmatcher, htext, Except.toOption]
      have hfinds : workspace.findsAt path = false := by simp [findsAt, hmatcher, htext]
      rw [hnone, hfinds]
      rfl
  | ok text =>
      cases hread :
        Outline.ofText matcher workspace.registry workspace.settings.tags.showTag text with
      | error error =>
          have hnone : workspace.outlineAt? path = none := by
            simp [outlineAt?, hmatcher, htext, hread, Except.toOption]
          have hfinds : workspace.findsAt path = false := by
            simp [findsAt, hmatcher, htext, hread]
          rw [hnone, hfinds]
          exact stretch_endReading_of_error (workspace.readingBegun path) hread ..
      | ok read =>
          have hsome : workspace.outlineAt? path = some read.1 := by
            simp [outlineAt?, hmatcher, htext, hread, Except.toOption]
          have hfinds : workspace.findsAt path = read.2 := by
            simp [findsAt, hmatcher, htext, hread]
          rw [hsome, hfinds]
          exact stretch_endReading_of_outline hnames husable hread ..

/-- A replacement in which nothing else happens tells whether it met anything, and does so to the
cache. -/
theorem stretch_replace_finds (workspace : Workspace) (husable : path.isUnusable = false)
    (hmatcher : workspace.matcher.isSome) :
    (replace path).stretch (fun _ => false) workspace =
      (.finished (.ok (workspace.findsAt path)),
        { workspace with
          cache :=
            workspace.cache.replaced path (workspace.disk.real path)
              (workspace.outlineAt? path) }) := by
  obtain ⟨matcher, hmatcher⟩ := Option.isSome_iff_exists.mp hmatcher
  rw [← bind_done (replace path), stretch_replace_pause workspace husable hmatcher, bind_done]
  exact workspace.stretch_endReading_replaced husable hmatcher

/-- A replacement in which nothing else happens always ends. -/
theorem stretch_replace_alone (workspace : Workspace) (husable : path.isUnusable = false)
    (hmatcher : workspace.matcher.isSome) :
    ∃ found,
      (replace path).stretch (fun _ => false) workspace =
        (.finished (.ok found),
          { workspace with
            cache :=
              workspace.cache.replaced path (workspace.disk.real path)
                (workspace.outlineAt? path) }) :=
  ⟨_, workspace.stretch_replace_finds husable hmatcher⟩

/-! ## Opening -/

/-- When a document of which nothing is cached is replaced, it gets the outline of its text, or an
empty one if it has none. -/
theorem stretch_replace_uncached (workspace : Workspace) (husable : path.isUnusable = false)
    (hmatcher : workspace.matcher.isSome)
    (hnone : workspace.cache.lookup? (workspace.disk.real path) = none) :
    ∃ found cache,
      (replace path).stretch (fun _ => false) workspace =
        (.finished (.ok found), { workspace with cache := cache }) ∧
      cache.lookup? (workspace.disk.real path) =
        some ((workspace.outlineAt? path).getD .empty) := by
  obtain ⟨found, hreplace⟩ := workspace.stretch_replace_alone husable hmatcher
  refine ⟨found, _, hreplace, ?_⟩
  rw [(Cache.writes_replaced ..).lookup_file, hnone]
  rfl

/-- What is cached for a document at a usable path. -/
theorem lookup?_of_usable (husable : path.isUnusable = false) :
    workspace.lookup? path = .ok (workspace.cache.lookup? (workspace.disk.real path)) := by
  simp [lookup?, fileAt, husable, Except.map]

/-- Nothing can be asked for at an unusable path. -/
theorem lookup?_of_unusable (hpath : path.isUnusable = true) :
    workspace.lookup? path = .error .unusablePath := by
  simp [lookup?, fileAt, hpath, Except.map]

/-- A document that is opened is read only if nothing is cached for it. -/
theorem lookup?_stretch_openDocument (hloaded : workspace.isLoaded = true)
    (hmatcher : workspace.matcher.isSome) (path : Path) (text : String) :
    let opened := ((openDocument path text true).stretch (fun _ => false) workspace).2
    opened.buffers.find? path = some text ∧
      opened.lookup? path = (workspace.lookup? path).map fun known =>
        some (known.getD ((opened.outlineAt? path).getD .empty)) := by
  intro opened
  let buffered : Workspace := workspace.withBuffer path text
  let focused : Workspace := { buffered with active := some path }
  have hopen : focused.buffers.find? path = some text := by
    simp [focused, buffered, withBuffer]
  have hopened : opened = ((setActive (some path)).stretch (fun _ => false) buffered).2 := rfl
  rw [hopened]
  by_cases hpath : path.isUnusable = true
  · rw [stretch_setActive_of_unusable buffered hloaded hpath, lookup?_of_unusable hpath,
      lookup?_of_unusable hpath]
    exact ⟨hopen, rfl⟩
  · have husable : path.isUnusable = false := eq_false_of_ne_true hpath
    have hcached : buffered.isCached path =
        .ok (workspace.cache.lookup? (workspace.disk.real path)).isSome := by
      rw [isCached, lookup?_of_usable husable]
      rfl
    rw [stretch_setActive_some buffered hloaded hcached, lookup?_of_usable husable,
      lookup?_of_usable husable]
    cases hknown : workspace.cache.lookup? (workspace.disk.real path) with
    | some outline => exact ⟨hopen, congrArg Except.ok hknown⟩
    | none =>
        obtain ⟨found, cache, hreplace, hread⟩ :=
          stretch_replace_uncached focused husable hmatcher hknown
        rw [Option.isSome_none, if_neg Bool.false_ne_true, stretch_bind, hreplace]
        exact ⟨hopen, congrArg Except.ok hread⟩

/-! ## Closing -/

/-- What is left to do when a document is closed and has lost the focus. -/
def forget (path : Path) : Activity Unit := do
  if !(← Activity.workspace).retains path then remove path
  Activity.notify

/-- A document that is closed has no buffer any more, and it is dropped unless it is retained or the
focus is at a path that cannot be compared with its own. -/
theorem stretch_closeDocument (holds : Pause → Bool) (workspace : Workspace) (path : Path) :
    let erased : Workspace := { workspace with buffers := workspace.buffers.erase path }
    (∃ error, (closeDocument path).stretch holds workspace = (.finished (.error error), erased)) ∨
      ∃ focus, (closeDocument path).stretch holds workspace =
        (forget path).stretch holds { erased with active := focus } := by
  intro erased
  have hfocus (focus : Option Path) (hactive : workspace.active = focus) :
      erased = { erased with active := focus } := by
    rw [← hactive]
  simp only [closeDocument, bind_eq, stretch_change, stretch_workspace]
  cases hactive : workspace.active with
  | none =>
      exact .inr ⟨none, by rw [hfocus none hactive]; rfl⟩
  | some active =>
      cases hsame : erased.isSameFile active path with
      | error error =>
          refine .inl ⟨error, ?_⟩
          rw [hfocus (some active) hactive] at hsame ⊢
          exact stretch_ask_error holds _ hsame _
      | ok same =>
          rw [hfocus (some active) hactive] at hsame
          refine .inr ⟨if same then none else some active, ?_⟩
          refine (stretch_ask holds _ hsame _).trans ?_
          cases same <;> rfl

/-- What is left to do drops the outline of a document that is not retained, or nothing. -/
theorem lookup?_stretch_forget (holds : Pause → Bool) (workspace : Workspace) (path : Path) :
    let left := ((forget path).stretch holds workspace).2
    left.buffers = workspace.buffers ∧
      (left.lookup? path = workspace.lookup? path ∨
        workspace.retains path = false ∧ left.lookup? path = .ok none) := by
  simp only [forget, remove, bind_eq, stretch_workspace]
  cases hretains : workspace.retains path with
  | true => exact ⟨rfl, .inl rfl⟩
  | false =>
      simp only [Bool.not_false, if_true, Activity.bind_assoc]
      by_cases hpath : path.isUnusable = true
      · rw [stretch_fileAt_of_unusable hpath]
        exact ⟨rfl, .inl rfl⟩
      · have husable : path.isUnusable = false := eq_false_of_ne_true hpath
        have hnames : workspace.Names workspace.disk.real := fun _ _ => rfl
        rw [hnames.stretch husable, stretch_change, stretch_notify, lookup?_of_usable husable]
        refine ⟨rfl, .inr ⟨trivial, congrArg Except.ok ?_⟩⟩
        show Cache.lookup? (workspace.cache.remove path _) _ = none
        rw [Cache.lookup?, Cache.holder_remove, if_pos rfl]
        rfl

/-- A document that is closed keeps the outline that is cached for it, or it is not retained and
nothing is cached for it any more. -/
theorem lookup?_stretch_closeDocument (holds : Pause → Bool) (workspace : Workspace) (path : Path) :
    let closed := ((closeDocument path).stretch holds workspace).2
    closed.buffers.find? path = none ∧
      (closed.lookup? path = workspace.lookup? path ∨
        workspace.retains path = false ∧ closed.lookup? path = .ok none) := by
  have herased : (workspace.buffers.erase path).find? path = none := by simp
  rcases stretch_closeDocument holds workspace path with ⟨error, hclose⟩ | ⟨focus, hclose⟩
  · rw [hclose]
    exact ⟨herased, .inl rfl⟩
  · rw [hclose]
    obtain ⟨hbuffers, hlookup⟩ := lookup?_stretch_forget holds
      { workspace with buffers := workspace.buffers.erase path, active := focus } path
    exact ⟨(congrArg (·.find? path) hbuffers).trans herased, hlookup⟩

theorem isPrompt_closeDocument (path : Path) : (closeDocument path).IsPrompt := by
  have hremove : (remove path).IsPlain :=
    (isPlain_ask _).bind fun _ => isPlain_change _
  have hforget : (forget path).IsPlain := by
    refine isPlain_workspace.bind fun workspace => ?_
    split
    · exact hremove.bind fun _ => isPlain_notify
    · exact isPlain_notify
  refine ((isPlain_change _).bind fun _ => isPlain_workspace.bind fun workspace => ?_).isPrompt
  split
  · refine (isPlain_ask _).bind fun same => ?_
    split
    · exact (isPlain_change _).bind fun _ => hforget
    · exact hforget
  · exact hforget

end Workspace

namespace Session

/-- What is cached for a document after it is opened, and after it is closed. Opening gives it the
outline of its text, or an empty one if that cannot be read, unless something is cached for it
already, which stays. Closing leaves what is cached for it or drops it, and reads nothing, although
the text of the document is that of its file again. -/
theorem lookup?_after_opening_and_closing (session : Session)
    (hloaded : session.workspace.isLoaded = true) (hmatcher : session.workspace.matcher.isSome)
    (path : Path) :
    (∀ text,
      let opened := (run (Workspace.openDocument path text true) session).2.workspace
      opened.textAt path = .ok text.toList ∧
        opened.lookup? path = (session.workspace.lookup? path).map fun known =>
          some (known.getD ((opened.outlineAt? path).getD .empty))) ∧
    let closed := (run (Workspace.closeDocument path) session).2.workspace
    closed.textAt path = closed.disk.readText path ∧
      (closed.lookup? path = session.workspace.lookup? path ∨
        session.workspace.retains path = false ∧ closed.lookup? path = .ok none) := by
  constructor
  · intro text opened
    have hwork : opened = ((Workspace.openDocument path text true).stretch (fun _ => false)
        session.workspace).2 :=
      (run_eq_stretch (Workspace.isPrompt_openDocument path text true) session).workspace
    obtain ⟨hopen, hlookup⟩ :=
      Workspace.lookup?_stretch_openDocument hloaded hmatcher path text
    rw [← hwork] at hopen hlookup
    exact ⟨by rw [Workspace.textAt, hopen], hlookup⟩
  · intro closed
    have hwork : closed = ((Workspace.closeDocument path).stretch (fun _ => false)
        session.workspace).2 :=
      (run_eq_stretch (Workspace.isPrompt_closeDocument path) session).workspace
    obtain ⟨hclosed, hlookup⟩ :=
      Workspace.lookup?_stretch_closeDocument (fun _ => false) session.workspace path
    rw [← hwork] at hclosed hlookup
    exact ⟨by rw [Workspace.textAt, hclosed], hlookup⟩

/-- A loaded session that has been scanned, with the first document in a file. -/
def withFile : Session :=
  { loaded with
    workspace :=
      { loaded.workspace with
        isScanned := true
        disk :=
          { tree :=
              FileTree.empty.put ["a.py"]
                (.file [35, 32, 84, 79, 68, 79, 58, 32, 100, 105, 115, 107]) } } }

/-- A document that is not cached is read when it is opened, and what is cached for it stays when it
is closed and retained. -/
theorem lookup?_after_opening_and_closing_retained :
    let opened := (run (Workspace.openDocument firstDocument "# TODO: buffer" true) withFile).2
    let closed := (run (Workspace.closeDocument firstDocument) opened).2
    (opened.workspace.lookup? firstDocument =
        .ok (some ((opened.workspace.outlineAt? firstDocument).getD .empty))) ∧
      closed.workspace.lookup? firstDocument = opened.workspace.lookup? firstDocument := by
  intro opened closed
  have hnone : withFile.workspace.lookup? firstDocument = .ok none := by decide +kernel
  have hloaded : opened.workspace.isLoaded = true := by decide +kernel
  have hmatcher : opened.workspace.matcher.isSome := by decide +kernel
  have hretains : opened.workspace.retains firstDocument = true := by decide +kernel
  obtain ⟨hopening, -⟩ := lookup?_after_opening_and_closing withFile rfl rfl firstDocument
  obtain ⟨-, -, hclosing⟩ :=
    lookup?_after_opening_and_closing opened hloaded hmatcher firstDocument
  constructor
  · have hopened := (hopening "# TODO: buffer").2
    rw [hnone] at hopened
    exact hopened
  · rcases hclosing with hkept | ⟨hdropped, -⟩
    · exact hkept
    · rw [hretains] at hdropped
      contradiction

/-- A document is read from its file, and then opened with another text, edited, and closed. When it
is opened, the outline of its file stays, and when it is closed, that of its buffer. -/
theorem stale_after_opening_and_closing :
    let texts (outline : Outline) := outline.flatten.map (·.facts.text)
    let read := (run (Workspace.replace firstDocument) withFile).2
    let opened := (run (Workspace.openDocument firstDocument "# TODO: buffer" true) read).2
    let edited := ((run (Workspace.edit firstDocument "# TODO: edited") opened).2).flush
    let closed := (run (Workspace.closeDocument firstDocument) edited).2
    ((opened.workspace.outlineAt? firstDocument).map texts = some ["buffer"] ∧
        (opened.workspace.lookup? firstDocument).toOption.join.map texts = some ["disk"]) ∧
      (closed.workspace.outlineAt? firstDocument).map texts = some ["disk"] ∧
        (closed.workspace.lookup? firstDocument).toOption.join.map texts = some ["edited"] := by
  decide +kernel

end Session

end CommentIndex
