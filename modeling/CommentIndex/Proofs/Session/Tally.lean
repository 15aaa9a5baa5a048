import CommentIndex.Proofs.Cache.Listed
import CommentIndex.Proofs.Session.Batches
import CommentIndex.Proofs.Session.Replacing
import CommentIndex.Proofs.Session.Survey

/-!
# What a scan counts, and what it lists

A scan counts finds, path by path, and after it the files whose outlines have anchors are listed,
file by file. `run_scan_tallies` is about a scan in a session in which no document has the focus:
the files of a beginning of its list are read in turn, nothing else is, and no more files are listed
than are counted. A find that leaves no anchors, such as an end tag alone, is counted and not
listed, and a file that is read once more through a link is counted twice.
-/

namespace CommentIndex

open Activity

namespace Workspace

variable {path : Path} {before after : Workspace}

/-! ## One reading -/

/-- The files that a scan of a workspace reads, if they can be found. -/
def filesToScan (workspace : Workspace) : Except DiskError (List Path) :=
  workspace.disk.findFiles workspace.root workspace.settings.workspace.matchFiles
    workspace.settings.workspace.excludeFiles

/-- What a replacement of a document gives when nothing else happens. -/
def outcomeAt (workspace : Workspace) (path : Path) : Outcome Bool :=
  if path.isUnusable then .error .unusablePath else .ok (workspace.findsAt path)

/-- The outline that a replacement of a document puts in the place of what was cached for its file,
if it puts one there. With nothing to search for, that is an empty one. -/
def written? (workspace : Workspace) (path : Path) : Option Outline :=
  if path.isUnusable then none
  else if workspace.matcher.isSome then workspace.outlineAt? path
  else some .empty

/-- Whether a replacement of a document is a find. -/
def isFindAt (workspace : Workspace) (path : Path) : Bool :=
  Session.isFind (workspace.outcomeAt path)

/-- A document has no outline and nothing is found in it, or it has the outline of what is met in it
and something is found if anything is met. -/
theorem outlineAt?_cases (workspace : Workspace) (path : Path) :
    (workspace.outlineAt? path = none ∧ workspace.findsAt path = false) ∨
      ∃ events, workspace.outlineAt? path = some (Outline.ofEvents events) ∧
        workspace.findsAt path = !events.isEmpty := by
  unfold outlineAt? findsAt
  cases workspace.matcher with
  | none => exact .inl ⟨rfl, rfl⟩
  | some matcher =>
      cases workspace.textAt path with
      | error error => exact .inl ⟨rfl, rfl⟩
      | ok text =>
          cases hread :
            Outline.ofText matcher workspace.registry workspace.settings.tags.showTag text with
          | error error => exact .inl (by simp [hread, Except.toOption])
          | ok read =>
              obtain ⟨outline, found⟩ := read
              obtain ⟨events, -, rfl, rfl⟩ := Outline.ofText_eq_ok_iff.mp hread
              exact .inr ⟨events, by simp [hread, Except.toOption]⟩

/-- A find writes an outline, and an outline with anchors is a find. -/
theorem reveals (workspace : Workspace) :
    Traffic.Reveals workspace.written? workspace.isFindAt := by
  have hblank : (Outline.ofEvents []).hasAnchors = false := by
    simp [Outline.hasAnchors, Outline.ofEvents, Outline.Draft.start, Outline.Draft.finish]
  have hboth (path : Path) : (workspace.isFindAt path → (workspace.written? path).isSome) ∧
      ((workspace.written? path).any Outline.hasAnchors → workspace.isFindAt path) := by
    unfold isFindAt outcomeAt written?
    by_cases hpath : path.isUnusable = true
    · simp [hpath, Session.isFind]
    · by_cases hmatcher : workspace.matcher.isSome
      · rw [if_neg hpath, if_neg hpath, if_pos hmatcher]
        rcases workspace.outlineAt?_cases path with ⟨hnone, hfinds⟩ | ⟨events, hsome, hfinds⟩
        · simp [hnone, hfinds, Session.isFind]
        · rw [hsome, hfinds]
          cases events with
          | nil => simp [hblank]
          | cons first rest => simp [Session.isFind]
      · rw [if_neg hpath, if_neg hpath, if_neg hmatcher]
        exact ⟨fun _ => rfl, fun hanchors => absurd hanchors Bool.false_ne_true⟩
  exact ⟨fun path => (hboth path).1, fun path => (hboth path).2⟩

/-- A replacement in which nothing else happens writes its outline to the cache. -/
theorem stretch_replace_rewrites (workspace : Workspace)
    (hcoherent : Traffic.Coherent workspace.disk.real workspace.cache) (path : Path) :
    ∃ cache,
      (replace path).stretch (fun _ => false) workspace =
        (.finished (workspace.outcomeAt path), { workspace with cache := cache }) ∧
      Traffic.Rewrites workspace.disk.real path (workspace.written? path) workspace.cache
        cache := by
  by_cases hpath : path.isUnusable = true
  · refine ⟨workspace.cache, ?_, hcoherent, ?_⟩
    · rw [stretch_replace_of_unusable workspace hpath, outcomeAt, if_pos hpath]
    · rw [written?, if_pos hpath]
      rfl
  · have husable : path.isUnusable = false := eq_false_of_ne_true hpath
    rw [outcomeAt, written?, if_neg hpath, if_neg hpath]
    by_cases hmatcher : workspace.matcher.isSome
    · rw [if_pos hmatcher]
      exact ⟨_, workspace.stretch_replace_finds husable hmatcher,
        hcoherent.rewrites_replaced path _⟩
    · have hnone : workspace.matcher = none := Option.not_isSome_iff_eq_none.mp hmatcher
      have hnames : workspace.Names workspace.disk.real := fun _ _ => rfl
      have hfinds : workspace.findsAt path = false := by rw [findsAt, hnone]
      rw [if_neg hmatcher, hfinds]
      exact ⟨_, stretch_replace_of_none _ hnames husable hnone, hcoherent.rewrites_displace path⟩

/-! ## Nothing but readings -/

/-- Nothing but the cache and the time has changed. -/
def OnlyRead (before after : Workspace) : Prop :=
  after = { before with cache := after.cache, now := after.now, debouncer := after.debouncer }

theorem OnlyRead.trans {first second third : Workspace} (h : OnlyRead first second)
    (hnext : OnlyRead second third) : OnlyRead first third := by
  unfold OnlyRead at *
  rw [hnext, h]

theorem OnlyRead.active (h : OnlyRead before after) : after.active = before.active := by
  rw [h]

theorem OnlyRead.disk (h : OnlyRead before after) : after.disk = before.disk := by
  rw [h]

/-- Replacements give and write the same, whatever has been read. -/
theorem OnlyRead.outcomeAt (h : OnlyRead before after) : after.outcomeAt = before.outcomeAt := by
  rw [h]
  rfl

@[inherit_doc OnlyRead.outcomeAt]
theorem OnlyRead.written? (h : OnlyRead before after) : after.written? = before.written? := by
  rw [h]
  rfl

end Workspace

namespace Session

open Workspace

/-! ## Time without a focus -/

/-- Timers that expire read nothing without a focus. -/
theorem onlyRead_expire (session : Session) (hactive : session.workspace.active = none)
    (timer : Timer Nat) (others : Debouncer Nat) :
    let after := (session.expire timer others).workspace
    OnlyRead session.workspace after ∧ after.cache = session.workspace.cache := by
  unfold expire
  dsimp only
  split
  · let timed : Workspace := { session.workspace with now := timer.due, debouncer := others }
    have hidle (holds : Pause → Bool) :
        (refreshActive.bind fun _ => .done (none : Option Bool)).stretch holds timed =
          (.finished (.ok none), timed) := by
      have hnone : timed.active = none := hactive
      simp only [refreshActive, bind_eq, Activity.bind_assoc, stretch_workspace, hnone]
      rfl
    have hwork := (runTask_finished { session with workspace := timed } (hidle _) none).workspace
    exact ⟨hwork ▸ rfl, hwork ▸ rfl⟩
  · exact ⟨rfl, rfl⟩

/-- However many timers expire, they read nothing without a focus. -/
theorem onlyRead_expireTo (limit count : Nat) (session : Session)
    (hactive : session.workspace.active = none) :
    let after := (expireTo limit count session).workspace
    OnlyRead session.workspace after ∧ after.cache = session.workspace.cache := by
  induction count generalizing session with
  | zero => exact ⟨rfl, rfl⟩
  | succ count ih =>
      unfold expireTo
      split
      · next timer others _ =>
          obtain ⟨honly, hcache⟩ := session.onlyRead_expire hactive timer others
          obtain ⟨hrest, hrestCache⟩ := ih _ (honly.active.trans hactive)
          exact ⟨honly.trans hrest, hrestCache.trans hcache⟩
      · exact ⟨rfl, rfl⟩

/-- Nothing is read while time passes without a focus. -/
theorem onlyRead_advance (session : Session) (hactive : session.workspace.active = none)
    (milliseconds : Nat) :
    let after := (session.advance milliseconds).workspace
    OnlyRead session.workspace after ∧ after.cache = session.workspace.cache := by
  obtain ⟨honly, hcache⟩ := onlyRead_expireTo (session.workspace.now + milliseconds)
    session.workspace.debouncer.timers.length session hactive
  exact ⟨honly.trans rfl, hcache⟩

/-! ## Turns without a focus -/

/-- A turn of a document does at one stretch what a replacement of it does, whoever hears of a
find. -/
theorem turn_replace (total index found : Nat) (path : Path) (session : Session) :
    let result := (replace path).stretch (fun _ => false) (session.rested index).workspace
    result.1 = .finished (turn replace total index found path session).1 ∧
      (turn replace total index found path session).2.workspace = result.2 := by
  have hprompt := isPrompt_replace path
  refine ⟨stretch_eq_finished hprompt (session.rested index), Eq.trans ?_
    (run_eq_stretch hprompt (session.rested index)).workspace⟩
  show Session.workspace (if isFind (run (replace path) (session.rested index)).1 then _ else _) = _
  split
  · exact (sameWork_hear ..).workspace
  · rfl

/-- A turn in which nothing else happens gives what the document gives, and writes what it has. -/
theorem turn_replace_rewrites (total index found : Nat) (path : Path) (session : Session)
    (hactive : session.workspace.active = none)
    (hcoherent : Traffic.Coherent session.workspace.disk.real session.workspace.cache) :
    (turn replace total index found path session).1 = session.workspace.outcomeAt path ∧
      OnlyRead session.workspace (turn replace total index found path session).2.workspace ∧
      Traffic.Rewrites session.workspace.disk.real path (session.workspace.written? path)
        session.workspace.cache
        (turn replace total index found path session).2.workspace.cache := by
  obtain ⟨hrest, hcache⟩ : OnlyRead session.workspace (session.rested index).workspace ∧
      (session.rested index).workspace.cache = session.workspace.cache := by
    unfold rested
    split
    · exact session.onlyRead_advance hactive restLength
    · exact ⟨rfl, rfl⟩
  obtain ⟨houtcome, hwork⟩ := turn_replace total index found path session
  generalize session.rested index = waited at *
  rw [← hcache, ← hrest.disk] at hcoherent
  obtain ⟨cache, hstretch, hrewrites⟩ := waited.workspace.stretch_replace_rewrites hcoherent path
  rw [hstretch] at houtcome hwork
  rw [hrest.outcomeAt] at houtcome
  rw [hrest.disk, hrest.written?, hcache] at hrewrites
  rw [hwork]
  exact ⟨(Progress.finished.inj houtcome).symm, hrest.trans rfl, hrewrites⟩

/-- What the turns of some documents give and write, when nothing else happens. -/
structure ReadsAll (before : Workspace) (paths : List Path) (outcomes : List (Outcome Bool))
    (after : Workspace) : Prop where
  outcomes : outcomes = paths.map before.outcomeAt
  onlyRead : OnlyRead before after
  rewrites : Traffic.RewritesAll before.disk.real before.written? paths before.cache after.cache

/-- In turns in which nothing else happens, the documents are read one after another. -/
theorem turns_replace_readsAll (total index found : Nat) (paths : List Path) (session : Session)
    (hactive : session.workspace.active = none)
    (hcoherent : Traffic.Coherent session.workspace.disk.real session.workspace.cache) :
    ReadsAll session.workspace paths (turns replace total index found paths session).1
      (turns replace total index found paths session).2.workspace := by
  induction paths generalizing index found session with
  | nil => exact ⟨rfl, rfl, .nil _⟩
  | cons path rest ih =>
      obtain ⟨houtcome, honly, hrewrites⟩ :=
        turn_replace_rewrites total index found path session hactive hcoherent
      rw [turns]
      generalize turn replace total index found path session = result at *
      obtain ⟨outcome, next⟩ := result
      dsimp only at houtcome honly hrewrites ⊢
      have hothers := ih (index + 1) (found + (isFind outcome).toNat) next
        (honly.active.trans hactive) (honly.disk ▸ hrewrites.coherent)
      have hrest := hothers.rewrites
      rw [honly.disk, honly.written?] at hrest
      refine ⟨?_, honly.trans hothers.onlyRead, .cons hrewrites hrest⟩
      rw [List.map_cons, hothers.outcomes, houtcome, honly.outcomeAt]

/-! ## Scans without a focus -/

/-- The session in which a scan reads the files. -/
def underScan (session : Session) : Session :=
  { session with workspace := session.workspace.underScan }.hear .changed

/-- Those who hear that a scan has begun leave the workspace as it is. -/
theorem workspace_underScan (session : Session) :
    session.underScan.workspace = session.workspace.underScan :=
  (sameWork_hear ..).workspace

/-- The session with nothing in its cache. -/
def cleared (session : Session) : Session :=
  { session with workspace := { session.workspace with cache := session.workspace.cache.clear } }

/-- A scan reads the files, and closes with whatever comes of that. -/
theorem run_scan (session : Session) :
    run Workspace.scan session =
      let (read, after) := run (scanFiles session.workspace.settings.workspace) session.underScan
      run (closeScan read) after := by
  have hsteps : run Workspace.scan session =
      run ((scanFiles session.workspace.settings.workspace).attempt.bind fun read => closeScan read)
        session.underScan := by
    refine congrArg (fun next => run ((scanFiles session.workspace.settings.workspace).attempt.bind
      next) _) ?_
    funext read
    cases read <;> rfl
  rw [hsteps, run_bind, run_attempt]

/-- Listing the files of a workspace changes nothing. -/
theorem run_findFiles (wanted excluded : String) (session : Session) :
    run (findFiles wanted excluded) session =
      ((session.workspace.disk.findFiles session.workspace.root wanted excluded).mapError .disk,
        session) := by
  simp only [findFiles, bind_eq, run_bind, Activity.workspace, Activity.wait, run]
  cases session.workspace.disk.findFiles session.workspace.root wanted excluded <;> rfl

/-- Without a focus no document is read in the end. -/
theorem run_replaceActive (session : Session) (hactive : session.workspace.active = none) :
    run replaceActive session = (.ok (), session) := by
  simp only [replaceActive, bind_eq, run_bind, Activity.workspace, run, hactive]
  rfl

/-- A scan without a focus finishes with what it has counted. -/
theorem run_finishScan (count : Nat) (session : Session)
    (hactive : session.workspace.active = none) :
    run (finishScan count) session =
      (.ok count,
        { session with
          workspace := { session.workspace with isScanning := false }.load }.hear .changed) := by
  let scanned : Session :=
    { session with workspace := { session.workspace with isScanning := false } }
  show run (replaceActive.bind _) scanned = _
  rw [run_bind, run_replaceActive scanned hactive]
  rfl

/-- A scan without a focus closes without a reading, with what it has counted, or with 0 if nothing
could be. -/
theorem run_closeScan (read : Except WorkspaceError Nat) (session : Session)
    (hactive : session.workspace.active = none) :
    (run (closeScan read) session).1 = .ok (read.toOption.getD 0) ∧
      (run (closeScan read) session).2.workspace.cache = session.workspace.cache := by
  have hfinish (count : Nat) (session : Session) (hactive : session.workspace.active = none) :
      (run (finishScan count) session).1 = .ok count ∧
        (run (finishScan count) session).2.workspace.cache = session.workspace.cache := by
    rw [run_finishScan count session hactive]
    refine ⟨rfl, ?_⟩
    dsimp only
    rw [(sameWork_hear ..).workspace]
    rfl
  cases read with
  | ok count => exact hfinish count session hactive
  | error error => exact hfinish 0 _ hactive

/-- The files of a workspace are found before its cache is cleared, and then they are read. -/
theorem run_scanFiles (session : Session) :
    run (scanFiles session.workspace.settings.workspace) session.underScan =
      match session.workspace.filesToScan with
      | .ok files =>
        run (readFiles files session.workspace.settings.workspace.maxFiles)
          session.underScan.cleared
      | .error error => (.error (.disk error), session.underScan) := by
  have hfiles : session.workspace.underScan.disk.findFiles session.workspace.underScan.root
      session.workspace.settings.workspace.matchFiles
      session.workspace.settings.workspace.excludeFiles = session.workspace.filesToScan := rfl
  rw [scanFiles, bind_eq, run_bind, run_findFiles, workspace_underScan, hfiles]
  cases session.workspace.filesToScan <;> rfl

/-- What is read from a list of files, and what is listed after it. The files of the shortest
beginning with as many finds as are wanted are read, the finds are counted, and no more files are
listed than are counted. There are as many if and only if each find has left anchors in its file,
and no later reading has written to it. -/
structure Lists (before : Workspace) (files : List Path) (count : Nat) (after : Workspace)
    (behind left : List Path) : Prop where
  files : behind ++ left = files
  shortest : IsShortest before.settings.workspace.maxFiles (behind.map before.outcomeAt) left
  counted : count = behind.countP before.isFindAt
  listed_le : after.cache.listed ≤ count
  listed_eq : count = after.cache.listed ↔
    Traffic.FindsLast before.disk.real before.written? before.isFindAt behind

/-- Files that are read into a cleared cache, while nothing else happens. -/
theorem run_readFiles_lists (files : List Path) (session : Session)
    (hactive : session.workspace.active = none)
    (hcleared : session.workspace.cache = session.workspace.cache.clear) :
    ∃ behind left count after,
      run (readFiles files session.workspace.settings.workspace.maxFiles) session =
        (.ok count, after) ∧
      after.workspace.active = none ∧
      Lists session.workspace files count after.workspace behind left := by
  have hcoherent : Traffic.Coherent session.workspace.disk.real session.workspace.cache := by
    rw [hcleared]
    exact Traffic.coherent_iff.mpr ⟨Traffic.sound_empty _ _, Traffic.held_empty _ _⟩
  obtain ⟨behind, left, hfiles, hrun, hshortest⟩ := run_readFilesFrom replace files.length
    session.workspace.settings.workspace.maxFiles 0 0 files session
  have hreads := turns_replace_readsAll files.length 0 0 behind session hactive hcoherent
  generalize turns replace files.length 0 0 behind session = result at hrun hshortest hreads
  obtain ⟨outcomes, after⟩ := result
  dsimp only at hrun hshortest hreads
  obtain rfl := hreads.outcomes
  rw [List.countP_map, Nat.zero_add] at hrun
  rw [Int.natCast_zero, Int.sub_zero] at hshortest
  obtain ⟨hle, heq⟩ := hreads.rewrites.listed_le hcoherent session.workspace.reveals
  have hnone : session.workspace.cache.listed = 0 := by
    rw [hcleared]
    rfl
  have hspares : Traffic.Spares session.workspace.disk.real session.workspace.written? behind
      session.workspace.cache := by
    rw [hcleared]
    exact fun _ _ _ => rfl
  rw [hnone, Nat.zero_add] at hle heq
  rw [and_iff_left hspares] at heq
  exact ⟨behind, left, _, after, hrun, hreads.onlyRead.active.trans hactive, hfiles, hshortest, rfl,
    hle, eq_comm.trans heq⟩

/-- A link to a file that has been read is one more find, and no other file is listed for it. -/
example :
    let (outcome, after) := run (readFiles [firstDocument, secondDocument] 2) withLink
    outcome = .ok 2 ∧ after.workspace.cache.listed = 1 := by
  decide +kernel

/-- No more finds are counted than are wanted. -/
theorem Lists.count_le {before after : Workspace} {files behind left : List Path} {count : Nat}
    (h : Lists before files count after behind left)
    (hmost : 0 ≤ before.settings.workspace.maxFiles) :
    (count : Int) ≤ before.settings.workspace.maxFiles := by
  have hle := h.shortest.countP_le
  rw [List.countP_map] at hle
  rw [h.counted]
  exact hle.trans_eq (max_eq_left hmost)

/-- What a scan counts, and what is listed after it. If the files cannot be found, nothing is
counted and what was cached stays. -/
structure Tallies (before : Workspace) (count : Nat) (after : Workspace) : Prop where
  atMost : 0 ≤ before.settings.workspace.maxFiles →
    (count : Int) ≤ before.settings.workspace.maxFiles
  unlisted : ∀ error, before.filesToScan = .error error → count = 0 ∧ after.cache = before.cache
  listed : ∀ files, before.filesToScan = .ok files →
    ∃ behind left, Lists before files count after behind left

/-- A scan without a focus counts finds, and the files that are listed after it if the finds last.
-/
theorem run_scan_tallies (session : Session) (hactive : session.workspace.active = none) :
    ∃ count after, run Workspace.scan session = (.ok count, after) ∧
      Tallies session.workspace count after.workspace := by
  have hbegun := session.workspace_underScan
  have hnone : session.underScan.workspace.active = none :=
    (congrArg Workspace.active hbegun).trans hactive
  have hread := run_scanFiles session
  cases hfiles : session.workspace.filesToScan with
  | error error =>
      rw [hfiles] at hread
      rw [run_scan, hread]
      obtain ⟨hcount, hcache⟩ := run_closeScan (.error (.disk error)) session.underScan hnone
      rw [hbegun] at hcache
      refine ⟨0, _, Prod.ext hcount rfl, id, fun _ _ => ⟨rfl, hcache⟩, fun files hfound => ?_⟩
      rw [hfiles] at hfound
      contradiction
  | ok files =>
      rw [hfiles] at hread
      obtain ⟨behind, left, count, after, hrun, hlast, hlists⟩ :=
        run_readFiles_lists files session.underScan.cleared hnone rfl
      have hcleared : session.underScan.cleared.workspace =
          { session.workspace.underScan with cache := session.workspace.cache.clear } := by
        rw [cleared, hbegun]
        rfl
      rw [hcleared] at hrun hlists
      rw [run_scan, hread.trans hrun]
      obtain ⟨hcount, hcache⟩ := run_closeScan (.ok count) after hlast
      have hsame : Lists session.workspace files count
          (run (closeScan (.ok count)) after).2.workspace behind left := by
        refine ⟨hlists.files, hlists.shortest, hlists.counted, ?_, ?_⟩
        · rw [hcache]
          exact hlists.listed_le
        · rw [hcache]
          exact hlists.listed_eq
      refine ⟨count, _, Prod.ext hcount rfl, hsame.count_le, ?_, ?_⟩
      · intro error hfound
        rw [hfiles] at hfound
        contradiction
      · intro found hfound
        obtain rfl := Except.ok.inj (hfiles.symm.trans hfound)
        exact ⟨behind, left, hsame⟩

end Session

end CommentIndex
