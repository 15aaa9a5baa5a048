import CommentIndex.CommandLine
import CommentIndex.Proofs.Session.Tally

/-!
# What is told of a scan

The command that lists the anchors of all files scans a workspace that has just been opened, in
which no document has the focus, and tells how many files with anchors the scan has counted. Its
document has the files that are listed. By `scan_tallies` the two numbers are those of
`Session.Tallies`, which says when they are the same.
-/

namespace CommentIndex

namespace Execution

variable {α β : Type}

/-- One thing after another is done where the first one ends. -/
theorem run_bind (first : Execution α) (second : α → Execution β) (console : Console) :
    (first >>= second).run console =
      match first.run console with
      | (.ok result, after) => (second result).run after
      | (.error ending, after) => (.error ending, after) := by
  show (ExceptT.bindCont second) (first.run console).1 (first.run console).2 = _
  generalize first.run console = result
  obtain ⟨outcome, after⟩ := result
  cases outcome <;> rfl

/-- The console once reports have been printed on it. -/
def told (reports : List Report) (console : Console) : Console :=
  { console with
    messages := console.messages ++
      String.join ((reports.reverse.map reportLine).map (· ++ "\n")) }

/-- An activity that is performed is run in a session of its own. -/
theorem run_perform (workspace : Workspace) (activity : Activity α) (console : Console) :
    (perform workspace activity).run console =
      match Session.run activity { workspace := workspace } with
      | (.ok result, after) => (.ok (result, after.workspace), told after.reports console)
      | (.error error, after) =>
        (.error (.crash (.workspace error)), told after.reports console) := by
  simp only [perform]
  generalize Session.run activity { workspace := workspace } = result
  obtain ⟨outcome, after⟩ := result
  cases outcome <;> rfl

/-! ## Workspaces that have just been opened -/

/-- Whatever an execution gives is of some kind. -/
def Yields (execution : Execution α) (holds : α → Prop) : Prop :=
  ∀ console result after, execution.run console = (.ok result, after) → holds result

/-- One execution after another gives what the second one gives. -/
theorem Yields.bind {first : Execution α} {second : α → Execution β} {between : α → Prop}
    {holds : β → Prop} (hfirst : Yields first between)
    (hsecond : ∀ middle, between middle → Yields (second middle) holds) :
    Yields (first >>= second) holds := by
  intro console result after h
  rw [run_bind] at h
  cases hrun : first.run console with
  | mk outcome next =>
      rw [hrun] at h
      cases outcome with
      | error ending => cases h
      | ok middle => exact hsecond middle (hfirst console middle next hrun) next result after h

theorem yields_any (execution : Execution α) : Yields execution fun _ => True :=
  fun _ _ _ _ => trivial

theorem yields_crash (error : CommandError) (holds : α → Prop) : Yields (crash error) holds :=
  fun _ _ _ h => by cases h

theorem yields_refuse (options : RequestOptions) (message : String) (holds : α → Prop) :
    Yields (refuse options message) holds :=
  (yields_any _).bind fun _ _ _ _ _ h => by cases h

/-- Building leaves the focus as it is. -/
theorem active_run_build (session : Session) :
    (Session.run Workspace.build session).2.workspace.active = session.workspace.active := by
  unfold Workspace.build
  simp only [Activity.bind_eq, Session.run_bind, Activity.workspace, Session.run]
  cases Matcher.compile (.ofSettings session.workspace.settings.tags.listed
    session.workspace.settings.tags.keyed) session.workspace.settings.tags.separators
    session.workspace.settings.tags.marks session.workspace.settings.tags.endTag
    session.workspace.settings.tags.matchCase with
  | error error => rfl
  | ok matcher => cases Workspace.delayOf session.workspace.settings <;> rfl

/-- No document has the focus in a workspace that has been started and built. -/
theorem yields_built (root : Path) (settings : Settings) (disk : Disk) :
    Yields (ofExcept (Workspace.start root settings disk) >>= fun workspace =>
      perform workspace Workspace.build) fun built => built.2.active = none := by
  have hstart : Yields (ofExcept (Workspace.start root settings disk))
      fun workspace => workspace.active = none := by
    intro console workspace after h
    unfold Workspace.start at h
    cases hdelay : Workspace.delayOf settings with
    | error error =>
        rw [hdelay] at h
        cases h
    | ok delay =>
        rw [hdelay] at h
        cases h
        rfl
  refine hstart.bind fun workspace hactive console built after h => ?_
  rw [run_perform] at h
  have hkept := active_run_build { workspace := workspace }
  generalize Session.run Workspace.build { workspace := workspace } = result at h hkept
  obtain ⟨outcome, later⟩ := result
  cases outcome with
  | error error => cases h
  | ok isBuilt =>
      cases h
      exact hkept.trans hactive

/-- No document has the focus in a workspace that has just been opened. -/
theorem yields_openWorkspace (options : RequestOptions) :
    Yields (openWorkspace options) fun workspace => workspace.active = none := by
  unfold openWorkspace
  refine (yields_any _).bind fun root _ => (yields_any _).bind fun item _ => ?_
  dsimp only
  split
  · exact (yields_refuse options _ fun _ => False).bind fun _ h => h.elim
  · refine (yields_any _).bind fun console _ => ?_
    split
    · exact yields_crash _ _
    · rw [← bind_assoc]
      refine (yields_built _ _ _).bind fun built hactive => ?_
      split
      · intro _ _ _ h
        cases h
        exact hactive
      · exact yields_refuse options _ _

end Execution

namespace CommandLine

open Execution

/-! ## Scans of a command -/

/-- A workspace with settings that want it to be scanned. -/
def wanting (workspace : Workspace) : Workspace :=
  let settings := workspace.settings
  { workspace with
    settings := { settings with workspace := { settings.workspace with enabled := true } } }

/-- What is printed of a scan. -/
def scanReport (asJson : Bool) (count : Nat) (workspace : Workspace) : String :=
  if asJson then
    (Json.object [("files", filesDocument workspace), ("count", .int count)]).pretty ++ "\n"
  else
    String.join ((Entry.forestLines 0 (View.ofWorkspace workspace)).map (· ++ "\n")) ++
      (Nat.repr count ++ " " ++ (if count = 1 then "file" else "files") ++ " with anchors" ++ "\n")

/-- The document of a scan has the files that are listed. -/
theorem filesDocument_listed (workspace : Workspace) :
    ∃ members, filesDocument workspace = .object members ∧
      members.length = workspace.cache.listed := by
  refine ⟨_, rfl, ?_⟩
  rw [List.length_map, ← List.countP_eq_length_filter]
  exact (List.mergeSort_perm ..).countP_eq _

/-- A command scans in a session of its own, and prints nothing as its result meanwhile. -/
theorem run_scanAll (workspace : Workspace) (console : Console) {count : Nat} {after : Session}
    (hscan : Session.run Workspace.scan { workspace := wanting workspace } = (.ok count, after)) :
    (scanAll workspace).run console =
      (.ok (count, after.workspace), told after.reports console) := by
  refine (run_perform (wanting workspace) Workspace.scan console).trans ?_
  rw [hscan]

/-- A command that has opened its workspace prints the report of a scan. -/
theorem run_scanFolder {options : RequestOptions} {console opened : Console}
    {workspace : Workspace} (hopen : (openWorkspace options).run console = (.ok workspace, opened))
    {count : Nat} {after : Session}
    (hscan : Session.run Workspace.scan { workspace := wanting workspace } = (.ok count, after)) :
    ∃ printed, (scanFolder options).run console = (.ok 0, printed) ∧
      printed.output = opened.output ++ scanReport options.asJson count after.workspace := by
  unfold scanFolder
  rw [run_bind, hopen]
  dsimp only
  rw [run_bind, run_scanAll workspace opened hscan]
  dsimp only [scanReport]
  cases options.asJson with
  | true => exact ⟨_, rfl, rfl⟩
  | false => exact ⟨_, rfl, String.append_assoc ..⟩

/-- What a scan counts and lists, in a session without a focus and in the command. The command ends
as the opening of its workspace does if that fails. Else it succeeds, prints what the scan counts,
and its document has as many files as the scan lists. -/
theorem scan_tallies (session : Session) (hactive : session.workspace.active = none)
    (options : RequestOptions) (console : Console) :
    (∃ count after, Session.run Workspace.scan session = (.ok count, after) ∧
      Session.Tallies session.workspace count after.workspace) ∧
    match (openWorkspace options).run console with
    | (.error ending, after) => (scanFolder options).run console = (.error ending, after)
    | (.ok workspace, opened) =>
      ∃ count after printed members,
        Session.run Workspace.scan { workspace := wanting workspace } = (.ok count, after) ∧
        Session.Tallies (wanting workspace) count after.workspace ∧
        (scanFolder options).run console = (.ok 0, printed) ∧
        printed.output = opened.output ++ scanReport options.asJson count after.workspace ∧
        filesDocument after.workspace = .object members ∧
        members.length = after.workspace.cache.listed := by
  refine ⟨Session.run_scan_tallies session hactive, ?_⟩
  split
  · next ending after hopen => rw [scanFolder, run_bind, hopen]
  · next workspace opened hopen =>
      have hnone := yields_openWorkspace options console workspace opened hopen
      obtain ⟨count, after, hscan, htallies⟩ :=
        Session.run_scan_tallies { workspace := wanting workspace } hnone
      obtain ⟨printed, hrun, houtput⟩ := run_scanFolder hopen hscan
      obtain ⟨members, hmembers, hlength⟩ := filesDocument_listed after.workspace
      exact ⟨count, after, printed, members, hscan, htallies, hrun, houtput, hmembers, hlength⟩

/-- A scan of one file with an anchor. -/
theorem scan_tallies_of_one_file :
    ∃ after, Session.run Workspace.scan Session.withFile = (.ok 1, after) ∧
      after.workspace.cache.listed = 1 := by
  obtain ⟨⟨count, after, hrun, htallies⟩, -⟩ :=
    scan_tallies Session.withFile rfl {} { disk := Session.withFile.workspace.disk }
  have hcount : (Session.run Workspace.scan Session.withFile).1 = .ok 1 := by decide +kernel
  rw [hrun] at hcount
  obtain rfl : count = 1 := Except.ok.inj hcount
  have hfiles : Session.withFile.workspace.filesToScan = .ok [Session.firstDocument] := by
    decide +kernel
  obtain ⟨behind, left, hlists⟩ := htallies.listed _ hfiles
  -- A find has been counted, so the only file has been read.
  have hbehind : behind = [Session.firstDocument] := by
    cases behind with
    | nil => exact absurd hlists.counted one_ne_zero
    | cons path rest =>
        obtain ⟨rfl, hrest⟩ := List.cons.inj hlists.files
        rw [(List.append_eq_nil_iff.mp hrest).1]
  subst hbehind
  refine ⟨after, hrun, (hlists.listed_eq.mpr ?_).symm⟩
  unfold Traffic.FindsLast
  decide +kernel

/-- A session with a file in which there is an end tag alone. -/
def withEndTag : Session :=
  { Session.withFile with
    workspace :=
      { Session.withFile.workspace with
        registry := .ofTags [{ name := "SECTION", behavior := .region }]
        matcher :=
          some { Session.oneTag with tokens := ["!SECTION".toList, "SECTION".toList] }
        disk :=
          { tree :=
              FileTree.empty.put ["a.py"]
                (.file [35, 32, 33, 83, 69, 67, 84, 73, 79, 78]) } } }

/-- A file with an end tag alone is counted as one with anchors, and it is not listed. -/
theorem end_tag_counted_and_not_listed :
    withEndTag.workspace.active = none ∧
      withEndTag.workspace.disk.readText Session.firstDocument = .ok "# !SECTION".toList ∧
      (Session.run Workspace.scan withEndTag).1 = .ok 1 ∧
      (Session.run Workspace.scan withEndTag).2.workspace.cache.outlines.entries =
        [(Session.firstDocument, .empty)] ∧
      (Session.run Workspace.scan withEndTag).2.workspace.cache.listed = 0 := by
  decide +kernel

end CommandLine

end CommentIndex
