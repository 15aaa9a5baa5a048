import CommentIndex.Proofs.Session.Sources
import CommentIndex.Proofs.Session.Survey
import CommentIndex.Proofs.Session.Upheld

/-!
# What is upheld with the cache

All that is done to a workspace while nothing is built is done to its cache: a file is replaced or
refreshed, a path is removed, the cache is cleared. `Upkeep` says that these uphold what is known,
and that it depends on nothing else but what is read. Then documents that get the focus
or are closed uphold it, and so do scans.
-/

namespace CommentIndex

open Activity

/-- Two workspaces at one place in which readings that begin find the same. -/
structure Workspace.SameSources (workspace after : Workspace) : Prop where
  root : after.root = workspace.root
  disk : after.disk = workspace.disk
  buffers : after.buffers = workspace.buffers
  settings : after.settings = workspace.settings
  matcher : after.matcher = workspace.matcher
  registry : after.registry = workspace.registry

/-- The texts of documents depend on the buffers and the files. -/
theorem Workspace.textAt_congr {workspace after : Workspace}
    (hbuffers : after.buffers = workspace.buffers) (hdisk : after.disk = workspace.disk) :
    after.textAt = workspace.textAt := by
  funext path
  unfold textAt
  rw [hbuffers, hdisk]

variable {σ : Type} [Preorder σ] [Setoid σ]

/-- The text of a document is taken. -/
theorem Workspace.upholds_readText {α : Type} {knows : σ → Workspace → Prop} {stage : σ}
    {workspace : Workspace} (h : knows stage workspace) (path : Path)
    {next : Except FileError (List Char) → Activity α} {paused : σ} (hpaused : stage ≤ paused)
    (hsame : stage ≈ paused) (hknows : knows paused workspace)
    (hnext : (next (workspace.textAt path)).UpholdsFrom knows paused) :
    ((Workspace.readText path).bind next).Upholds knows stage workspace := by
  unfold textAt at hnext
  simp only [readText, bind_eq, Activity.bind_assoc, upholds_workspace]
  split
  · next text hopen =>
      rw [hopen] at hnext
      exact ⟨paused, hpaused, hsame, hknows, hnext⟩
  · next hclosed =>
      rw [hclosed] at hnext
      split
      · exact h
      · exact ⟨paused, hpaused, hsame, hknows, hnext⟩

/-- What is known is upheld by whatever is done to the cache, and it depends on that and on what
readings find. -/
structure Upkeep (knows : σ → Workspace → Prop) : Prop where
  congr : ∀ {stage workspace after}, knows stage workspace → workspace.SameSources after →
    after.cache = workspace.cache → knows stage after
  replace : ∀ {stage workspace}, knows stage workspace → ∀ path,
    (Workspace.replace path).Upholds knows stage workspace
  refresh : ∀ {stage workspace}, knows stage workspace → ∀ path,
    (Workspace.refresh path).Upholds knows stage workspace
  remove : ∀ {stage workspace}, knows stage workspace → ∀ path,
    (Workspace.remove path).Upholds knows stage workspace
  clear : ∀ {stage workspace}, knows stage workspace →
    Workspace.clear.Upholds knows stage workspace

namespace Upkeep

variable {knows : σ → Workspace → Prop} {stage : σ} {workspace : Workspace}

/-! ## Documents -/

/-- The focus moves. -/
theorem setActive (hkeep : Upkeep knows) (h : knows stage workspace) (focus : Option Path) :
    (Workspace.setActive focus).Upholds knows stage workspace := by
  simp only [Workspace.setActive, bind_eq, upholds_workspace, upholds_change]
  have hfocused : knows stage { workspace with active := focus } :=
    hkeep.congr h ⟨rfl, rfl, rfl, rfl, rfl, rfl⟩ rfl
  split
  · split
    · next path =>
        refine upholds_ask hfocused fun known _ => ?_
        split
        · exact (hkeep.replace hfocused path).bind fun _ => upholdsFrom_notify
        · exact hfocused
    · exact hfocused
  · exact hfocused

/-- The active document is read again. -/
theorem refreshActive (hkeep : Upkeep knows) (h : knows stage workspace) :
    Workspace.refreshActive.Upholds knows stage workspace := by
  simp only [Workspace.refreshActive, bind_eq, upholds_workspace]
  split
  · next path _ => exact (hkeep.refresh h path).bind fun _ => upholdsFrom_done _
  · exact h

/-- A document is closed that has no buffer any more. -/
theorem forget (hkeep : Upkeep knows) (h : knows stage workspace) (path : Path) :
    (Workspace.forget path).Upholds knows stage workspace := by
  simp only [Workspace.forget, bind_eq, upholds_workspace]
  split
  · exact (hkeep.remove h path).bind fun _ => upholdsFrom_notify
  · exact h

/-- A document is closed; its buffer is erased first of all. -/
theorem closeDocument (hkeep : Upkeep knows) (path : Path)
    (h : knows stage { workspace with buffers := workspace.buffers.erase path }) :
    (Workspace.closeDocument path).Upholds knows stage workspace := by
  simp only [Workspace.closeDocument, bind_eq, upholds_workspace, upholds_change]
  split
  · next active _ =>
      refine upholds_ask h fun same _ => ?_
      split
      · have hunfocused : knows stage
            { workspace with buffers := workspace.buffers.erase path, active := none } :=
          hkeep.congr h ⟨rfl, rfl, rfl, rfl, rfl, rfl⟩ rfl
        exact hkeep.forget hunfocused path
      · exact hkeep.forget h path
  · exact hkeep.forget h path

/-! ## Scans -/

/-- One file is read after the other. -/
theorem readFilesFrom (hkeep : Upkeep knows) (h : knows stage workspace) (most : Int)
    (total index found : Nat) (paths : List Path) :
    (Workspace.readFilesFrom Workspace.replace most total index found paths).Upholds knows
      stage workspace := by
  induction paths generalizing workspace stage index found with
  | nil => exact h
  | cons path rest ih =>
      unfold Workspace.readFilesFrom
      split
      · exact h
      · split
        · refine ⟨stage, le_rfl, Setoid.refl _, h, fun later after _ hknown => ?_⟩
          refine (hkeep.replace hknown path).attempt.bind fun outcome last final _ hlast => ?_
          split
          · exact ih hlast (index + 1) (found + 1)
          · exact ih hlast (index + 1) found
        · refine (hkeep.replace h path).attempt.bind fun outcome later after _ hknown => ?_
          split
          · exact ih hknown (index + 1) (found + 1)
          · exact ih hknown (index + 1) found

/-- The files of a scan are found, and read into an empty cache. -/
theorem scanFiles (hkeep : Upkeep knows) (h : knows stage workspace)
    (settings : WorkspaceSettings) :
    (Workspace.scanFiles settings).Upholds knows stage workspace := by
  have hfind : (Workspace.findFiles settings.matchFiles settings.excludeFiles).Upholds
      knows stage workspace := by
    refine ⟨stage, le_rfl, Setoid.refl _, h, fun later after _ hknown => ?_⟩
    cases workspace.disk.findFiles workspace.root settings.matchFiles settings.excludeFiles with
    | ok files => exact hknown
    | error error => exact hknown
  refine hfind.bind fun files later after _ hknown => (hkeep.clear hknown).bind fun _ => ?_
  exact fun last done _ hlast => hkeep.readFilesFrom hlast _ _ _ _ _

/-- The active document is replaced. -/
theorem replaceActive (hkeep : Upkeep knows) (h : knows stage workspace) :
    Workspace.replaceActive.Upholds knows stage workspace := by
  simp only [Workspace.replaceActive, bind_eq, upholds_workspace]
  split
  · next path _ => exact (hkeep.replace h path).bind fun _ => upholdsFrom_done _
  · exact h

/-- A scan closes with the active document. -/
theorem closeScan (hkeep : Upkeep knows) (h : knows stage workspace)
    (read : Except WorkspaceError Nat) :
    (Workspace.closeScan read).Upholds knows stage workspace := by
  have hfinish (count : Nat) : (Workspace.finishScan count).Upholds knows stage workspace := by
    simp only [Workspace.finishScan, bind_eq, upholds_change]
    have hscanned : knows stage { workspace with isScanning := false } :=
      hkeep.congr h ⟨rfl, rfl, rfl, rfl, rfl, rfl⟩ rfl
    refine (hkeep.replaceActive hscanned).bind fun _ later after _ hknown => ?_
    exact hkeep.congr hknown ⟨rfl, rfl, rfl, rfl, rfl, rfl⟩ rfl
  cases read with
  | ok count => exact hfinish count
  | error error => exact hfinish 0

/-- A workspace is scanned. -/
theorem scan (hkeep : Upkeep knows) (h : knows stage workspace) :
    Workspace.scan.Upholds knows stage workspace := by
  have hscanned : knows stage workspace.underScan :=
    hkeep.congr h ⟨rfl, rfl, rfl, rfl, rfl, rfl⟩ rfl
  have hclose (read : Except WorkspaceError Nat) :
      (Workspace.closeScan read).UpholdsFrom knows stage :=
    fun later after _ hknown => hkeep.closeScan hknown read
  refine (hkeep.scanFiles hscanned workspace.settings.workspace).attempt.bind fun read => ?_
  cases read with
  | ok count => exact hclose (.ok count)
  | error error => exact hclose (.error error)

/-- Something to search for is built, and the workspace is read again. -/
theorem rebuild (hkeep : Upkeep knows) {settings : Option Settings}
    (hbuild : Workspace.build.Upholds knows stage
      { workspace with settings := settings.getD workspace.settings, isScanned := false }) :
    (Workspace.rebuild settings).Upholds knows stage workspace := by
  simp only [Workspace.rebuild, bind_eq, upholds_change]
  refine hbuild.bind fun built later after _ hknown => ?_
  split
  · exact hknown
  · rw [upholds_workspace]
    split
    · exact (hkeep.scan hknown).bind fun _ => upholdsFrom_done _
    · rw [upholds_change]
      have hloaded : knows later { after with isLoaded := true } :=
        hkeep.congr hknown ⟨rfl, rfl, rfl, rfl, rfl, rfl⟩ rfl
      refine (hkeep.replaceActive hloaded).bind fun _ last final _ hlast => ?_
      exact hlast

end Upkeep

end CommentIndex
