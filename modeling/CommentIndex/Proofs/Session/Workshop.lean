import CommentIndex.Proofs.Session.Renewal

/-!
# Outlines after a rebuild

A `Workshop` is a workspace and any number of errands in it, all of which may be under way at once:
whenever one of them pauses, any of them may have its turn, new ones may begin, and what is outside
may change. By `outlines_since_rebuild`, once a rebuild that scans has returned, every outline that
is cached is empty or was read with what the rebuild has given to search for, from a text that a
document has had since, and no reading that began before the rebuild is going to land.
-/

namespace CommentIndex

open Activity Workspace

/-- What may be asked for in a workspace, by its user, by a timer, or by other programs. -/
inductive Errand where
  | replace (path : Path)
  | refresh (path : Path)
  | remove (path : Path)
  | clear
  | open (path : Path) (text : String) (takesFocus : Bool)
  | edit (path : Path) (text : String)
  | focus (path : Option Path)
  | close (path : Path)
  | delete (path : Path)
  /-- The timer of the latest edit expires. -/
  | refreshActive
  | build
  | survey (kind : Survey)

namespace Errand

/-- What is done on an errand. -/
def activity : Errand → Activity Unit
  | .replace path => (Workspace.replace path).bind fun _ => .done ()
  | .refresh path => (Workspace.refresh path).bind fun _ => .done ()
  | .remove path => Workspace.remove path
  | .clear => Workspace.clear
  | .open path text takesFocus => openDocument path text takesFocus
  | .edit path text => Workspace.edit path text
  | .focus path => setActive path
  | .close path => closeDocument path
  | .delete path => fileDeleted path
  | .refreshActive => Workspace.refreshActive
  | .build => Workspace.build.bind fun _ => .done ()
  | .survey kind => kind.activity

/-- Whether something else may be searched for after an errand. -/
def builds : Errand → Bool
  | .build | .survey (.rebuild _) => true
  | _ => false

/-- The workspace with the buffers that an errand gives it first of all. -/
def prepare (workspace : Workspace) : Errand → Workspace
  | .open path text _ | .edit path text => workspace.withBuffer path text
  | .close path => { workspace with buffers := workspace.buffers.erase path }
  | _ => workspace

variable {reader : Reader} {phase : Phase} {workspace : Workspace}

section

variable {σ : Type} [Preorder σ] [Setoid σ] {knows : σ → Workspace → Prop} {stage : σ}

/-- An errand upholds what all that is done to the cache upholds, if it does so where it builds
something. -/
theorem upholds_of_upkeep (hkeep : Upkeep knows) (errand : Errand)
    (h : knows stage (errand.prepare workspace))
    (hbuilds : errand.builds = true → errand.activity.Upholds knows stage workspace) :
    errand.activity.Upholds knows stage workspace := by
  cases errand with
  | replace path => exact (hkeep.replace h path).bind fun _ => upholdsFrom_done _
  | refresh path => exact (hkeep.refresh h path).bind fun _ => upholdsFrom_done _
  | remove path => exact hkeep.remove h path
  | clear => exact hkeep.clear h
  | «open» path text takesFocus =>
      simp only [activity, openDocument, bind_eq, upholds_change]
      split
      · exact hkeep.setActive h (some path)
      · exact h
  | edit path text => exact hkeep.congr h ⟨rfl, rfl, rfl, rfl, rfl, rfl⟩ rfl
  | focus path => exact hkeep.setActive h path
  | close path => exact hkeep.closeDocument path h
  | delete path => exact (hkeep.remove h path).bind fun _ => upholdsFrom_notify
  | refreshActive => exact hkeep.refreshActive h
  | build => exact hbuilds rfl
  | survey kind =>
      cases kind with
      | scan => exact (hkeep.scan h).bind fun _ => upholdsFrom_done _
      | rebuild settings => exact hbuilds rfl

end

/-- An errand upholds what is known of a workspace. -/
theorem upholds (errand : Errand) (h : reader.Knows phase (errand.prepare workspace))
    (hbuilds : phase.isBuilt = true → errand.builds = false) :
    errand.activity.Upholds reader.Knows phase workspace := by
  refine errand.upholds_of_upkeep reader.upkeep h fun hbuild => ?_
  have hunbuilt : phase.isBuilt = false := by
    refine eq_false_of_ne_true fun hbuilt => ?_
    rw [hbuilds hbuilt] at hbuild
    contradiction
  cases errand with
  | build => exact (h.build hunbuilt).bind fun _ => upholdsFrom_done _
  | survey kind =>
      cases kind with
      | scan => contradiction
      | rebuild settings =>
          exact (h.rebuild hunbuilt settings).bind fun _ => upholdsFrom_done _
  | _ => contradiction

end Errand

/-- A workspace and the errands in it, in the order in which they have begun, with how far each has
got. -/
structure Workshop where
  workspace : Workspace
  errands : List (Progress Unit) := []

namespace Workshop

/-- What an errand gave, if it has ended. -/
def outcome? (workshop : Workshop) (index : Nat) : Option (Outcome Unit) :=
  match workshop.errands[index]? with
  | some (.finished outcome) => some outcome
  | _ => none

/-- Whose turn it is. -/
inductive Turn where
  | begin (errand : Errand)
  /-- An errand goes on, if it pauses. -/
  | goOn (index : Nat)
  /-- What is outside becomes as in another workspace: the files, the settings, the buffers, the
  time, and all else but the cache and what is searched for. -/
  | outside (next : Workspace)

namespace Turn

/-- Whether something else may be searched for after a turn. -/
def builds : Turn → Bool
  | .begin errand => errand.builds
  | .goOn _ | .outside _ => false

/-- The workspace with what a turn gives it first of all. -/
def prepare (workspace : Workspace) : Turn → Workspace
  | .begin errand => errand.prepare workspace
  | .goOn _ => workspace
  | .outside next =>
    { next with
      cache := workspace.cache
      matcher := workspace.matcher
      registry := workspace.registry }

/-- A turn leaves the cache and what is searched for until it does something. -/
theorem prepare_keeps (workspace : Workspace) (next : Turn) :
    (next.prepare workspace).cache = workspace.cache ∧
      (next.prepare workspace).matcher = workspace.matcher ∧
      (next.prepare workspace).registry = workspace.registry := by
  cases next with
  | begin errand => cases errand <;> exact ⟨rfl, rfl, rfl⟩
  | goOn index => exact ⟨rfl, rfl, rfl⟩
  | outside next => exact ⟨rfl, rfl, rfl⟩

end Turn

section

variable (holds : Pause → Bool)

/-- Begins with an activity. -/
def enter (workshop : Workshop) (activity : Activity Unit) : Workshop :=
  let result := activity.stretch holds workshop.workspace
  { workspace := result.2, errands := workshop.errands ++ [result.1] }

/-- Takes one turn. -/
def turn (workshop : Workshop) : Turn → Workshop
  | .begin errand => workshop.enter holds errand.activity
  | .goOn index =>
    match workshop.errands[index]? with
    | some (.held rest) =>
      let (progress, after) := rest.stretch holds workshop.workspace
      { workspace := after, errands := workshop.errands.set index progress }
    | _ => workshop
  | .outside next => { workshop with workspace := (Turn.outside next).prepare workshop.workspace }

/-- Takes turns in order. -/
def run (workshop : Workshop) (turns : List Turn) : Workshop :=
  turns.foldl (turn holds) workshop

/-- The workspaces in which the turns are taken. -/
def scenes (workshop : Workshop) : List Turn → List Workspace
  | [] => []
  | next :: rest => next.prepare workshop.workspace :: scenes (workshop.turn holds next) rest

end

variable {holds : Pause → Bool} {reader : Reader} {phase : Phase} {workshop : Workshop}

theorem run_cons (next : Turn) (rest : List Turn) :
    workshop.run holds (next :: rest) = (workshop.turn holds next).run holds rest := rfl

theorem run_append (first second : List Turn) :
    workshop.run holds (first ++ second) = (workshop.run holds first).run holds second :=
  List.foldl_append

/-! ## One turn after the other -/

section

variable {σ : Type} [Preorder σ] [Setoid σ] {known : σ → Workspace → Prop} {stage : σ}

/-- Something is known of the workspace at a stage, and every errand that pauses upholds it. -/
structure Keeps (known : σ → Workspace → Prop) (stage : σ) (workshop : Workshop) : Prop where
  knows : known stage workshop.workspace
  rests : ∀ progress ∈ workshop.errands, ∀ rest, progress = .held rest →
    rest.UpholdsFrom known stage

/-- A stretch of an errand leads to a later stage, at which all errands uphold what is known. -/
theorem Keeps.stretch (h : Keeps known stage workshop) {activity : Activity Unit} {begun : σ}
    (hbegun : stage ≤ begun) (hupholds : activity.Upholds known begun workshop.workspace)
    (holds : Pause → Bool) :
    ∃ later, begun ≤ later ∧ begun ≈ later ∧ ∀ errands,
      (∀ progress ∈ errands, progress ∈ workshop.errands ∨
        progress = (activity.stretch holds workshop.workspace).1) →
      Keeps known later
        { workspace := (activity.stretch holds workshop.workspace).2, errands := errands } := by
  obtain ⟨later, hlater, hsame, hknows, hrest⟩ := hupholds.stretch holds
  refine ⟨later, hlater, hsame, fun errands herrands => ⟨hknows, ?_⟩⟩
  intro progress hmem rest hheld
  rcases herrands progress hmem with hold | hnew
  · exact (h.rests progress hold rest hheld).mono (le_trans hbegun hlater)
  · exact hrest rest (hnew ▸ hheld)

/-- A turn leads to a later stage, if what is known holds of what it gives and it begins nothing
that does not uphold that. -/
theorem Keeps.turn (h : Keeps known stage workshop) {next : Turn}
    (hprepared : known stage (next.prepare workshop.workspace))
    (hbegins : ∀ errand, next = .begin errand →
      errand.activity.Upholds known stage workshop.workspace) (holds : Pause → Bool) :
    ∃ later, stage ≤ later ∧ stage ≈ later ∧ Keeps known later (workshop.turn holds next) := by
  cases next with
  | begin errand =>
      obtain ⟨later, hlater, hsame, hkeeps⟩ := h.stretch le_rfl (hbegins errand rfl) holds
      exact ⟨later, hlater, hsame, hkeeps _ fun progress hmem =>
        (List.mem_append.mp hmem).imp_right List.mem_singleton.mp⟩
  | goOn index =>
      simp only [Workshop.turn]
      split
      · next rest hheld =>
          have hupholds := h.rests _ (List.mem_of_getElem? hheld) rest rfl stage _ le_rfl h.knows
          obtain ⟨later, hlater, hsame, hkeeps⟩ := h.stretch le_rfl hupholds holds
          exact ⟨later, hlater, hsame, hkeeps _ fun progress hmem =>
            List.mem_or_eq_of_mem_set hmem⟩
      · exact ⟨stage, le_rfl, Setoid.refl _, h⟩
  | outside next => exact ⟨stage, le_rfl, Setoid.refl _, hprepared, h.rests⟩

end

/-- What is known of a workshop in a phase: every errand that pauses upholds what is known. -/
structure Standing (reader : Reader) (phase : Phase) (workshop : Workshop) : Prop where
  knows : reader.Knows phase workshop.workspace
  rests : ∀ progress ∈ workshop.errands, ∀ rest, progress = .held rest →
    rest.UpholdsFrom reader.Knows phase

theorem Standing.keeps (h : Standing reader phase workshop) :
    Keeps reader.Knows phase workshop :=
  ⟨h.knows, h.rests⟩

theorem Keeps.standing (h : Keeps reader.Knows phase workshop) : Standing reader phase workshop :=
  ⟨h.knows, h.rests⟩

/-- A stretch of an errand leads to a later phase, in which all errands are as they should be. -/
theorem Standing.stretch (h : Standing reader phase workshop) {activity : Activity Unit}
    {begun : Phase} (hbegun : phase ≤ begun)
    (hupholds : activity.Upholds reader.Knows begun workshop.workspace) (holds : Pause → Bool) :
    ∃ later, begun ≤ later ∧ begun ≈ later ∧ ∀ errands,
      (∀ progress ∈ errands, progress ∈ workshop.errands ∨
        progress = (activity.stretch holds workshop.workspace).1) →
      Standing reader later
        { workspace := (activity.stretch holds workshop.workspace).2, errands := errands } := by
  obtain ⟨later, hlater, hsame, hkeeps⟩ := h.keeps.stretch hbegun hupholds holds
  exact ⟨later, hlater, hsame, fun errands herrands => (hkeeps errands herrands).standing⟩

/-- A turn leads to a later phase. -/
theorem Standing.turn (h : Standing reader phase workshop) {next : Turn}
    (hreads : phase.isCleared = true → reader.Reads (next.prepare workshop.workspace))
    (hbuilds : phase.isBuilt = true → next.builds = false) (holds : Pause → Bool) :
    ∃ later, phase ≤ later ∧ phase ≈ later ∧
      Standing reader later (workshop.turn holds next) := by
  obtain ⟨hcache, hmatcher, hregistry⟩ := next.prepare_keeps workshop.workspace
  have hprepared := h.knows.withTexts hcache hmatcher hregistry hreads
  obtain ⟨later, hlater, hsame, hkeeps⟩ := h.keeps.turn hprepared (fun errand hnext => by
    subst hnext
    exact errand.upholds hprepared hbuilds) holds
  exact ⟨later, hlater, hsame, hkeeps.standing⟩

/-- A run in which the cache is not known to be cleared leads to a later phase. -/
theorem Standing.run (h : Standing reader phase workshop) (hphase : phase.isCleared = false)
    (holds : Pause → Bool) (turns : List Turn)
    (hbuilds : phase.isBuilt = true → ∀ next ∈ turns, next.builds = false) :
    ∃ later, phase ≤ later ∧ phase ≈ later ∧ Standing reader later (workshop.run holds turns) := by
  induction turns generalizing workshop phase with
  | nil => exact ⟨phase, le_rfl, Setoid.refl _, h⟩
  | cons next rest ih =>
      have hcleared (hcleared : phase.isCleared = true) :
          reader.Reads (next.prepare workshop.workspace) :=
        absurd (hphase.symm.trans hcleared) (by simp)
      obtain ⟨later, hlater, hsame, hstanding⟩ :=
        h.turn hcleared (fun hbuilt => hbuilds hbuilt next List.mem_cons_self) holds
      obtain ⟨last, hlast, hlike, hstands⟩ := ih hstanding (hsame.2.symm.trans hphase)
        fun hbuilt other hmem => hbuilds (hsame.1.trans hbuilt) other (List.mem_cons_of_mem _ hmem)
      exact ⟨last, le_trans hlater hlast, Setoid.trans hsame hlike, hstands⟩

/-! ## The rebuild among others -/

/-- What is left of a rebuild once the files to be read are known. -/
def renewal (files : List Path) (most : Int) : Activity Unit :=
  (Workspace.clear.bind fun _ => readFiles files most).attempt.bind Survey.close

/-- The files to be read are found before the cache is cleared. -/
theorem stretch_scanFiles_close (holds : Pause → Bool) {workspace : Workspace}
    {settings : WorkspaceSettings} {files : List Path}
    (hfiles : workspace.disk.findFiles workspace.root settings.matchFiles settings.excludeFiles =
      .ok files) :
    ((scanFiles settings).attempt.bind Survey.close).stretch holds workspace =
      (Activity.pause .listing (renewal files settings.maxFiles)).stretch holds workspace := by
  have hfind : (findFiles settings.matchFiles settings.excludeFiles).stretch holds workspace =
      (Activity.pause .listing (.done files)).stretch holds workspace := by
    simp only [findFiles, bind_eq, stretch_workspace, hfiles]
    rfl
  rw [stretch_bind, stretch_attempt, scanFiles, bind_eq, stretch_bind, hfind, ← stretch_bind,
    ← stretch_attempt, ← stretch_bind]
  rfl

/-- What is left of a rebuild upholds what is known. -/
theorem upholdsFrom_renewal (files : List Path) (most : Int) :
    (renewal files most).UpholdsFrom reader.Knows phase := by
  intro later workspace _ hknows
  refine (hknows.clear.bind fun _ => ?_).attempt.bind fun read => ?_
  · exact fun last after _ hknown => reader.upkeep.readFilesFrom hknown _ _ _ _ _
  · exact fun last after _ hknown =>
      (reader.upkeep.closeScan hknown read).bind fun _ => upholdsFrom_done _

/-- And it clears the cache first of all, so that no ticket that has been given out counts. -/
theorem upholds_renewal {workspace : Workspace} (h : reader.Suits workspace)
    (hreads : reader.Reads workspace) (files : List Path) (most : Int) :
    (renewal files most).Upholds reader.Knows (.cleared workspace.cache.issued) workspace := by
  have hread := (reader.upkeep.readFilesFrom (h.knows_cleared hreads) most files.length 0 0
    files).attempt
  exact hread.bind fun read last after _ hknown =>
    (reader.upkeep.closeScan hknown read).bind fun _ => upholdsFrom_done _

/-- No errand is forgotten. -/
theorem length_errands_run (holds : Pause → Bool) (turns : List Turn) :
    workshop.errands.length ≤ (workshop.run holds turns).errands.length := by
  induction turns generalizing workshop with
  | nil => exact Nat.le_refl _
  | cons next rest ih =>
      refine Nat.le_trans ?_ ih
      cases next with
      | begin errand =>
          rw [turn, enter, List.length_append]
          exact Nat.le_succ _
      | outside next => exact Nat.le_refl _
      | goOn index =>
          simp only [turn]
          split
          · exact Nat.le_of_eq List.length_set.symm
          · exact Nat.le_refl _

/-- An errand stays where it is until it goes on, and once it has ended. -/
theorem errands_turn {next : Turn} {index : Nat} {progress : Progress Unit}
    (h : workshop.errands[index]? = some progress)
    (hidle : next = .goOn index → ∀ rest, progress ≠ .held rest) (holds : Pause → Bool) :
    (workshop.turn holds next).errands[index]? = some progress := by
  cases next with
  | begin errand =>
      have hlt := (List.getElem?_eq_some_iff.mp h).1
      exact (List.getElem?_append_left hlt).trans h
  | outside next => exact h
  | goOn other =>
      simp only [turn]
      split
      · next rest hheld =>
          by_cases hsame : other = index
          · subst hsame
            rw [h] at hheld
            exact absurd (Option.some.inj hheld) (hidle rfl rest)
          · exact (List.getElem?_set_ne hsame).trans h
      · exact h

/-- A rebuild that scans is about to read the files, or the cache has been cleared since it began.
At least `floor` tickets had been given out before. -/
inductive Renewing (reader : Reader) (floor : Nat) (index : Nat) (workshop : Workshop) : Prop
  | listing (phase : Phase) (standing : Standing reader phase workshop)
    (built : phase.isBuilt = true) (uncleared : phase.isCleared = false)
    (later : floor ≤ phase.floor) (files : List Path) (most : Int)
    (held : workshop.errands[index]? = some (.held (renewal files most)))
  | cleared (phase : Phase) (standing : Standing reader phase workshop)
    (cleared : phase.isCleared = true) (later : floor ≤ phase.floor)

/-- The cache is cleared when the rebuild goes on. -/
theorem Standing.clears (h : Standing reader phase workshop) (hbuilt : phase.isBuilt = true)
    (hreads : reader.Reads workshop.workspace) (files : List Path) (most : Int)
    (holds : Pause → Bool) :
    ∃ later, later.isCleared = true ∧ phase.floor ≤ later.floor ∧ ∀ errands,
      (∀ progress ∈ errands, progress ∈ workshop.errands ∨
        progress = ((renewal files most).stretch holds workshop.workspace).1) →
      Standing reader later
        { workspace := ((renewal files most).stretch holds workshop.workspace).2,
          errands := errands } := by
  have hupholds := upholds_renewal (h.knows.suits hbuilt) hreads files most
  obtain ⟨later, hlater, hsame, hstanding⟩ :=
    h.stretch (Phase.le_cleared h.knows.floor) hupholds holds
  exact ⟨later, hsame.2.symm, Nat.le_trans h.knows.floor hlater.1, hstanding⟩

/-- A turn in which nothing is built keeps what holds since the rebuild. -/
theorem Renewing.turn {floor index : Nat} (h : Renewing reader floor index workshop) {next : Turn}
    (hreads : reader.Reads (next.prepare workshop.workspace)) (hbuilds : next.builds = false)
    (holds : Pause → Bool) : Renewing reader floor index (workshop.turn holds next) := by
  cases h with
  | listing phase standing built uncleared later files most held =>
      by_cases hnext : next = .goOn index
      · subst hnext
        obtain ⟨last, hcleared, hlast, hstanding⟩ := standing.clears built hreads files most holds
        rw [Workshop.turn, held]
        exact .cleared last (hstanding _ fun progress hmem => List.mem_or_eq_of_mem_set hmem)
          hcleared (Nat.le_trans later hlast)
      · obtain ⟨last, hlast, hsame, hstanding⟩ :=
          standing.turn (fun _ => hreads) (fun _ => hbuilds) holds
        exact .listing last hstanding (hsame.1 ▸ built) (hsame.2 ▸ uncleared)
          (Nat.le_trans later hlast.1) files most
          (errands_turn held (fun heq => absurd heq hnext) holds)
  | cleared phase standing cleared later =>
      obtain ⟨last, hlast, hsame, hstanding⟩ :=
        standing.turn (fun _ => hreads) (fun _ => hbuilds) holds
      exact .cleared last hstanding (hsame.2 ▸ cleared) (Nat.le_trans later hlast.1)

/-- What holds since the rebuild is kept by turns in which nothing is built. -/
theorem Renewing.run {floor index : Nat} (h : Renewing reader floor index workshop)
    {turns : List Turn} (hreads : ∀ scene ∈ workshop.scenes holds turns, reader.Reads scene)
    (hbuilds : ∀ next ∈ turns, next.builds = false) :
    Renewing reader floor index (workshop.run holds turns) := by
  induction turns generalizing workshop with
  | nil => exact h
  | cons next rest ih =>
      obtain ⟨hnext, hrest⟩ := List.forall_mem_cons.mp hbuilds
      obtain ⟨hread, hreads⟩ := List.forall_mem_cons.mp hreads
      exact ih (h.turn hread hnext holds) hreads hrest

/-- An errand that has ended stays as it is. -/
theorem outcome?_run {index : Nat} {outcome : Outcome Unit}
    (h : workshop.errands[index]? = some (.finished outcome)) (holds : Pause → Bool)
    (turns : List Turn) : (workshop.run holds turns).outcome? index = some outcome := by
  induction turns generalizing workshop with
  | nil =>
      show workshop.outcome? index = some outcome
      rw [outcome?, h]
  | cons next rest ih => exact ih (errands_turn h (fun _ rest heq => by contradiction) holds)

/-! ## How a rebuild begins -/

/-- A rebuild that scans begins: it finds its files in a workspace that has what it has given. -/
theorem turn_rebuild (holds : Pause → Bool) (workshop : Workshop) {given : Option Settings}
    {settings : Settings} (hsettings : given.getD workshop.workspace.settings = settings)
    {matcher : Matcher} (hmatcher : Compiles settings matcher) {delay : Nat}
    (hdelay : delayOf settings = .ok delay) (henabled : settings.workspace.enabled = true)
    (heager : settings.workspace.lazyLoad = false) {files : List Path}
    (hfiles : workshop.workspace.disk.findFiles workshop.workspace.root
      settings.workspace.matchFiles settings.workspace.excludeFiles = .ok files) :
    workshop.turn holds (.begin (.survey (.rebuild given))) =
      enter holds ⟨(workshop.workspace.rebuilt settings matcher delay).underScan, workshop.errands⟩
        (.pause .listing (renewal files settings.workspace.maxFiles)) := by
  have hstretch : (Survey.activity (.rebuild given)).stretch holds workshop.workspace =
      (Activity.pause .listing (renewal files settings.workspace.maxFiles)).stretch holds
        (workshop.workspace.rebuilt settings matcher delay).underScan :=
    (Survey.stretch_rebuild holds workshop.workspace given hsettings hmatcher hdelay henabled
      heager).trans (stretch_scanFiles_close holds hfiles)
  rw [turn, enter, Errand.activity, hstretch]
  rfl

/-- What is searched for is what the rebuild has given. -/
theorem Standing.rebuilt (h : Standing reader phase workshop) (hphase : phase.isBuilt = false)
    {settings : Settings}
    (hregistry : reader.registry = .ofSettings settings.tags.listed settings.tags.keyed)
    (delay : Nat) :
    Standing reader (.built workshop.workspace.cache.issued)
      ⟨(workshop.workspace.rebuilt settings reader.matcher delay).underScan,
        workshop.errands⟩ := by
  have hle : phase ≤ .built workshop.workspace.cache.issued :=
    Phase.le_built h.knows.floor (Phase.uncleared_of_unbuilt hphase)
  have hsuits : reader.Suits
      (workshop.workspace.rebuilt settings reader.matcher delay).underScan :=
    ⟨rfl, hregistry.symm⟩
  exact ⟨hsuits.knows_built, fun progress hmem rest hheld =>
    (h.rests progress hmem rest hheld).mono hle⟩

variable {files : List Path} {most : Int}

/-- The rebuild goes on to find its files, and it is still known what is searched for. -/
theorem Standing.listing (h : Standing reader phase workshop) (hbuilt : phase.isBuilt = true)
    (hphase : phase.isCleared = false) (holds : Pause → Bool) (files : List Path) (most : Int) :
    ∃ later : Phase, later.isBuilt = true ∧ later.isCleared = false ∧
      Standing reader later (workshop.enter holds (.pause .listing (renewal files most))) := by
  have hupholds : (Activity.pause .listing (renewal files most)).Upholds reader.Knows phase
      workshop.workspace :=
    ⟨_, le_rfl, Setoid.refl _, h.knows, upholdsFrom_renewal files most⟩
  obtain ⟨later, -, hsame, hstanding⟩ := h.stretch le_rfl hupholds holds
  exact ⟨later, hsame.1.symm.trans hbuilt, hsame.2.symm.trans hphase, hstanding _ fun _ hmem =>
    (List.mem_append.mp hmem).imp_right List.mem_singleton.mp⟩

/-- It is about to read its files, or it has cleared the cache. -/
theorem Standing.renews (h : Standing reader phase workshop) (hbuilt : phase.isBuilt = true)
    (hphase : phase.isCleared = false) (hreads : reader.Reads workshop.workspace)
    (holds : Pause → Bool) (files : List Path) (most : Int) :
    Renewing reader phase.floor workshop.errands.length
      (workshop.enter holds (.pause .listing (renewal files most))) := by
  rw [enter, Activity.stretch]
  split
  · refine .listing _ ⟨h.knows, fun progress hmem rest hheld => ?_⟩ hbuilt hphase
      (Nat.le_refl _) files most List.getElem?_concat_length
    rcases List.mem_append.mp hmem with hold | hnew
    · exact h.rests progress hold rest hheld
    · obtain rfl := List.mem_singleton.mp hnew
      cases hheld
      exact upholdsFrom_renewal files most
  · obtain ⟨last, hcleared, hlast, hstanding⟩ := h.clears hbuilt hreads files most holds
    exact .cleared last (hstanding _ fun progress hmem =>
      (List.mem_append.mp hmem).imp_right List.mem_singleton.mp) hcleared hlast

/-- A rebuild that is held before it clears the cache is about to read its files, whatever has
happened before. -/
theorem Standing.renewing (h : Standing reader phase workshop) (hbuilt : phase.isBuilt = true)
    (hphase : phase.isCleared = false) {index : Nat}
    (hheld : workshop.errands[index]? = some (.held (renewal files most))) :
    Renewing reader workshop.workspace.cache.issued index workshop := by
  have hle : phase ≤ .built workshop.workspace.cache.issued := Phase.le_built h.knows.floor hphase
  refine .listing _ ⟨(h.knows.suits hbuilt).knows_built, fun progress hmem rest hrest => ?_⟩ rfl rfl
    (Nat.le_refl _) files most hheld
  exact (h.rests progress hmem rest hrest).mono hle

/-- A rebuild begins and others have their turns. After the turns `before` it has not begun yet, or
it is held before it clears the cache; from then on it clears the cache when it goes on. -/
theorem Standing.renewing_run (h : Standing reader phase workshop) (hphase : phase.isBuilt = false)
    {given : Option Settings} {settings : Settings}
    (hsettings : given.getD workshop.workspace.settings = settings)
    (hmatcher : Compiles settings reader.matcher)
    (hregistry : reader.registry = .ofSettings settings.tags.listed settings.tags.keyed)
    {delay : Nat} (hdelay : delayOf settings = .ok delay)
    (henabled : settings.workspace.enabled = true) (heager : settings.workspace.lazyLoad = false)
    (hfiles : workshop.workspace.disk.findFiles workshop.workspace.root
      settings.workspace.matchFiles settings.workspace.excludeFiles = .ok files)
    {before after later : List Turn}
    (hturns : before ++ after = .begin (.survey (.rebuild given)) :: later)
    (hbuilds : ∀ next ∈ later, next.builds = false)
    (hheld : ∀ progress,
      (workshop.run holds before).errands[workshop.errands.length]? = some progress →
        progress = .held (renewal files settings.workspace.maxFiles))
    (hreads : ∀ scene ∈ (workshop.run holds before).scenes holds after, reader.Reads scene) :
    Renewing reader (workshop.run holds before).workspace.cache.issued workshop.errands.length
      ((workshop.run holds before).run holds after) := by
  have hbegins := turn_rebuild holds workshop hsettings hmatcher hdelay henabled heager hfiles
  have hrebuilt := h.rebuilt hphase hregistry delay
  cases before with
  | nil =>
      obtain rfl : after = .begin (.survey (.rebuild given)) :: later := hturns
      obtain ⟨hread, hlater⟩ := List.forall_mem_cons.mp hreads
      have hrenews := hrebuilt.renews rfl rfl hread holds files settings.workspace.maxFiles
      rw [← hbegins] at hrenews
      exact hrenews.run hlater hbuilds
  | cons first rest =>
      obtain ⟨rfl, rfl⟩ := List.cons.inj hturns
      obtain ⟨hrest, hafter⟩ := List.forall_mem_append.mp hbuilds
      obtain ⟨built, hbuilt, huncleared, hbegun⟩ :=
        hrebuilt.listing rfl rfl holds files settings.workspace.maxFiles
      rw [← hbegins] at hbegun
      have hindex : workshop.errands.length <
          (workshop.run holds (.begin (.survey (.rebuild given)) :: rest)).errands.length := by
        refine Nat.lt_of_lt_of_le ?_ (length_errands_run holds rest)
        rw [Workshop.turn, enter, List.length_append]
        exact Nat.lt_succ_self _
      have hrenewal := (List.getElem?_eq_getElem hindex).trans
        (congrArg some (hheld _ (List.getElem?_eq_getElem hindex)))
      obtain ⟨last, -, hsame, hlisted⟩ :=
        hbegun.run huncleared holds rest fun _ => hrest
      exact (hlisted.renewing (hsame.1.symm.trans hbuilt) (hsame.2.symm.trans huncleared)
        hrenewal).run hreads hafter

/-! ## Outlines since a rebuild -/

/-- An outline is empty, or it was read from the text that a document had in one of some
workspaces. -/
def Found (matcher : Matcher) (registry : Registry) (scenes : List Workspace) (outline : Outline) :
    Prop :=
  outline = .empty ∨ ∃ scene ∈ scenes, ∃ path text showTag found,
    scene.textAt path = .ok text ∧
      Outline.ofText matcher registry showTag text = .ok (outline, found)

/-- What is found in some workspaces is allowed. -/
def finder (matcher : Matcher) (registry : Registry) (scenes : List Workspace) : Reader where
  matcher := matcher
  registry := registry
  Allows := Found matcher registry scenes
  allows_empty := .inl rfl

/-- What is read in one of the workspaces is found there. -/
theorem reads_finder (matcher : Matcher) (registry : Registry) {scenes : List Workspace}
    {scene : Workspace} (hscene : scene ∈ scenes) :
    (finder matcher registry scenes).Reads scene :=
  fun path text showTag _ found htext hread =>
    .inr ⟨scene, hscene, path, text, showTag, found, htext, hread⟩

/-- Once a rebuild that scans has returned, and until something else is built, every outline that is
cached is empty or was read with what the rebuild has given to search for, from a text that a
document has had since the rebuild cleared the cache; and no reading that had begun before it did is
going to land or to bring back an outline. So it is whatever has happened before and since. Here the
turns `before` are some during which the cache has not been cleared yet: the rebuild has not begun
after them, or its files are found and it is held. -/
theorem outlines_since_rebuild (holds : Pause → Bool) (start : Workspace)
    (earlier before after later : List Turn) (given : Option Settings) {matcher : Matcher}
    {files : List Path} :
    let begun := run holds { workspace := start } earlier
    let settings := given.getD begun.workspace.settings
    let registry := Registry.ofSettings settings.tags.listed settings.tags.keyed
    let listed := begun.run holds before
    let final := listed.run holds after
    Compiles settings matcher → settings.workspace.enabled = true →
      settings.workspace.lazyLoad = false →
      begun.workspace.disk.findFiles begun.workspace.root settings.workspace.matchFiles
        settings.workspace.excludeFiles = .ok files →
      before ++ after = .begin (.survey (.rebuild given)) :: later →
      (∀ next ∈ later, next.builds = false) →
      (∀ progress, listed.errands[begun.errands.length]? = some progress →
        progress = .held (renewal files settings.workspace.maxFiles)) →
      final.outcome? begun.errands.length = some (.ok ()) →
      (∀ path outline, final.workspace.cache.outlines.find? path = some outline →
        Found matcher registry (listed.scenes holds after) outline) ∧
      ∀ path ticket, ticket ≤ listed.workspace.cache.issued →
        final.workspace.cache.isCurrent path ticket = false := by
  intro begun settings registry listed final hmatcher henabled heager hfiles hturns hbuilds hheld
    hreturned
  let reader := finder matcher registry (listed.scenes holds after)
  have hreads : ∀ scene ∈ listed.scenes holds after, reader.Reads scene :=
    fun scene hscene => reads_finder matcher registry hscene
  have hstart : Standing reader .unbuilt { workspace := start } :=
    ⟨Reader.knows_unbuilt start, fun _ hmem => (List.not_mem_nil hmem).elim⟩
  obtain ⟨phase, -, hphase, hstanding⟩ :=
    hstart.run rfl holds earlier fun hbuilt => (Bool.false_ne_true hbuilt).elim
  cases hdelay : delayOf settings with
  | error error =>
      -- Then the rebuild has ended with this error, and it stays so.
      have hended : (begun.turn holds (.begin (.survey (.rebuild given)))).errands[
          begun.errands.length]? = some (.finished (.error error)) := by
        rw [turn, enter, List.getElem?_concat_length]
        exact congrArg some
          (Survey.stretch_rebuild_of_delay holds begun.workspace given rfl hmatcher hdelay)
      have hfinal : final = (begun.turn holds (.begin (.survey (.rebuild given)))).run holds
          later := by
        rw [← run_cons, ← hturns, run_append]
      cases hreturned.symm.trans (hfinal ▸ outcome?_run hended holds later)
  | ok delay =>
      have hrenewing : Renewing reader listed.workspace.cache.issued begun.errands.length final :=
        hstanding.renewing_run hphase.1.symm rfl hmatcher rfl hdelay henabled heager hfiles hturns
          hbuilds hheld hreads
      cases hrenewing with
      | listing phase standing built uncleared later files most held =>
          rw [outcome?, held] at hreturned
          exact absurd hreturned (by simp)
      | cleared phase standing cleared later =>
          have hrenewed := standing.knows.renewed cleared
          refine ⟨hrenewed.allowed, fun path ticket hticket => ?_⟩
          exact decide_eq_false (hrenewed.not_current (Nat.le_trans hticket later) path)

/-! ## One reading before a rebuild -/

/-- Settings that leave one of the standard tags. -/
def oneLeft : Settings where
  tags :=
    { keyed := (Tag.standard.filter fun tag => tag.name != "FIXME").map fun tag =>
        (.text tag.name, .map [(.text "enabled", .bool false)])
      separators := [": "]
      marks := ["#"] }

/-- What is searched for with them. -/
def oneLeftMatcher : Matcher :=
  { Session.oneTag with tokens := ["FIXME".toList] }

/-- Files are listed, and texts are taken, while other things go on. -/
def takesTime (reason : Pause) : Bool :=
  reason = .listing || reason = .buffer

theorem compiles_oneLeft : Compiles oneLeft oneLeftMatcher := by
  have htokens : Matcher.tokensOf (.ofSettings oneLeft.tags.listed oneLeft.tags.keyed)
      oneLeft.tags.endTag = ["FIXME"] := by decide +kernel
  have hsorted (text : String) : Matcher.longestFirst [text] = [text.toList] := by
    simp [Matcher.longestFirst, List.eraseDups_cons]
  unfold Compiles Matcher.compile
  rw [htokens]
  simp [oneLeft, hsorted, oneLeftMatcher, Session.oneTag]

/-- The active document is being read when other tags are given. That reading ends after the cache
has been cleared, and it does not land; the document is read again with the tag that is left. -/
theorem outlines_since_rebuild_of_other_tags :
    let begun := run takesTime { workspace := Session.loaded.workspace }
      [.begin (.open Session.firstDocument "# TODO: one\n# FIXME: two" true)]
    let listed := begun.run takesTime [.begin (.survey (.rebuild (some oneLeft)))]
    let after : List Turn := [.goOn 1, .goOn 0, .goOn 1]
    let final := listed.run takesTime after
    let registry := Registry.ofSettings oneLeft.tags.listed oneLeft.tags.keyed
    final.outcome? 1 = some (.ok ()) ∧
      ((final.workspace.cache.outlines.find? Session.firstDocument).map fun outline =>
        outline.anchors.map (·.facts.display)) = some ["FIXME: two"] ∧
      (∀ path outline, final.workspace.cache.outlines.find? path = some outline →
        Found oneLeftMatcher registry (listed.scenes takesTime after) outline) ∧
      ∀ path ticket, ticket ≤ 1 → final.workspace.cache.isCurrent path ticket = false := by
  intro begun listed after final registry
  let scanned := (begun.workspace.rebuilt oneLeft oneLeftMatcher 500).underScan
  have hgiven : (some oneLeft).getD begun.workspace.settings = oneLeft := rfl
  have hdelay : delayOf oneLeft = .ok 500 := by decide +kernel
  have hfiles : begun.workspace.disk.findFiles begun.workspace.root oneLeft.workspace.matchFiles
      oneLeft.workspace.excludeFiles = .ok [] := by decide +kernel
  have hlisted : listed = ⟨scanned, begun.errands ++ [.held (renewal [] 250)]⟩ :=
    turn_rebuild takesTime begun hgiven compiles_oneLeft hdelay rfl rfl hfiles
  have hindex : begun.errands.length = 1 := by decide +kernel
  have hfinal : final =
      run takesTime ⟨scanned, begun.errands ++ [.held (renewal [] 250)]⟩ after := by
    rw [← hlisted]
  have hreturned : final.outcome? 1 = some (.ok ()) := by
    rw [hfinal]
    decide +kernel
  have hissued : listed.workspace.cache.issued = 1 := by
    rw [hlisted]
    decide +kernel
  have hheld (progress : Progress Unit)
      (h : listed.errands[begun.errands.length]? = some progress) :
      progress = .held (renewal [] 250) := by
    rw [hlisted, List.getElem?_concat_length] at h
    exact (Option.some.inj h).symm
  have hquiet : ∀ next ∈ after, next.builds = false := by simp [after, Turn.builds]
  obtain ⟨hfound, hcurrent⟩ := outlines_since_rebuild takesTime Session.loaded.workspace
    [.begin (.open Session.firstDocument "# TODO: one\n# FIXME: two" true)]
    [.begin (.survey (.rebuild (some oneLeft)))] after after (some oneLeft) compiles_oneLeft rfl rfl
    hfiles rfl hquiet hheld (hindex ▸ hreturned)
  simp only [Option.getD_some] at hfound
  refine ⟨hreturned, ?_, ?_, ?_⟩
  · rw [hfinal]
    decide +kernel
  · dsimp only [final, listed, begun, registry]
    exact hfound
  · dsimp only [final, listed, begun] at hissued ⊢
    rwa [hissued] at hcurrent

end Workshop

end CommentIndex
