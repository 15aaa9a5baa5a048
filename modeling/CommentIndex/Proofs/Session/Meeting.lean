import CommentIndex.Proofs.Session.Edits
import CommentIndex.Proofs.Session.Survey

/-!
# A survey and the focus

A `Meeting` is one survey and any number of changes of the focus, all of which may be under way at
once: whenever one of them pauses, any of them may have its turn. The survey ends if it has its turn
often enough (`exists_outcome`). By `loaded_and_cached_iff`, the workspace is loaded then and the
document that has the focus is cached, unless the focus was given at a time when the survey did not
look for it any more and the workspace was not loaded yet.
-/

namespace CommentIndex

open Activity Workspace

/-- A survey and changes of the focus. -/
structure Meeting where
  workspace : Workspace
  /-- How far the survey has got, if it has begun. -/
  survey : Option (Progress Unit) := none
  /-- The changes of the focus that wait for a text. -/
  changes : List (Activity Unit) := []

namespace Meeting

/-- Whose turn it is. -/
inductive Turn where
  /-- The survey begins or goes on. -/
  | survey
  /-- The focus is given to a document or to none. -/
  | focus (path : Option Path)
  /-- A change of the focus goes on. -/
  | change (index : Nat)
deriving DecidableEq, Repr

section

variable (survey : Survey) (holds : Pause → Bool)

/-- The meeting after a stretch of the survey. -/
def goOn (meeting : Meeting) (activity : Activity Unit) : Meeting :=
  let (progress, after) := activity.stretch holds meeting.workspace
  { meeting with workspace := after, survey := some progress }

/-- The meeting after a stretch of a change of the focus. -/
def goOnChange (meeting : Meeting) (activity : Activity Unit) : Meeting :=
  let (progress, after) := activity.stretch holds meeting.workspace
  match progress with
  | .held rest => { meeting with workspace := after, changes := meeting.changes ++ [rest] }
  | .finished _ => { meeting with workspace := after }

/-- Takes one turn. -/
def turn (meeting : Meeting) : Turn → Meeting
  | .survey =>
    match meeting.survey with
    | none => meeting.goOn holds survey.activity
    | some (.held rest) => meeting.goOn holds rest
    | some (.finished _) => meeting
  | .focus path => meeting.goOnChange holds (setActive path)
  | .change index =>
    match meeting.changes[index]? with
    | some rest =>
      { meeting with changes := meeting.changes.eraseIdx index }.goOnChange holds rest
    | none => meeting

/-- Takes turns in order. -/
def run (meeting : Meeting) (turns : List Turn) : Meeting :=
  turns.foldl (turn survey holds) meeting

/-- Whether the document that has the focus is stranded after a turn; `known` tells whether one was
before. -/
def strandedBy (meeting : Meeting) (known : Bool) : Turn → Bool
  | .focus path => Survey.strands meeting.survey meeting.workspace path
  | _ => known

/-- Whether the document that has the focus is stranded in the end. -/
def stranded (meeting : Meeting) (known : Bool) : List Turn → Bool
  | [] => known
  | next :: rest =>
    stranded (meeting.turn survey holds next) (meeting.strandedBy known next) rest

end

/-- What the survey has given, if it has ended. -/
def outcome? (meeting : Meeting) : Option (Outcome Unit) :=
  match meeting.survey with
  | some (.finished outcome) => some outcome
  | _ => none

/-- A survey that has given something has ended. -/
theorem survey_of_outcome? {meeting : Meeting} {outcome : Outcome Unit}
    (h : meeting.outcome? = some outcome) : meeting.survey = some (.finished outcome) := by
  unfold outcome? at h
  split at h
  · next heq => rw [heq, Option.some.inj h]
  · contradiction

/-- A survey that goes on has ended after some more turns of its own. -/
theorem exists_outcome_goOn (survey : Survey) (holds : Pause → Bool) (activity : Activity Unit)
    (meeting : Meeting) :
    ∃ count, ((meeting.goOn holds activity).run survey holds
      (List.replicate count .survey)).outcome?.isSome := by
  induction activity generalizing meeting with
  | done result => exact ⟨0, rfl⟩
  | fail error => exact ⟨0, rfl⟩
  | act update next ih =>
      exact ih meeting.workspace { meeting with workspace := update meeting.workspace }
  | tell signal next ih => exact ih meeting
  | pause reason next ih =>
      by_cases hreason : holds reason
      · obtain ⟨count, hcount⟩ := ih { meeting with survey := some (.held next) }
        have hheld : meeting.goOn holds (.pause reason next) =
            { meeting with survey := some (.held next) } := by
          simp [goOn, Activity.stretch, hreason]
        -- The turn that ends the pause is one more.
        refine ⟨count + 1, ?_⟩
        rw [hheld, List.replicate_succ]
        exact hcount
      · obtain ⟨count, hcount⟩ := ih meeting
        have hnext : meeting.goOn holds (.pause reason next) = meeting.goOn holds next := by
          simp [goOn, Activity.stretch, hreason]
        exact ⟨count, hnext ▸ hcount⟩

/-- Whatever has happened, the survey ends if it has its turn often enough. -/
theorem exists_outcome (survey : Survey) (holds : Pause → Bool) (meeting : Meeting) :
    ∃ count, (meeting.run survey holds (List.replicate count .survey)).outcome?.isSome := by
  cases hsurvey : meeting.survey with
  | none =>
      obtain ⟨count, hcount⟩ := exists_outcome_goOn survey holds survey.activity meeting
      refine ⟨count + 1, ?_⟩
      rw [List.replicate_succ, run, List.foldl_cons, turn, hsurvey]
      exact hcount
  | some progress =>
      cases progress with
      | finished outcome => exact ⟨0, by simp [run, outcome?, hsurvey]⟩
      | held rest =>
          obtain ⟨count, hcount⟩ := exists_outcome_goOn survey holds rest meeting
          refine ⟨count + 1, ?_⟩
          rw [List.replicate_succ, run, List.foldl_cons, turn, hsurvey]
          exact hcount

/-- What holds of a meeting at every turn. -/
structure Standing (file : Path → Path) (base : Nat) (Meant : Path → Prop) (survey : Survey)
    (meeting : Meeting) (stranded : Bool) : Prop where
  changes : ∀ rest ∈ meeting.changes, Ends file base id rest
  waiting : meeting.survey = none →
    Tended file base Meant meeting.workspace ∧ survey.Scans meeting.workspace ∧ stranded = false
  begun : ∀ progress, meeting.survey = some progress →
    Survey.Stage file base Meant (progress, meeting.workspace) stranded

variable {file : Path → Path} {base : Nat} {Meant : Path → Prop} {survey : Survey}
  {meeting : Meeting} {known : Bool} {holds : Pause → Bool}

/-- A survey that has got to a stage takes its place. -/
theorem Standing.goOn (h : Standing file base Meant survey meeting known)
    {activity : Activity Unit}
    (hstage : Survey.Stage file base Meant (activity.stretch holds meeting.workspace) known) :
    Standing file base Meant survey (meeting.goOn holds activity) known where
  changes := h.changes
  waiting := fun hnone => nomatch hnone
  begun := fun progress hprogress => by
    obtain rfl := Option.some.inj hprogress
    exact hstage

/-- Documents can be read in the workspace of a meeting. -/
theorem Standing.tended (h : Standing file base Meant survey meeting known) :
    Tended file base Meant meeting.workspace := by
  cases hsurvey : meeting.survey with
  | none => exact (h.waiting hsurvey).1
  | some progress => exact (h.begun progress hsurvey).tended

/-- What holds of a meeting holds after a turn of the survey. -/
theorem Standing.turnSurvey (h : Standing file base Meant survey meeting known) :
    Standing file base Meant survey (meeting.turn survey holds .survey) known := by
  simp only [turn]
  split
  · next hnone =>
      obtain ⟨htended, hscans, rfl⟩ := h.waiting hnone
      exact h.goOn (Survey.stage_activity htended hscans holds)
  · next rest hheld => exact h.goOn ((h.begun _ hheld).goOn holds)
  · exact h

/-- It holds after the focus has moved. -/
theorem Standing.turnFocus (h : Standing file base Meant survey meeting known)
    {focus : Option Path} (hmeant : ∀ path, focus = some path → Meant path) :
    Standing file base Meant survey (meeting.turn survey holds (.focus focus))
      (Survey.strands meeting.survey meeting.workspace focus) := by
  obtain ⟨cache, hmoves⟩ := h.tended.setActive hmeant holds
  have hturn : meeting.turn survey holds (.focus focus) =
      meeting.goOnChange holds (setActive focus) := rfl
  rw [hturn, goOnChange]
  generalize (setActive focus).stretch holds meeting.workspace = result at hmoves
  have hwaiting (hnone : meeting.survey = none) :
      Tended file base Meant result.2 ∧ survey.Scans result.2 ∧
        Survey.strands meeting.survey meeting.workspace focus = false := by
    obtain ⟨htended, hscans, -⟩ := h.waiting hnone
    rw [hmoves.after, hnone]
    refine ⟨htended.withFocus hmeant hmoves.tidy, ?_, rfl⟩
    cases survey <;> exact hscans
  have hbegun (progress : Progress Unit) (hprogress : meeting.survey = some progress) :
      Survey.Stage file base Meant (progress, result.2)
        (Survey.strands meeting.survey meeting.workspace focus) := by
    rw [hprogress]
    exact (h.begun progress hprogress).focus hmeant hmoves
  obtain ⟨progress, after⟩ := result
  cases progress with
  | finished outcome => exact ⟨h.changes, hwaiting, hbegun⟩
  | held rest =>
      refine ⟨fun other hother => ?_, hwaiting, hbegun⟩
      rcases List.mem_append.mp hother with hold | hnew
      · exact h.changes other hold
      · obtain rfl := List.mem_singleton.mp hnew
        exact hmoves.ends other rfl

/-- It holds after a change of the focus has gone on. -/
theorem Standing.turnChange (h : Standing file base Meant survey meeting known) (index : Nat) :
    Standing file base Meant survey (meeting.turn survey holds (.change index)) known := by
  simp only [turn]
  split
  · next rest hrest =>
      obtain ⟨attempt, hsince, hends⟩ := h.changes rest (List.mem_of_getElem? hrest)
      obtain ⟨result, hend⟩ := hends holds meeting.workspace h.tended.names
      simp only [goOnChange, hend]
      refine ⟨fun other hother => h.changes other (List.mem_of_mem_eraseIdx hother), ?_, ?_⟩
      · intro hnone
        obtain ⟨htended, hscans, hknown⟩ := h.waiting hnone
        refine ⟨htended.withCache (htended.tidy.ended hsince result), ?_, hknown⟩
        cases survey <;> exact hscans
      · intro progress hprogress
        exact (h.begun progress hprogress).ended hsince result
  · exact h

/-- It holds after every turn. -/
theorem Standing.turn (h : Standing file base Meant survey meeting known) {next : Turn}
    (hmeant : ∀ path, next = .focus (some path) → Meant path) :
    Standing file base Meant survey (meeting.turn survey holds next)
      (meeting.strandedBy known next) := by
  cases next with
  | survey => exact h.turnSurvey
  | focus path => exact h.turnFocus fun other hother => hmeant other (congrArg _ hother)
  | change index => exact h.turnChange index

/-- It holds in the end. -/
theorem Standing.run (h : Standing file base Meant survey meeting known) {turns : List Turn}
    (hmeant : ∀ path, .focus (some path) ∈ turns → Meant path) :
    Standing file base Meant survey (meeting.run survey holds turns)
      (meeting.stranded survey holds known turns) := by
  induction turns generalizing meeting known with
  | nil => exact h
  | cons next rest ih =>
      refine ih (h.turn fun path hpath => ?_) fun path hpath => ?_
      · exact hmeant path (hpath ▸ List.mem_cons_self)
      · exact hmeant path (List.mem_cons_of_mem _ hpath)

/-- However a survey and changes of the focus have their turns, once the survey has ended the
workspace is loaded and the document that has the focus is cached if and only if the survey has not
failed, the document can be read, and it is not stranded. The survey only fails if a document had
the focus that cannot be read. The cache may be any that readings leave (`Traffic.tidy_run`). -/
theorem loaded_and_cached_iff {start : Workspace} (hmatcher : start.matcher.isSome)
    (htidy : Traffic.Tidy start.disk.real start.cache.issued start.cache)
    (hscans : survey.Scans start) (holds : Pause → Bool) (turns : List Turn)
    {outcome : Outcome Unit}
    (hended : (run survey holds { workspace := start } turns).outcome? = some outcome) :
    let final := (run survey holds { workspace := start } turns).workspace
    (final.isLoaded = true ∧
        (∀ path, final.active = some path → final.isCached path = .ok true) ↔
      outcome = .ok () ∧ (∀ path, final.active = some path → path.isUnusable = false) ∧
        stranded survey holds { workspace := start } false turns = false) ∧
    (outcome ≠ .ok () →
      ∃ path, path.isUnusable ∧ (start.active = some path ∨ .focus (some path) ∈ turns)) := by
  intro final
  let Meant (path : Path) : Prop := start.active = some path ∨ .focus (some path) ∈ turns
  have hstart : Standing start.disk.real start.cache.issued Meant survey { workspace := start }
      false :=
    ⟨by simp, fun _ => ⟨⟨fun _ _ => rfl, hmatcher, htidy, fun _ h => .inl h⟩, hscans, rfl⟩,
      by simp⟩
  have hmeant (path : Path) (hpath : .focus (some path) ∈ turns) : Meant path := .inr hpath
  have hstanding : Standing _ _ Meant survey (run survey holds { workspace := start } turns)
      (stranded survey holds { workspace := start } false turns) := hstart.run hmeant
  have hstage := hstanding.begun _ (survey_of_outcome? hended)
  generalize stranded survey holds { workspace := start } false turns = left at hstage
  cases hstage with
  | closed tended loaded served => simp [final, loaded, served.cached_iff tended]
  | failed tended loaded path meant unusable =>
      simp only [final, loaded]
      exact ⟨by simp, fun _ => ⟨path, unusable, meant⟩⟩

/-! ## Two documents -/

/-- A workspace without files that is not loaded yet. -/
def fresh : Workspace :=
  { Session.loaded.workspace with isLoaded := false }

/-- Files are read, and listed, while other things go on. -/
def takesTime (reason : Pause) : Bool :=
  reason = .file || reason = .listing

/-- The focus moves while files are listed, and again once the workspace is loaded. -/
theorem loaded_and_cached_after_moves :
    let turns : List Turn :=
      [.focus (some Session.firstDocument), .survey, .focus (some Session.secondDocument), .survey,
        .survey, .focus (some Session.firstDocument), .change 0]
    let final := (run .scan takesTime { workspace := fresh } turns).workspace
    final.isLoaded = true ∧ ∀ path, final.active = some path → final.isCached path = .ok true := by
  intro turns final
  have htidy : Traffic.Tidy fresh.disk.real fresh.cache.issued fresh.cache :=
    Traffic.tidy_run fresh.disk.real []
  have hscans : Survey.scan.Scans fresh := trivial
  have hended : (run .scan takesTime { workspace := fresh } turns).outcome? = some (.ok ()) := by
    decide +kernel
  have hserved : stranded .scan takesTime { workspace := fresh } false turns = false := by
    decide +kernel
  have hfocus : final.active = some Session.firstDocument := by decide +kernel
  refine (loaded_and_cached_iff rfl htidy hscans takesTime turns hended).1.mpr
    ⟨rfl, fun path hpath => ?_, hserved⟩
  obtain rfl := Option.some.inj (hfocus.symm.trans hpath)
  decide

/-- The focus moves while the document is read that had it when the files had been read: the
workspace gets loaded, and the document that has the focus now is not read. And if it is a document
that cannot be read which had the focus then, the workspace is not loaded at all. -/
theorem focus_left_unread :
    let late := run .scan takesTime { workspace := fresh }
      [.focus (some Session.firstDocument), .survey, .survey,
        .focus (some Session.secondDocument), .survey]
    let unusable := run .scan takesTime { workspace := fresh }
      [.focus (some (.absolute ["a\u0000b"])), .survey, .survey]
    (late.outcome? = some (.ok ()) ∧ late.changes.length = 0 ∧ late.workspace.isLoaded = true ∧
        late.workspace.active = some Session.secondDocument ∧
        late.workspace.isCached Session.secondDocument = .ok false) ∧
      unusable.outcome? = some (.error .unusablePath) ∧ unusable.workspace.isLoaded = false := by
  decide +kernel

end Meeting

end CommentIndex
