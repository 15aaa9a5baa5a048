import CommentIndex.Proofs.Session.Jumps
import CommentIndex.Proofs.Session.Retention

/-!
# Rebuilds that are refused

A rebuild whose settings leave nothing to search for reports one error, notifies, and keeps the
matcher, the cache and all else that was built from earlier settings. But it takes back that the
workspace has been scanned, although its cache holds what the scan has found. By `rebuild_refused`
documents that are closed later are kept or dropped as they would have been without the rebuild iff
they would not have been kept at the time of the rebuild, or a scan or a rebuild with new settings
has begun since.
-/

namespace CommentIndex

open Activity Workspace

/-! ## What may happen after a rebuild -/

namespace Workshop

/-- Something that happens in a workshop. -/
inductive Occurrence where
  | begin (errand : Errand)
  /-- An errand goes on, if it pauses. -/
  | goOn (index : Nat)
  /-- Something is changed from outside, such as the files, or the time. -/
  | outside (update : Workspace → Workspace)

namespace Occurrence

/-- It does not depend on settings that were refused, and decides nothing about closed documents
from outside. -/
def IsFair : Occurrence → Prop
  | .begin errand => errand ≠ .survey (.rebuild none)
  | .goOn _ => True
  | .outside update => ∀ workspace, (update workspace).retention = workspace.retention

/-- Whether a scan begins, or a rebuild with new settings. -/
def renews : Occurrence → Bool
  | .begin (.survey .scan) | .begin (.survey (.rebuild (some _))) => true
  | _ => false

/-- What decides about closed documents after it. -/
def decide (before : Retention) : Occurrence → Retention
  | .begin (.survey .scan) => { before with isScanned := true }
  | .begin (.survey (.rebuild (some settings))) =>
    ⟨settings.workspace.enabled, scansAtOnce settings, before.root⟩
  | _ => before

theorem decide_of_not_renews {occurrence : Occurrence} (h : occurrence.renews = false)
    (before : Retention) : occurrence.decide before = before := by
  unfold renews at h
  unfold decide
  split <;> simp_all

/-- What renews the decision does not look at whether the workspace was scanned. -/
theorem decide_of_renews {occurrence : Occurrence} (h : occurrence.renews = true)
    (before : Retention) (scanned : Bool) :
    occurrence.decide { before with isScanned := scanned } = occurrence.decide before := by
  unfold renews at h
  unfold decide
  split <;> simp_all

end Occurrence

/-- What decides about closed documents after all that happens. -/
def decideAll (before : Retention) (later : List Occurrence) : Retention :=
  later.foldl (fun retention occurrence => occurrence.decide retention) before

theorem decideAll_of_none {later : List Occurrence}
    (h : ∀ occurrence ∈ later, occurrence.renews = false) (before : Retention) :
    decideAll before later = before := by
  induction later with
  | nil => rfl
  | cons occurrence rest ih =>
      obtain ⟨hfirst, hrest⟩ := List.forall_mem_cons.mp h
      rw [decideAll, List.foldl_cons, Occurrence.decide_of_not_renews hfirst]
      exact ih hrest

theorem decideAll_of_renews {later : List Occurrence}
    (h : ∃ occurrence ∈ later, occurrence.renews = true) (before : Retention) (scanned : Bool) :
    decideAll { before with isScanned := scanned } later = decideAll before later := by
  induction later generalizing before with
  | nil =>
      obtain ⟨occurrence, hmem, -⟩ := h
      exact absurd hmem List.not_mem_nil
  | cons occurrence rest ih =>
      rw [decideAll, decideAll, List.foldl_cons, List.foldl_cons]
      cases hrenews : occurrence.renews with
      | true => rw [Occurrence.decide_of_renews hrenews]
      | false =>
          rw [Occurrence.decide_of_not_renews hrenews, Occurrence.decide_of_not_renews hrenews]
          refine ih ?_ before
          obtain ⟨other, hmem, hother⟩ := h
          rcases List.mem_cons.mp hmem with rfl | hmem
          · exact absurd (hrenews.symm.trans hother) Bool.false_ne_true
          · exact ⟨other, hmem, hother⟩

/-- That a workspace has not been scanned is of no account if nothing would have been kept anyway,
or once the decision has been renewed. -/
theorem retains_decideAll_iff (before : Retention) (later : List Occurrence) (path : Path) :
    (decideAll { before with isScanned := false } later).retains path =
        (decideAll before later).retains path ↔
      before.retains path = false ∨ ∃ occurrence ∈ later, occurrence.renews = true := by
  by_cases hrenews : ∃ occurrence ∈ later, occurrence.renews = true
  · rw [decideAll_of_renews hrenews]
    exact iff_of_true rfl (.inr hrenews)
  · have hnone : ∀ occurrence ∈ later, occurrence.renews = false :=
      fun occurrence hmem => eq_false_of_ne_true fun htrue => hrenews ⟨occurrence, hmem, htrue⟩
    rw [decideAll_of_none hnone, decideAll_of_none hnone, or_iff_left hrenews, eq_comm]
    simp [Retention.retains]

section

variable (holds : Pause → Bool)

/-- A workshop after something has happened. -/
def meet (workshop : Workshop) : Occurrence → Workshop
  | .begin errand => workshop.turn holds (.begin errand)
  | .goOn index => workshop.turn holds (.goOn index)
  | .outside update => { workshop with workspace := update workshop.workspace }

/-- A workshop after several things have happened. -/
def meetAll (workshop : Workshop) (later : List Occurrence) : Workshop :=
  later.foldl (meet holds) workshop

end

variable {holds : Pause → Bool} {workshop : Workshop}

theorem IsCalm.meet (h : workshop.IsCalm) (holds : Pause → Bool) {occurrence : Occurrence}
    (hfair : occurrence.IsFair) :
    (workshop.meet holds occurrence).IsCalm ∧
      (workshop.meet holds occurrence).workspace.retention =
        occurrence.decide workshop.workspace.retention := by
  cases occurrence with
  | goOn index => exact h.goOn holds index
  | outside update => exact ⟨h, hfair workshop.workspace⟩
  | begin errand =>
      obtain ⟨hcalm, hretention⟩ := h.begin holds errand
      refine ⟨hcalm, hretention.trans ?_⟩
      cases errand with
      | survey kind =>
          cases kind with
          | scan => rfl
          | rebuild given =>
              cases given with
              | none => exact absurd rfl hfair
              | some settings => rfl
      | _ => rfl

theorem IsCalm.meetAll (h : workshop.IsCalm) (holds : Pause → Bool) {later : List Occurrence}
    (hfair : ∀ occurrence ∈ later, occurrence.IsFair) :
    (workshop.meetAll holds later).workspace.retention =
      decideAll workshop.workspace.retention later := by
  induction later generalizing workshop with
  | nil => rfl
  | cons occurrence rest ih =>
      obtain ⟨hfirst, hrest⟩ := List.forall_mem_cons.mp hfair
      obtain ⟨hcalm, hretention⟩ := h.meet holds hfirst
      exact (ih hcalm hrest).trans (congrArg (decideAll · rest) hretention)

end Workshop

/-! ## The rebuild -/

namespace Session

/-- Callbacks tell the user nothing. -/
theorem reports_hear_changed (session : Session) :
    (session.hear .changed).reports = session.reports := by
  have hcall (session : Session) (listener : Listener) :
      (session.call listener).reports = session.reports := by
    cases listener with
    | counter number =>
        simp only [call]
        split <;> rfl
    | widget name serial =>
        simp only [call]
        split
        · split <;> rfl
        · rfl
    | panel name serial =>
        simp only [call]
        split
        · split <;> rfl
        · rfl
  unfold hear
  induction session.subscriptions.notified generalizing session with
  | nil => rfl
  | cons listener rest ih => exact (ih (session.call listener)).trans (hcall session listener)

/-- A rebuild whose settings leave nothing to search for reports the error and notifies. -/
theorem run_rebuild_of_refuses (session : Session) (given : Option Settings) {error : MatcherError}
    (h : Refuses (given.getD session.workspace.settings) error) :
    run (rebuild given) session =
      (.ok false,
        ({ session with
            workspace := session.workspace.refused (given.getD session.workspace.settings) }.hear
          (.report ⟨.error, error.message⟩)).hear .changed) := by
  let refused := session.workspace.refused (given.getD session.workspace.settings)
  have hbuild : run build { session with workspace := refused } =
      (.ok false,
        { session with workspace := refused }.hear (.report ⟨.error, error.message⟩)) := by
    unfold Refuses at h
    have hcompile : Matcher.compile
        (.ofSettings refused.settings.tags.listed refused.settings.tags.keyed)
        refused.settings.tags.separators refused.settings.tags.marks refused.settings.tags.endTag
        refused.settings.tags.matchCase = .error error := h
    simp [build, Activity.workspace, Activity.bind, run, hcompile, Activity.report]
  show run (build.bind fun built => _) { session with workspace := refused } = _
  rw [run_bind, hbuild]
  rfl

end Session

namespace Workshop

/-- A rebuild whose settings leave nothing to search for returns `false`, reports one error, and
notifies. It leaves everything but the settings, and that the workspace has been scanned. So while
the settings of the workspace are the same, a document that is closed later is kept or dropped as it
would have been without the rebuild iff it would not have been kept at the time of the rebuild, or a
scan or a rebuild with new settings has begun since. -/
theorem rebuild_refused (holds : Pause → Bool) (start : Workspace) (earlier : List Turn)
    (given : Option Settings) {error : MatcherError} :
    let before := run holds { workspace := start } earlier
    let settings := given.getD before.workspace.settings
    let refused := before.turn holds (.begin (.survey (.rebuild given)))
    Refuses settings error →
    (∀ session : Session, session.workspace = before.workspace →
      let report : Report := ⟨.error, error.message⟩
      let reported :=
        { session with workspace := before.workspace.refused settings }.hear (.report report)
      Session.run (rebuild given) session = (.ok false, reported.hear .changed) ∧
        (reported.hear .changed).workspace = before.workspace.refused settings ∧
        (reported.hear .changed).reports = report :: session.reports) ∧
    refused.workspace = before.workspace.refused settings ∧
    (settings.workspace = before.workspace.settings.workspace →
      ∀ later : List Occurrence, (∀ occurrence ∈ later, occurrence.IsFair) → ∀ path,
        (refused.meetAll holds later).workspace.retains path =
            (before.meetAll holds later).workspace.retains path ↔
          before.workspace.retains path = false ∨
            ∃ occurrence ∈ later, occurrence.renews = true) := by
  intro before settings refused hrefuses
  have hcalm : before.IsCalm :=
    IsCalm.run (fun progress hmem => absurd hmem List.not_mem_nil) holds earlier
  have hrefused : refused.workspace = before.workspace.refused settings := by
    show (((rebuild given).bind fun _ => .done ()).stretch holds before.workspace).2 = _
    rw [stretch_bind, stretch_rebuild_of_refuses holds before.workspace given hrefuses]
    rfl
  refine ⟨?_, hrefused, ?_⟩
  · intro session hsession report reported
    have hrun := session.run_rebuild_of_refuses given (by rw [hsession]; exact hrefuses)
    rw [hsession] at hrun
    exact ⟨hrun, (Session.sameWork_hear reported .changed).workspace,
      Session.reports_hear_changed reported⟩
  · intro hsame later hfair path
    have hretention : refused.workspace.retention =
        { before.workspace.retention with isScanned := false } := by
      rw [hrefused]
      exact congrArg (fun chosen : WorkspaceSettings =>
        (⟨chosen.enabled, false, before.workspace.root⟩ : Retention)) hsame
    rw [retains_eq, retains_eq, retains_eq, (hcalm.begin holds _).1.meetAll holds hfair,
      hcalm.meetAll holds hfair, hretention]
    exact retains_decideAll_iff _ later path

/-- Settings without separators. -/
def noSeparators : Settings where
  tags := { separators := [] }

theorem refuses_noSeparators : Refuses noSeparators .noSeparator := by
  have htokens : (Matcher.tokensOf
      (.ofSettings noSeparators.tags.listed noSeparators.tags.keyed)
      noSeparators.tags.endTag).isEmpty = false := by
    decide +kernel
  unfold Refuses Matcher.compile
  simp only [htokens, Bool.false_eq_true, if_false]
  rfl

/-- After a rebuild without separators, a document of the workspace is not kept when it is closed,
although the workspace has been scanned; once it has been scanned again, it is. -/
theorem rebuild_refused_without_separators :
    let scanned := Session.withFile.workspace
    let refused := turn takesTime ⟨scanned, []⟩ (.begin (.survey (.rebuild (some noSeparators))))
    let edit : Occurrence := .begin (.edit Session.firstDocument "# TODO: edited")
    let scan : Occurrence := .begin (.survey .scan)
    scanned.retains Session.firstDocument = true ∧
      (refused.meetAll takesTime [edit]).workspace.retains Session.firstDocument ≠
        (meetAll takesTime ⟨scanned, []⟩ [edit]).workspace.retains Session.firstDocument ∧
      (refused.meetAll takesTime [edit, scan]).workspace.retains Session.firstDocument =
        (meetAll takesTime ⟨scanned, []⟩ [edit, scan]).workspace.retains
          Session.firstDocument := by
  intro scanned refused edit scan
  have hretains : scanned.retains Session.firstDocument = true := by decide +kernel
  obtain ⟨-, -, hlater⟩ := rebuild_refused takesTime scanned [] (some noSeparators)
    refuses_noSeparators
  have hedit : edit.IsFair := by simp [edit, Occurrence.IsFair]
  have hscan : scan.IsFair := by simp [scan, Occurrence.IsFair]
  refine ⟨hretains, fun hsame => ?_, ?_⟩
  · rcases (hlater rfl [edit] (by simpa using hedit) _).mp hsame with hnot | ⟨other, hmem, hrenews⟩
    · exact Bool.false_ne_true (hnot.symm.trans hretains)
    · obtain rfl := List.mem_singleton.mp hmem
      exact Bool.false_ne_true hrenews
  · refine (hlater rfl [edit, scan] ?_ _).mpr (.inr ⟨scan, by simp, rfl⟩)
    simpa using ⟨hedit, hscan⟩

/-- A document is read and the workspace counts as scanned. If a rebuild without separators is
refused, the document is dropped when it is closed, and without the rebuild it is kept. -/
theorem dropped_after_refusal :
    let read := (Session.run (replace Session.firstDocument) Session.withFile).2
    let refusal := Session.run (rebuild (some noSeparators)) read
    let close (session : Session) :=
      (Session.run (closeDocument Session.firstDocument) session).2.workspace
    let texts (outline : Outline) := outline.flatten.map (·.facts.text)
    refusal.1 = .ok false ∧ read.workspace.isScanned = true ∧
      refusal.2.workspace.isScanned = false ∧
      ((close read).lookup? Session.firstDocument).toOption.join.map texts = some ["disk"] ∧
      ((close refusal.2).lookup? Session.firstDocument).toOption.join.map texts = none := by
  decide +kernel

end Workshop

end CommentIndex
