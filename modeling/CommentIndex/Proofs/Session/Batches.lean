import CommentIndex.Proofs.Session.Jumps
import CommentIndex.Proofs.Session.Sources
import Mathlib.Algebra.Order.Field.Rat

/-!
# Reading files in batches

A scan reads the files of a list in turn, with a rest in front of every batch, and stops once it has
found anchors in as many of them as it may. `turns` reads all files of a list, whatever comes of
each; by `run_readFilesFrom` a scan does with a list what `turns` does with a beginning of it. This
beginning is the shortest with enough finds, and nothing but the finds in it are counted and told as
progress (`readFilesFrom_shortest`).
-/

namespace CommentIndex

variable {α β : Type}

namespace Activity

/-! ## Activities that tell of no progress -/

/-- An activity that tells of no progress. -/
def IsQuiet : Activity α → Prop
  | .done _ => True
  | .fail _ => True
  | .act _ next => ∀ workspace, (next workspace).IsQuiet
  | .tell signal next => (∀ found total, signal ≠ .progress found total) ∧ next.IsQuiet
  | .pause _ next => next.IsQuiet

theorem IsPlain.isQuiet {activity : Activity α} (h : activity.IsPlain) : activity.IsQuiet := by
  induction activity with
  | done result => trivial
  | fail error => trivial
  | act update next ih => exact fun workspace => ih workspace (h workspace)
  | tell signal next ih => exact ⟨h.1, ih h.2⟩
  | pause reason next ih => exact ih h.2

end Activity

namespace Session

open Workspace

/-! ## Progress in a session -/

/-- Callbacks tell of no progress. -/
theorem progress_call (session : Session) (listener : Listener) :
    (session.call listener).progress = session.progress := by
  cases listener with
  | counter number => simp only [call]; split <;> rfl
  | widget name serial => simp only [call]; split <;> [split; skip] <;> rfl
  | panel name serial => simp only [call]; split <;> [split; skip] <;> rfl

/-- Only a signal of progress tells of progress. -/
theorem progress_hear (session : Session) {signal : Signal}
    (h : ∀ found total, signal ≠ .progress found total) :
    (session.hear signal).progress = session.progress := by
  cases signal with
  | report report => rfl
  | progress found total => exact absurd rfl (h found total)
  | changed =>
      unfold hear
      induction session.subscriptions.notified generalizing session with
      | nil => rfl
      | cons listener rest ih =>
          exact (ih (session.call listener)).trans (session.progress_call listener)

/-- What is done at one stretch tells of no progress if the activity does not. -/
theorem progress_runAtOnce {activity : Activity α} (h : activity.IsQuiet) (session : Session) :
    (runAtOnce activity session).2.progress = session.progress := by
  induction activity generalizing session with
  | done result => rfl
  | fail error => rfl
  | act update next ih => exact ih session.workspace (h session.workspace) _
  | tell signal next ih => exact (ih h.2 (session.hear signal)).trans (session.progress_hear h.1)
  | pause reason next ih =>
      unfold runAtOnce
      split
      · rfl
      · exact ih h session

/-- How far a task got tells of no progress of a scan. -/
theorem progress_note (session : Session) (number : Option Nat) (far : Progress (Option Bool)) :
    (session.note number far).progress = session.progress := by
  unfold note
  split
  · rfl
  · split <;> rfl

/-- Timers tell of no progress. -/
theorem progress_expire (session : Session) (timer : Timer Nat) (others : Debouncer Nat) :
    (session.expire timer others).progress = session.progress := by
  unfold expire
  dsimp only
  split
  · have hplain : (refreshActive.bind fun _ => .done (none : Option Bool)).IsPlain :=
      isPlain_refreshActive.bind fun _ => trivial
    exact (progress_note ..).trans (progress_runAtOnce hplain.isQuiet _)
  · rfl

theorem progress_expireTo (limit count : Nat) (session : Session) :
    (expireTo limit count session).progress = session.progress := by
  induction count generalizing session with
  | zero => rfl
  | succ count ih =>
      unfold expireTo
      split
      · exact (ih _).trans (session.progress_expire _ _)
      · rfl

/-- Time tells of no progress. -/
theorem progress_advance (session : Session) (milliseconds : Nat) :
    (session.advance milliseconds).progress = session.progress :=
  progress_expireTo ..

/-- What is done tells of no progress if the activity does not. -/
theorem progress_run {activity : Activity α} (h : activity.IsQuiet) (session : Session) :
    (run activity session).2.progress = session.progress := by
  induction activity generalizing session with
  | done result => rfl
  | fail error => rfl
  | act update next ih => exact ih session.workspace (h session.workspace) _
  | tell signal next ih => exact (ih h.2 (session.hear signal)).trans (session.progress_hear h.1)
  | pause reason next ih =>
      cases reason with
      | rest milliseconds => exact (ih h _).trans (session.progress_advance milliseconds)
      | buffer => exact ih h session
      | file => exact ih h session
      | listing => exact ih h session

/-! ## Reading one file after another -/

/-- An activity whose error is a result gives what the activity gives. -/
theorem run_attempt (activity : Activity α) (session : Session) :
    run activity.attempt session = (.ok (run activity session).1, (run activity session).2) := by
  induction activity generalizing session with
  | done result => rfl
  | fail error => rfl
  | act update next ih => exact ih session.workspace _
  | tell signal next ih => exact ih (session.hear signal)
  | pause reason next ih =>
      cases reason with
      | rest milliseconds => exact ih (session.advance milliseconds)
      | buffer => exact ih session
      | file => exact ih session
      | listing => exact ih session

/-- Whether a reading found anchors. One that failed did not. -/
def isFind : Outcome Bool → Bool
  | .ok found => found
  | .error _ => false

/-- A session in which it is the turn of the file of an index: there is a rest in front of every
batch. -/
def rested (session : Session) (index : Nat) : Session :=
  if index % batchSize = 0 then session.advance restLength else session

variable (read : Path → Activity Bool) (total : Nat)

/-- What reading the file of an index gives, when some have been found, and the session after it; a
find is told as progress. -/
def turn (index found : Nat) (path : Path) (session : Session) : Outcome Bool × Session :=
  let (outcome, after) := run (read path) (session.rested index)
  (outcome, if isFind outcome then after.hear (.progress (found + 1) total) else after)

/-- What reading the files of a list one after another gives, whatever comes of each, and the
session after that. -/
def turns (index found : Nat) : List Path → Session → List (Outcome Bool) × Session
  | [], session => ([], session)
  | path :: rest, session =>
    let (outcome, after) := turn read total index found path session
    let (outcomes, last) := turns (index + 1) (found + (isFind outcome).toNat) rest after
    (outcome :: outcomes, last)

/-- A scan with files left either has enough finds or takes the next turn. -/
theorem run_readFilesFrom_cons (most : Int) (index found : Nat) (path : Path) (rest : List Path)
    (session : Session) :
    run (readFilesFrom read most total index found (path :: rest)) session =
      if most ≤ found then (.ok found, session)
      else
        let (outcome, after) := turn read total index found path session
        run (readFilesFrom read most total (index + 1) (found + (isFind outcome).toNat) rest)
          after := by
  rw [readFilesFrom]
  simp only [Activity.bind_eq, Activity.pure_eq]
  by_cases henough : most ≤ found
  · rw [if_pos henough, if_pos henough]
    rfl
  · rw [if_neg henough, if_neg henough]
    have hrested : ∀ next : Activity Nat,
        run (if index % batchSize = 0 then (Activity.wait (.rest restLength)).bind fun _ => next
          else next) session = run next (session.rested index) := by
      intro next
      unfold rested
      split <;> rfl
    refine (hrested _).trans ?_
    rw [run_bind, run_attempt, turn]
    generalize run (read path) (session.rested index) = result
    obtain ⟨outcome, after⟩ := result
    cases outcome with
    | error error => rfl
    | ok anchors => cases anchors <;> rfl

/-- Every file of the list has its turn once. -/
theorem length_turns (index found : Nat) (paths : List Path) (session : Session) :
    (turns read total index found paths session).1.length = paths.length := by
  induction paths generalizing index found session with
  | nil => rfl
  | cons path rest ih => exact congrArg Nat.succ (ih ..)

/-- One more outcome is one more find if anchors were found. -/
theorem countP_isFind_cons (outcome : Outcome Bool) (outcomes : List (Outcome Bool)) :
    (outcome :: outcomes).countP isFind = (isFind outcome).toNat + outcomes.countP isFind := by
  cases h : isFind outcome with
  | true => rw [List.countP_cons_of_pos h, Bool.toNat_true, Nat.add_comm]
  | false =>
      rw [List.countP_cons_of_neg (ne_true_of_eq_false h), Bool.toNat_false, Nat.zero_add]

/-- What a scan read with the given outcomes is the shortest beginning of its list with as many
finds as are wanted: there are too few in every shorter one, and enough in it unless no file is
left. -/
structure IsShortest (most : Int) (outcomes : List (Outcome Bool)) (left : List Path) : Prop where
  short : ∀ count < outcomes.length, ((outcomes.take count).countP isFind : Int) < most
  enough : left = [] ∨ most ≤ outcomes.countP isFind

/-- With one more outcome in front, as many finds as before are wanted and those in front. -/
theorem IsShortest.cons {most : Int} {outcomes : List (Outcome Bool)} {left : List Path}
    {outcome : Outcome Bool} (hmost : 0 < most)
    (h : IsShortest (most - (isFind outcome).toNat) outcomes left) :
    IsShortest most (outcome :: outcomes) left where
  short := by
    intro count hcount
    cases count with
    | zero => exact hmost
    | succ count =>
        have hshort := h.short count (Nat.lt_of_succ_lt_succ hcount)
        rw [List.take_succ_cons, countP_isFind_cons]
        omega
  enough := by
    refine h.enough.imp_right fun henough => ?_
    rw [countP_isFind_cons]
    omega

/-- No more finds are counted than are wanted. -/
theorem IsShortest.countP_le {most : Int} {outcomes : List (Outcome Bool)} {left : List Path}
    (h : IsShortest most outcomes left) : (outcomes.countP isFind : Int) ≤ max most 0 := by
  rcases List.eq_nil_or_concat' outcomes with rfl | ⟨before, last, rfl⟩
  · exact Int.le_max_right ..
  · have hshort := h.short before.length (by simp)
    rw [List.take_left] at hshort
    have hlast : (before ++ [last]).countP isFind ≤ before.countP isFind + 1 := by
      rw [List.countP_append, countP_isFind_cons, List.countP_nil]
      exact Nat.add_le_add_left (Bool.toNat_le _) _
    omega

/-- A scan gives every file of a beginning of its list its turn, counts the finds among them, and
stops when there are enough or no file is left. -/
theorem run_readFilesFrom (most : Int) (index found : Nat) (paths : List Path)
    (session : Session) :
    ∃ behind left, behind ++ left = paths ∧
      let (outcomes, after) := turns read total index found behind session
      run (readFilesFrom read most total index found paths) session =
          (.ok (found + outcomes.countP isFind), after) ∧
        IsShortest (most - found) outcomes left := by
  induction paths generalizing index found session with
  | nil => exact ⟨[], [], rfl, rfl, fun _ hcount => absurd hcount (Nat.not_lt_zero _), .inl rfl⟩
  | cons path rest ih =>
      rw [run_readFilesFrom_cons]
      by_cases henough : most ≤ found
      · refine ⟨[], path :: rest, rfl, if_pos henough, ?_, .inr ?_⟩
        · exact fun _ hcount => absurd hcount (Nat.not_lt_zero _)
        · show most - found ≤ ((0 : Nat) : Int)
          omega
      · rw [if_neg henough]
        obtain ⟨behind, left, rfl, hrun, hshortest⟩ := ih (index + 1)
          (found + (isFind (turn read total index found path session).1).toNat)
          (turn read total index found path session).2
        refine ⟨path :: behind, left, rfl, ?_, .cons (by omega) ?_⟩
        · show _ = (Except.ok (found + List.countP isFind (_ :: _)), _)
          rw [countP_isFind_cons, ← Nat.add_assoc]
          exact hrun
        · rw [Int.natCast_add, ← Int.sub_sub] at hshortest
          exact hshortest

/-- If the reading tells of no progress itself, then a turn tells of progress if it is a find. -/
theorem progress_turn (hquiet : ∀ path, (read path).IsQuiet) (index found : Nat) (path : Path)
    (session : Session) :
    (turn read total index found path session).2.progress =
      (if isFind (turn read total index found path session).1 then [(found + 1, total)] else []) ++
        session.progress := by
  have hrested : (session.rested index).progress = session.progress := by
    unfold rested
    split
    · exact session.progress_advance _
    · rfl
  have hread := (progress_run (hquiet path) (session.rested index)).trans hrested
  show Session.progress (if isFind (run (read path) (session.rested index)).1 then _ else _) =
    (if isFind (run (read path) (session.rested index)).1 then _ else _) ++ _
  by_cases hfind : isFind (run (read path) (session.rested index)).1
  · rw [if_pos hfind, if_pos hfind]
    exact congrArg ((found + 1, total) :: ·) hread
  · rw [if_neg hfind, if_neg hfind]
    exact hread

/-- If the readings tell of no progress themselves, then the progress told is that of the finds, one
after another. -/
theorem progress_turns (hquiet : ∀ path, (read path).IsQuiet) (index found : Nat)
    (paths : List Path) (session : Session) :
    (turns read total index found paths session).2.progress =
      ((List.range' (found + 1)
          ((turns read total index found paths session).1.countP isFind)).map (·, total)).reverse ++
        session.progress := by
  induction paths generalizing index found session with
  | nil => rfl
  | cons path rest ih =>
      simp only [turns]
      rw [ih, progress_turn read total hquiet, countP_isFind_cons]
      cases isFind (turn read total index found path session).1 with
      | true =>
          rw [Bool.toNat_true, Nat.add_comm 1, List.range'_succ, List.map_cons,
            List.reverse_cons, List.append_assoc]
          rfl
      | false =>
          rw [Bool.toNat_false, Nat.zero_add]
          rfl

/-- The share of the files that a progress tells of. -/
def share (progress : Nat × Nat) : ℚ :=
  progress.1 / progress.2

/-- The shares of the first finds increase and are positive, and none is more than the whole. -/
theorem share_increases {count total : Nat} (h : count ≤ total) :
    let shares := (List.range' 1 count).map fun number => share (number, total)
    shares.Pairwise (· < ·) ∧ ∀ value ∈ shares, 0 < value ∧ value ≤ 1 := by
  intro shares
  have hnumber : ∀ number ∈ List.range' 1 count, 0 < number ∧ number ≤ total := by
    intro number hnumber
    rw [List.mem_range'_1] at hnumber
    omega
  have htotal : ∀ number ∈ List.range' 1 count, 0 < (total : ℚ) := by
    intro number hmem
    have hpositive := hnumber number hmem
    exact_mod_cast hpositive.1.trans_le hpositive.2
  constructor
  · refine List.pairwise_map.mpr (List.Pairwise.imp_of_mem ?_ List.pairwise_lt_range')
    intro first second hfirst _ hlt
    exact div_lt_div_of_pos_right (Nat.cast_lt.mpr hlt) (htotal first hfirst)
  · intro value hvalue
    obtain ⟨number, hmem, rfl⟩ := List.mem_map.mp hvalue
    have hpositive := hnumber number hmem
    refine ⟨div_pos (Nat.cast_pos.mpr hpositive.1) (htotal number hmem), ?_⟩
    exact div_le_one_of_le₀ (Nat.cast_le.mpr hpositive.2) (htotal number hmem).le

/-- A scan of a list reads the files of the shortest beginning with as many finds as are wanted,
each in its turn and none beyond, whatever comes of them. It counts the finds, and tells of each in
turn as progress, in shares of the list that increase up to the whole at most. -/
theorem readFilesFrom_shortest (hquiet : ∀ path, (read path).IsQuiet) (most : Int)
    (paths : List Path) (session : Session) :
    ∃ behind left outcomes after, behind ++ left = paths ∧
      turns read paths.length 0 0 behind session = (outcomes, after) ∧
      outcomes.length = behind.length ∧ IsShortest most outcomes left ∧
      (most ≤ 0 → behind = []) ∧ (left ≠ [] → (outcomes.countP isFind : Int) = max most 0) ∧
      run (readFilesFrom read most paths.length 0 0 paths) session =
        (.ok (outcomes.countP isFind), after) ∧
      ∃ told, after.progress = told.reverse ++ session.progress ∧
        told = (List.range' 1 (outcomes.countP isFind)).map (·, paths.length) ∧
        (told.map share).Pairwise (· < ·) ∧ ∀ value ∈ told.map share, 0 < value ∧ value ≤ 1 := by
  obtain ⟨behind, left, hpaths, hrun, hshortest⟩ :=
    run_readFilesFrom read paths.length most 0 0 paths session
  have hlength := length_turns read paths.length 0 0 behind session
  have hprogress := progress_turns read paths.length hquiet 0 0 behind session
  generalize hresult : turns read paths.length 0 0 behind session = result at *
  obtain ⟨outcomes, after⟩ := result
  dsimp only at hrun hshortest hlength hprogress
  rw [Nat.zero_add] at hrun hprogress
  rw [Int.natCast_zero, Int.sub_zero] at hshortest
  refine ⟨behind, left, outcomes, after, hpaths, hresult, hlength, hshortest, ?_, ?_, hrun, _,
    hprogress, rfl, ?_⟩
  · intro hmost
    by_contra hbehind
    have hfirst := hshortest.short 0 (hlength ▸ List.length_pos_iff.mpr hbehind)
    rw [List.take_zero, List.countP_nil] at hfirst
    omega
  · intro hleft
    have henough := hshortest.enough.resolve_left hleft
    have hbound := hshortest.countP_le
    omega
  · rw [List.map_map]
    refine share_increases ?_
    have hcount : outcomes.countP isFind ≤ outcomes.length := List.countP_le_length
    have hbegin := congrArg List.length hpaths
    rw [List.length_append] at hbegin
    omega

/-- Files of which one has a name that no file has, one is missing, and one has an anchor in it. The
scan goes on after the first two and stops at the third. -/
theorem readFilesFrom_shortest_of_three_kinds :
    let file name := Path.absolute ["ws", name]
    let paths := [file "a\x00b.py", file "gone.py", firstDocument, file "gone.py"]
    ∃ after, run (readFiles paths 1) withFile = (.ok 1, after) ∧ after.progress = [(1, 4)] ∧
      after.reports.length = 1 := by
  intro file paths
  obtain ⟨behind, left, outcomes, after, -, -, -, -, -, -, hrun, told, hprogress, htold, -⟩ :=
    readFilesFrom_shortest replace (fun path => (isPlain_replace path).isQuiet) 1 paths withFile
  have hcount : (run (readFiles paths 1) withFile).1 = .ok 1 := by decide +kernel
  have hreports : (run (readFiles paths 1) withFile).2.reports.length = 1 := by decide +kernel
  change run (readFiles paths 1) withFile = _ at hrun
  rw [hrun] at hcount hreports
  have hfinds : outcomes.countP isFind = 1 := Except.ok.inj hcount
  rw [hfinds] at hrun htold
  exact ⟨after, hrun, hprogress.trans (by rw [htold]; rfl), hreports⟩

end Session

end CommentIndex
