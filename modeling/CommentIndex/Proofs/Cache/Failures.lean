import CommentIndex.Proofs.Cache.OtherFiles

/-!
# Readings that fail

A reading that fails puts back what was kept when it began. Whether a file has its outline again
once all of its readings have failed depends on what was there when they began. The file goes
through three phases: `Calm`, with its outline in place; `Replacing`, with an empty outline in its
place that one reading is going to take back; and `Lost`, with an empty outline for good. The only
way from the second phase to the third is a reading that `Overlaps`, and it takes the empty outline
for what was kept. The main statement is `outline_survives_iff`.
-/

namespace CommentIndex.Traffic

variable {file : Path → Path} {item : Path} {kept : Outline} {traffic after : Traffic}

/-- Readings of a file only begin and fail in a step; other files are free. -/
def FailsOnly (file : Path → Path) (item : Path) (traffic : Traffic) : Step → Prop
  | .replace _ | .refresh _ | .finish _ none => True
  | next => ¬ Concerns file item traffic next

/-- `FailsOnly` is decided step by step. -/
instance FailsOnly.decidable (file : Path → Path) (item : Path) (traffic : Traffic) :
    ∀ next, Decidable (FailsOnly file item traffic next)
  | .replace _ | .refresh _ | .finish _ none => isTrue trivial
  | .displace _ | .remove _ | .clear | .finish _ (some _) => inferInstanceAs (Decidable (¬ _))

/-- A reading of a file begins while another one is under way that has replaced what was kept. -/
def Overlaps (file : Path → Path) (item : Path) (traffic : Traffic) : Step → Prop
  | .replace path | .refresh path =>
    file path = item ∧
      ∃ attempt ∈ traffic.underWay, file attempt.path = item ∧ attempt.replaces = true
  | _ => False

/-- `Overlaps` is decided by a look at the readings under way. -/
instance Overlaps.decidable (file : Path → Path) (item : Path) (traffic : Traffic) :
    ∀ next, Decidable (Overlaps file item traffic next)
  | .replace path | .refresh path =>
    inferInstanceAs (Decidable (file path = item ∧
      ∃ attempt ∈ traffic.underWay, file attempt.path = item ∧ attempt.replaces = true))
  | .displace _ | .remove _ | .clear | .finish _ _ => isFalse id

/-- No reading of a file begins while another one that has replaced what was kept is under way. -/
def NeverOverlaps (file : Path → Path) (item : Path) : Traffic → List Step → Prop :=
  Always file fun traffic next => ¬ Overlaps file item traffic next

/-- The file has its outline, and every reading of it under way would put that back. -/
structure Calm (file : Path → Path) (item : Path) (kept : Outline) (traffic : Traffic) : Prop where
  lookup : traffic.cache.lookup? item = some kept
  attempts : ∀ attempt ∈ traffic.underWay, file attempt.path = item →
    attempt.before = some kept ∧ attempt.replaces = false

/-- The file has an empty outline, and the only reading that replaces it is the latest of the path
that holds the file. -/
structure Replacing (file : Path → Path) (item : Path) (kept : Outline) (traffic : Traffic)
    (latest : Attempt) : Prop where
  mem : latest ∈ traffic.underWay
  replaces : latest.replaces = true
  holds : traffic.cache.holders.find? item = some latest.path
  current : traffic.cache.inFlight.find? latest.path = some latest.ticket
  placeholder : traffic.cache.outlines.find? latest.path = some .empty
  before : ∀ attempt ∈ traffic.underWay, file attempt.path = item → attempt.before = some kept
  only : ∀ attempt ∈ traffic.underWay, file attempt.path = item → attempt.replaces = true →
    attempt = latest

/-- The file has an empty outline, and no reading under way would change that by failing. -/
structure Lost (item : Path) (traffic : Traffic) (holder : Path) : Prop where
  holds : traffic.cache.holders.find? item = some holder
  placeholder : traffic.cache.outlines.find? holder = some .empty
  attempts : ∀ attempt ∈ traffic.underWay, attempt.path = holder →
    traffic.cache.inFlight.find? holder = some attempt.ticket → attempt.before = some .empty

/-! ## What is found -/

/-- An outline is found under the holder of its file. -/
theorem lookup?_eq_some_iff {cache : Cache} {outline : Outline} :
    cache.lookup? item = some outline ↔
      ∃ holder, cache.holders.find? item = some holder ∧
        cache.outlines.find? holder = some outline :=
  Option.bind_eq_some_iff

/-- A lost file has an empty outline. -/
theorem Lost.lookup {holder : Path} (h : Lost item traffic holder) :
    traffic.cache.lookup? item = some .empty :=
  lookup?_eq_some_iff.mpr ⟨holder, h.holds, h.placeholder⟩

/-- A file that is being replaced has an empty outline. -/
theorem Replacing.lookup {latest : Attempt} (h : Replacing file item kept traffic latest) :
    traffic.cache.lookup? item = some .empty :=
  lookup?_eq_some_iff.mpr ⟨latest.path, h.holds, h.placeholder⟩

/-! ## Steps about other files -/

/-- Steps about other files leave a file calm. -/
theorem Calm.same (h : Calm file item kept traffic) (hsound : Sound file traffic.cache)
    (hsame : SameFor file item traffic after) : Calm file item kept after where
  lookup := by
    obtain ⟨holder, hholder, houtline⟩ := lookup?_eq_some_iff.mp h.lookup
    refine lookup?_eq_some_iff.mpr ⟨holder, hsame.holder.trans hholder, ?_⟩
    rw [hsame.outline holder (hsound.names _ _ hholder), houtline]
  attempts := fun attempt hmem hitem =>
    h.attempts attempt ((hsame.underWay attempt hitem).mp hmem) hitem

/-- Steps about other files do not end the replacement of a file. -/
theorem Replacing.same {latest : Attempt} (h : Replacing file item kept traffic latest)
    (hsound : Sound file traffic.cache) (hsame : SameFor file item traffic after) :
    Replacing file item kept after latest := by
  have hlatest : file latest.path = item := hsound.names _ _ h.holds
  exact {
    mem := (hsame.underWay latest hlatest).mpr h.mem
    replaces := h.replaces
    holds := hsame.holder.trans h.holds
    current := (hsame.inFlight _ hlatest).trans h.current
    placeholder := (hsame.outline _ hlatest).trans h.placeholder
    before := fun attempt hmem hitem =>
      h.before attempt ((hsame.underWay attempt hitem).mp hmem) hitem
    only := fun attempt hmem hitem =>
      h.only attempt ((hsame.underWay attempt hitem).mp hmem) hitem }

/-- Steps about other files do not bring back a lost outline. -/
theorem Lost.same {holder : Path} (h : Lost item traffic holder) (hsound : Sound file traffic.cache)
    (hsame : SameFor file item traffic after) : Lost item after holder where
  holds := hsame.holder.trans h.holds
  placeholder := (hsame.outline _ (hsound.names _ _ h.holds)).trans h.placeholder
  attempts := by
    rintro attempt hmem rfl hcurrent
    have hitem := hsound.names _ _ h.holds
    rw [hsame.inFlight _ hitem] at hcurrent
    exact h.attempts attempt ((hsame.underWay attempt hitem).mp hmem) rfl hcurrent

/-! ## Readings that begin -/

/-- A calm file stays calm when it is read in place. -/
theorem Calm.refresh (h : Calm file item kept traffic) {path : Path} (hitem : file path = item) :
    Calm file item kept (traffic.step file (.refresh path)) where
  lookup := h.lookup
  attempts := by
    intro attempt hmem hattempt
    rcases mem_underWay_start.mp hmem with hold | rfl
    · exact h.attempts attempt hold hattempt
    · obtain ⟨holder, hholder, houtline⟩ := lookup?_eq_some_iff.mp h.lookup
      simp [Cache.holderOr, hitem, hholder, houtline]

/-- A calm file is being replaced when a reading begins that drops what is kept. -/
theorem Calm.replace (h : Calm file item kept traffic) {path : Path} (hitem : file path = item) :
    Replacing file item kept (traffic.step file (.replace path))
      ⟨path, traffic.cache.nextTicket, some kept, true⟩ := by
  have hlookup : traffic.cache.lookup? (file path) = some kept := hitem ▸ h.lookup
  exact {
    mem := mem_underWay_start.mpr (Or.inr (by rw [hlookup]; rfl))
    replaces := rfl
    holds := by simp [step, start, Cache.issue, Cache.holder_displace, hitem]
    current := by simp [step, start, Cache.inFlight_issue, Cache.nextTicket]
    placeholder := by simp [step, start, Cache.issue, Cache.outline_displace]
    before := by
      intro attempt hmem hattempt
      rcases mem_underWay_start.mp hmem with hold | rfl
      · exact (h.attempts attempt hold hattempt).1
      · exact hlookup
    only := by
      intro attempt hmem hattempt hreplaces
      rcases mem_underWay_start.mp hmem with hold | rfl
      · rw [(h.attempts attempt hold hattempt).2] at hreplaces
        contradiction
      · exact congrArg (Attempt.mk _ _ · _) hlookup }

/-- The outline of a file that has an empty one is lost once a reading begins that drops it. -/
theorem lost_replace (hlookup : traffic.cache.lookup? item = some .empty)
    (horderly : traffic.Orderly) {path : Path} (hitem : file path = item) :
    Lost item (traffic.step file (.replace path)) path where
  holds := by simp [step, start, Cache.issue, Cache.holder_displace, hitem]
  placeholder := by simp [step, start, Cache.issue, Cache.outline_displace]
  attempts := by
    intro attempt hmem _ hcurrent
    rcases mem_underWay_start.mp hmem with hold | rfl
    · have hdisplaced : ({ traffic with cache := traffic.cache.displace path (file path) } :
          Traffic).Orderly := ⟨horderly.given, horderly.distinct⟩
      exact absurd hcurrent (hdisplaced.superseded hold _ _ _)
    · rw [← hitem] at hlookup
      exact hlookup

/-- The outline of a file that has an empty one is lost once a reading begins in place. -/
theorem lost_refresh {holder : Path} (hholder : traffic.cache.holders.find? item = some holder)
    (houtline : traffic.cache.outlines.find? holder = some .empty)
    (horderly : traffic.Orderly) {path : Path} (hitem : file path = item) :
    Lost item (traffic.step file (.refresh path)) holder where
  holds := hholder
  placeholder := houtline
  attempts := by
    intro attempt hmem _ hcurrent
    have hholderOr : traffic.cache.holderOr path (file path) = holder := by
      rw [Cache.holderOr, hitem, hholder, Option.getD_some]
    rcases mem_underWay_start.mp hmem with hold | rfl
    · exact absurd hcurrent (hholderOr ▸ horderly.superseded hold _ _ _)
    · rw [← houtline, ← hholderOr]

/-! ## Readings that fail -/

/-- A calm file stays calm when a reading of it fails. -/
theorem Calm.fail (h : Calm file item kept traffic) {attempt : Attempt}
    (hmem : attempt ∈ traffic.underWay) (hitem : file attempt.path = item) :
    Calm file item kept (traffic.finish file attempt none) where
  lookup := by
    obtain ⟨holder, hholder, houtline⟩ := lookup?_eq_some_iff.mp h.lookup
    refine lookup?_eq_some_iff.mpr ⟨holder, by simpa [finish, ended] using hholder, ?_⟩
    simp only [finish, ended, (h.attempts attempt hmem hitem).1]
    by_cases hcurrent : traffic.cache.inFlight.find? attempt.path = some attempt.ticket
    · rw [Cache.outline_giveUp_of_current hcurrent]
      split
      · next heq => rw [← heq, houtline]; rfl
      · exact houtline
    · rw [Cache.giveUp_of_not_current hcurrent, houtline]
  attempts := fun other hother => h.attempts other (mem_underWay_finish.mp hother).1

/-- A lost outline stays lost when a reading of the file fails. -/
theorem Lost.fail {holder : Path} (h : Lost item traffic holder) {attempt : Attempt}
    (hmem : attempt ∈ traffic.underWay) : Lost item (traffic.finish file attempt none) holder := by
  by_cases hcurrent : traffic.cache.inFlight.find? attempt.path = some attempt.ticket
  · refine ⟨by simpa [finish, ended] using h.holds, ?_, fun other hother hpath hnoted => ?_⟩
    · refine (Cache.outline_giveUp_of_current hcurrent ..).trans ?_
      split
      · next heq =>
          have hnoted : traffic.cache.inFlight.find? holder = some attempt.ticket := by
            rw [heq, hcurrent]
          rw [h.attempts attempt hmem heq.symm hnoted, ← heq, h.placeholder]
          rfl
      · exact h.placeholder
    · simp only [finish, ended, Cache.inFlight_giveUp_of_current hcurrent,
        KeyedList.find?_erase] at hnoted
      split at hnoted
      · contradiction
      · exact h.attempts other (mem_underWay_finish.mp hother).1 hpath hnoted
  · have hcache : (traffic.finish file attempt none).cache = traffic.cache :=
      cache_finish_of_not_current hcurrent none
    refine ⟨by rw [hcache, h.holds], by rw [hcache, h.placeholder], fun other hother => ?_⟩
    rw [hcache]
    exact h.attempts other (mem_underWay_finish.mp hother).1

/-- The outline of a file comes back when the reading fails that has replaced it. -/
theorem Replacing.fail_latest {latest : Attempt} (h : Replacing file item kept traffic latest)
    (hitem : file latest.path = item) :
    Calm file item kept (traffic.finish file latest none) where
  lookup := by
    refine lookup?_eq_some_iff.mpr
      ⟨latest.path, by simpa [finish, ended] using h.holds, ?_⟩
    refine (Cache.outline_giveUp_of_current h.current ..).trans ?_
    rw [if_pos rfl, h.placeholder, h.before latest h.mem hitem]
    rfl
  attempts := by
    intro attempt hmem hattempt
    obtain ⟨hold, hticket⟩ := mem_underWay_finish.mp hmem
    refine ⟨h.before attempt hold hattempt, eq_false_of_ne_true fun hreplaces => ?_⟩
    exact hticket (h.only attempt hold hattempt hreplaces ▸ rfl)

/-- A file is still being replaced when another reading of it fails. -/
theorem Replacing.fail_other {latest : Attempt} (h : Replacing file item kept traffic latest)
    (horderly : traffic.Orderly) {attempt : Attempt} (hmem : attempt ∈ traffic.underWay)
    (hne : attempt ≠ latest) :
    Replacing file item kept (traffic.finish file attempt none) latest := by
  have hticket : latest.ticket ≠ attempt.ticket := fun heq =>
    hne (List.inj_on_of_nodup_map horderly.distinct h.mem hmem heq).symm
  have hlatest : latest ∈ (traffic.finish file attempt none).underWay :=
    mem_underWay_finish.mpr ⟨h.mem, hticket⟩
  have hbefore : ∀ other ∈ (traffic.finish file attempt none).underWay, file other.path = item →
      other.before = some kept :=
    fun other hother => h.before other (mem_underWay_finish.mp hother).1
  have honly : ∀ other ∈ (traffic.finish file attempt none).underWay, file other.path = item →
      other.replaces = true → other = latest :=
    fun other hother => h.only other (mem_underWay_finish.mp hother).1
  by_cases hcurrent : traffic.cache.inFlight.find? attempt.path = some attempt.ticket
  · have hpath : latest.path ≠ attempt.path := by
      intro heq
      rw [← heq, h.current] at hcurrent
      exact hticket (Option.some.inj hcurrent)
    refine ⟨hlatest, h.replaces, by simpa [finish, ended] using h.holds, ?_, ?_, hbefore, honly⟩
    · simp only [finish, ended, Cache.inFlight_giveUp_of_current hcurrent]
      rw [KeyedList.find?_erase_ne _ hpath, h.current]
    · refine (Cache.outline_giveUp_of_current hcurrent ..).trans ?_
      rw [if_neg hpath, h.placeholder]
  · have hcache : (traffic.finish file attempt none).cache = traffic.cache :=
      cache_finish_of_not_current hcurrent none
    exact ⟨hlatest, h.replaces, by rw [hcache, h.holds], by rw [hcache, h.current],
      by rw [hcache, h.placeholder], hbefore, honly⟩

/-! ## Runs -/

/-- A step that concerns a file whose readings only begin and fail is one or the other. -/
theorem begins_or_fails {next : Step} (hfails : FailsOnly file item traffic next)
    (hconcerns : Concerns file item traffic next) :
    (∃ path, file path = item ∧ (next = .replace path ∨ next = .refresh path)) ∨
      ∃ attempt ∈ traffic.underWay, file attempt.path = item ∧
        next = .finish attempt.ticket none := by
  cases next with
  | replace path => exact Or.inl ⟨path, hconcerns, Or.inl rfl⟩
  | refresh path => exact Or.inl ⟨path, hconcerns, Or.inr rfl⟩
  | displace path => exact absurd hconcerns hfails
  | remove path => exact absurd hconcerns hfails
  | clear => exact absurd hconcerns hfails
  | finish ticket result =>
      cases result with
      | none =>
          obtain ⟨attempt, hmem, rfl, hitem⟩ := hconcerns
          exact Or.inr ⟨attempt, hmem, hitem, rfl⟩
      | some outline => exact absurd hconcerns hfails

/-- A lost outline stays lost. -/
theorem Lost.step {holder : Path} (h : Lost item traffic holder) (horderly : traffic.Orderly)
    (hsound : Sound file traffic.cache) {next : Step} (hfails : FailsOnly file item traffic next) :
    ∃ holder, Lost item (traffic.step file next) holder := by
  by_cases hconcerns : Concerns file item traffic next
  · rcases begins_or_fails hfails hconcerns with ⟨path, hitem, rfl | rfl⟩ | ⟨attempt, hmem, -, rfl⟩
    · exact ⟨path, lost_replace h.lookup horderly hitem⟩
    · exact ⟨holder, lost_refresh h.holds h.placeholder horderly hitem⟩
    · rw [horderly.step_finish file hmem]
      exact ⟨holder, h.fail hmem⟩
  · exact ⟨holder, h.same hsound (sameFor_step horderly hsound hconcerns)⟩

/-- A file that has its outline, or is being replaced, and is not lost. -/
def Survives (file : Path → Path) (item : Path) (kept : Outline) (traffic : Traffic) : Prop :=
  Calm file item kept traffic ∨ ∃ latest, Replacing file item kept traffic latest

/-- An outline survives every step that does not overlap. -/
theorem Survives.step (h : Survives file item kept traffic) (horderly : traffic.Orderly)
    (hsound : Sound file traffic.cache) {next : Step} (hfails : FailsOnly file item traffic next)
    (hoverlaps : ¬ Overlaps file item traffic next) :
    Survives file item kept (traffic.step file next) := by
  by_cases hconcerns : Concerns file item traffic next
  · rcases h with hcalm | ⟨latest, hreplacing⟩
    · rcases begins_or_fails hfails hconcerns with
        ⟨path, hitem, rfl | rfl⟩ | ⟨attempt, hmem, hitem, rfl⟩
      · exact Or.inr ⟨_, hcalm.replace hitem⟩
      · exact Or.inl (hcalm.refresh hitem)
      · rw [horderly.step_finish file hmem]
        exact Or.inl (hcalm.fail hmem hitem)
    · have hlatest : file latest.path = item := hsound.names _ _ hreplacing.holds
      have hbusy : ∃ attempt ∈ traffic.underWay,
          file attempt.path = item ∧ attempt.replaces = true :=
        ⟨latest, hreplacing.mem, hlatest, hreplacing.replaces⟩
      rcases begins_or_fails hfails hconcerns with
        ⟨path, hitem, rfl | rfl⟩ | ⟨attempt, hmem, -, rfl⟩
      -- A reading that began now would overlap with the latest one.
      · exact absurd ⟨hitem, hbusy⟩ hoverlaps
      · exact absurd ⟨hitem, hbusy⟩ hoverlaps
      · rw [horderly.step_finish file hmem]
        by_cases heq : attempt = latest
        · exact Or.inl (heq ▸ hreplacing.fail_latest hlatest)
        · exact Or.inr ⟨latest, hreplacing.fail_other horderly hmem heq⟩
  · have hsame := sameFor_step horderly hsound hconcerns
    rcases h with hcalm | ⟨latest, hreplacing⟩
    · exact Or.inl (hcalm.same hsound hsame)
    · exact Or.inr ⟨latest, hreplacing.same hsound hsame⟩

/-- An outline is lost with the first step that overlaps. -/
theorem Survives.lost_of_overlaps (h : Survives file item kept traffic)
    (horderly : traffic.Orderly) {next : Step} (hoverlaps : Overlaps file item traffic next) :
    ∃ holder, Lost item (traffic.step file next) holder := by
  rcases h with hcalm | ⟨latest, hreplacing⟩
  · -- In this phase no reading under way has replaced anything.
    have hidle : ¬ ∃ attempt ∈ traffic.underWay,
        file attempt.path = item ∧ attempt.replaces = true := by
      rintro ⟨attempt, hmem, hitem, hreplaces⟩
      rw [(hcalm.attempts attempt hmem hitem).2] at hreplaces
      contradiction
    cases next with
    | replace path => exact absurd hoverlaps.2 hidle
    | refresh path => exact absurd hoverlaps.2 hidle
    | _ => exact hoverlaps.elim
  · cases next with
    | replace path => exact ⟨path, lost_replace hreplacing.lookup horderly hoverlaps.1⟩
    | refresh path =>
        exact ⟨_, lost_refresh hreplacing.holds hreplacing.placeholder horderly hoverlaps.1⟩
    | _ => exact hoverlaps.elim

/-- A lost outline stays lost during a run. -/
theorem Lost.run {holder : Path} (h : Lost item traffic holder) (horderly : traffic.Orderly)
    (hsound : Sound file traffic.cache) {steps : List Step}
    (hfails : Always file (FailsOnly file item) traffic steps) :
    ∃ holder, Lost item (run file traffic steps) holder := by
  induction steps generalizing traffic holder with
  | nil => exact ⟨holder, h⟩
  | cons next rest ih =>
      obtain ⟨after, hlost⟩ := h.step horderly hsound hfails.1
      exact ih hlost (horderly.step next) (hsound.step next) hfails.2

/-- An outline survives a run in which no step overlaps. -/
theorem Survives.run (h : Survives file item kept traffic) (horderly : traffic.Orderly)
    (hsound : Sound file traffic.cache) {steps : List Step}
    (hfails : Always file (FailsOnly file item) traffic steps)
    (hnever : NeverOverlaps file item traffic steps) :
    Survives file item kept (run file traffic steps) := by
  induction steps generalizing traffic with
  | nil => exact h
  | cons next rest ih =>
      exact ih (h.step horderly hsound hfails.1 hnever.1) (horderly.step next) (hsound.step next)
        hfails.2 hnever.2

/-- An outline is lost in a run in which a step overlaps. -/
theorem Survives.lost_run (h : Survives file item kept traffic) (horderly : traffic.Orderly)
    (hsound : Sound file traffic.cache) {steps : List Step}
    (hfails : Always file (FailsOnly file item) traffic steps)
    (hoverlaps : ¬ NeverOverlaps file item traffic steps) :
    ∃ holder, Lost item (Traffic.run file traffic steps) holder := by
  induction steps generalizing traffic with
  | nil => exact absurd trivial hoverlaps
  | cons next rest ih =>
      by_cases hnext : Overlaps file item traffic next
      · obtain ⟨holder, hlost⟩ := h.lost_of_overlaps horderly hnext
        exact hlost.run (horderly.step next) (hsound.step next) hfails.2
      · exact ih (h.step horderly hsound hfails.1 hnext) (horderly.step next) (hsound.step next)
          hfails.2 fun hrest => hoverlaps ⟨hnext, hrest⟩

/-- A file without readings under way that survives has its outline. -/
theorem Survives.lookup (h : Survives file item kept traffic) (hsound : Sound file traffic.cache)
    (hdone : ∀ attempt ∈ traffic.underWay, file attempt.path ≠ item) :
    traffic.cache.lookup? item = some kept := by
  rcases h with hcalm | ⟨latest, hreplacing⟩
  · exact hcalm.lookup
  · exact absurd (hsound.names _ _ hreplacing.holds) (hdone latest hreplacing.mem)

/-- A file without readings under way is lost already if its outline is empty. -/
theorem exists_lost_of_empty (hlookup : traffic.cache.lookup? item = some .empty)
    (hsound : Sound file traffic.cache)
    (hidle : ∀ attempt ∈ traffic.underWay, file attempt.path ≠ item) :
    ∃ holder, Lost item traffic holder := by
  obtain ⟨holder, hholder, houtline⟩ := lookup?_eq_some_iff.mp hlookup
  refine ⟨holder, hholder, houtline, ?_⟩
  rintro attempt hmem rfl
  exact absurd (hsound.names _ _ hholder) (hidle attempt hmem)

/-- Let a file have an outline and no reading under way, and let readings of it, under whatever of
its paths, begin and all fail, in any order. In the end it has the outline again if and only if the
outline is empty or no reading of the file has begun while another one under way had replaced what
was kept. What happens to other files does not matter. -/
theorem outline_survives_iff (file : Path → Path) (before steps : List Step) (path : Path)
    (kept : Outline)
    (hkept : (run file {} before).cache.lookup? (file path) = some kept)
    (hidle : ∀ attempt ∈ (run file {} before).underWay, file attempt.path ≠ file path)
    (hfails : Always file (FailsOnly file (file path)) (run file {} before) steps)
    (hdone : ∀ attempt ∈ (run file {} (before ++ steps)).underWay,
      file attempt.path ≠ file path) :
    (run file {} (before ++ steps)).cache.lookup? (file path) = some kept ↔
      kept = .empty ∨ NeverOverlaps file (file path) (run file {} before) steps := by
  have horderly := orderly_run file before
  have hsound := sound_run file before
  have hended := sound_run file (before ++ steps)
  have hcalm : Survives file (file path) kept (run file {} before) :=
    Or.inl ⟨hkept, fun attempt hmem hitem => absurd hitem (hidle attempt hmem)⟩
  rw [run_append] at hdone hended ⊢
  constructor
  · intro hlookup
    by_cases hnever : NeverOverlaps file (file path) (run file {} before) steps
    · exact Or.inr hnever
    · obtain ⟨holder, hlost⟩ := hcalm.lost_run horderly hsound hfails hnever
      exact Or.inl (Option.some.inj (hlookup.symm.trans hlost.lookup))
  · rintro (rfl | hnever)
    · obtain ⟨holder, hlost⟩ := exists_lost_of_empty hkept hsound hidle
      obtain ⟨holder', hlost'⟩ := hlost.run horderly hsound hfails
      exact hlost'.lookup
    · exact (hcalm.run horderly hsound hfails hnever).lookup hended hdone

/-- A document is read in place and then replaced before that ends. Both readings fail, and the
outline comes back. -/
theorem outline_survives_refresh_and_replace :
    let path := Path.absolute ["a.py"]
    let kept : Outline := ⟨[], [⟨1, 3⟩]⟩
    let before := [.replace path, .finish 1 (some kept)]
    let steps := [.refresh path, .replace path, .finish 2 none, .finish 3 none]
    let reached := run id {} before
    let ended := run id {} (before ++ steps)
    reached.cache.lookup? path = some kept ∧
      (∀ attempt ∈ reached.underWay, id attempt.path ≠ path) ∧
      Always id (FailsOnly id path) reached steps ∧
      (∀ attempt ∈ ended.underWay, id attempt.path ≠ path) ∧
      NeverOverlaps id path reached steps ∧
      ended.cache.lookup? path = some kept := by
  intro path kept before steps reached ended
  have hkept : reached.cache.lookup? path = some kept := by decide +kernel
  have hidle : ∀ attempt ∈ reached.underWay, id attempt.path ≠ path := by decide +kernel
  have hfails : Always id (FailsOnly id path) reached steps := by decide +kernel
  have hdone : ∀ attempt ∈ ended.underWay, id attempt.path ≠ path := by decide +kernel
  have hnever : NeverOverlaps id path reached steps := by
    unfold NeverOverlaps
    decide +kernel
  have hsurvives := outline_survives_iff id before steps path kept hkept hidle hfails hdone
  exact ⟨hkept, hidle, hfails, hdone, hnever, hsurvives.mpr (Or.inr hnever)⟩

/-- A document is replaced twice before either reading ends. Both fail, and the outline that was
kept before is gone: the second one has taken the empty outline of the first for it. -/
theorem outline_lost_by_two_replacements :
    let path := Path.absolute ["a.py"]
    let kept : Outline := ⟨[], [⟨1, 3⟩]⟩
    let before := [.replace path, .finish 1 (some kept)]
    let steps := [.replace path, .replace path, .finish 2 none, .finish 3 none]
    let reached := run id {} before
    let ended := run id {} (before ++ steps)
    reached.cache.lookup? path = some kept ∧ reached.underWay = [] ∧
      Always id (FailsOnly id path) reached steps ∧
      ended.underWay = [] ∧ ended.cache.lookup? path = some .empty ∧ kept ≠ .empty := by
  decide +kernel

end CommentIndex.Traffic
