import CommentIndex.Proofs.Cache.Traffic

/-!
# Which readings land

A reading that ends with an outline is kept or not. Whether it is depends on the order of the steps
since it began, and on nothing else: it lands unless one of them `Disturbs` its path. The invariant
behind this is that a reading is in flight as long as its ticket is the one noted for its path, and
that no later step brings back a ticket that has been replaced (`current_run_iff`). The main result
is `lands_iff_undisturbed`.
-/

namespace CommentIndex.Traffic

variable {file : Path → Path} {traffic : Traffic} {path : Path}

/-- A step after which a reading of a path under way does not count any more: another one of the
same path begins, everything is dropped, or the path is removed, by itself or as the one under which
the file of the removed path is kept. -/
def Disturbs (file : Path → Path) (path : Path) (traffic : Traffic) : Step → Prop
  | .clear => True
  | .remove removed =>
    path = removed ∨ traffic.cache.holders.find? (file removed) = some path
  | next => begins? file traffic next = some path

/-- `Disturbs` is decided by comparing paths. -/
instance Disturbs.decidable (file : Path → Path) (path : Path) (traffic : Traffic) :
    ∀ next, Decidable (Disturbs file path traffic next)
  | .clear => isTrue trivial
  | .remove _ => inferInstanceAs (Decidable (_ ∨ _))
  | .replace _ | .displace _ | .refresh _ | .finish _ _ => inferInstanceAs (Decidable (_ = _))

/-- No step of a run disturbs a reading of a path. -/
def Undisturbed (file : Path → Path) (path : Path) : Traffic → List Step → Prop :=
  Always file fun traffic next => ¬ Disturbs file path traffic next

/-- What a reading leaves that lands: its outline under its path, which holds the file, and
everything else as it was. -/
structure Written (path file : Path) (outline : Outline) (cache after : Cache) : Prop where
  outline : after.outlines.find? path = some outline
  holder : after.holders.find? file = some path
  settled : after.inFlight.find? path = none
  otherOutlines : ∀ other, other ≠ path → after.outlines.find? other = cache.outlines.find? other
  otherHolders : ∀ other, other ≠ file → after.holders.find? other = cache.holders.find? other
  otherReadings : ∀ other, other ≠ path → after.inFlight.find? other = cache.inFlight.find? other
  issued : after.issued = cache.issued

/-- A reading that is the latest of its path writes its outline. -/
theorem written_ended {cache : Cache} {attempt : Attempt}
    (h : cache.inFlight.find? attempt.path = some attempt.ticket) (outline : Outline) :
    Written attempt.path (file attempt.path) outline cache
      (ended file cache attempt (some outline)) := by
  simp only [ended, Cache.land_of_current h]
  exact {
    outline := KeyedList.find?_insert_self ..
    holder := KeyedList.find?_insert_self ..
    settled := KeyedList.find?_erase_self ..
    otherOutlines := fun other hother => KeyedList.find?_insert_ne _ hother _
    otherHolders := fun other hother => KeyedList.find?_insert_ne _ hother _
    otherReadings := fun other hother => KeyedList.find?_erase_ne _ hother
    issued := rfl }

/-- A cache in which a reading is in flight changes when it lands. -/
theorem Written.ne {path file : Path} {outline : Outline} {cache after : Cache} {ticket : Nat}
    (h : Written path file outline cache after)
    (hcurrent : cache.inFlight.find? path = some ticket) : after ≠ cache := by
  rintro rfl
  have hsettled := h.settled
  rw [hcurrent] at hsettled
  contradiction

/-! ## In flight -/

/-- A ticket that has been given out is noted for a path after a step if it was before and the step
does not disturb it. The end of another reading is no disturbance: what it ends is noted for another
path, or not at all. -/
theorem current_step_iff {ticket : Nat} (hgiven : ticket ≤ traffic.cache.issued) {next : Step}
    (hnext : ∀ result, next ≠ .finish ticket result) :
    (traffic.step file next).cache.inFlight.find? path = some ticket ↔
      traffic.cache.inFlight.find? path = some ticket ∧ ¬ Disturbs file path traffic next := by
  have hfresh : traffic.cache.issued + 1 ≠ ticket := by omega
  cases next with
  | replace started =>
      simp only [step, start, Disturbs, begins?, Cache.inFlight_issue, Cache.inFlight_displace,
        Cache.nextTicket, Cache.issued_displace, Option.some.injEq]
      by_cases h : path = started
      · simp [h, hfresh]
      · simp [h, Ne.symm h]
  | displace displaced => simp [step, Disturbs, begins?]
  | refresh refreshed =>
      simp only [step, start, Disturbs, begins?, Cache.inFlight_issue, Cache.nextTicket,
        Option.some.injEq]
      by_cases h : path = traffic.cache.holderOr refreshed (file refreshed)
      · simp [h, hfresh]
      · simp [h, Ne.symm h]
  | remove removed =>
      simp only [step, Disturbs, Cache.inFlight_remove]
      split <;> simp [*]
  | clear => simp [step, Disturbs, Cache.clear, Cache.empty]
  | finish other result =>
      have hundisturbed : ¬ Disturbs file path traffic (.finish other result) := by
        simp [Disturbs, begins?]
      simp only [hundisturbed, not_false_eq_true, and_true]
      rcases step_finish_cases file traffic other result with
        ⟨attempt, -, rfl, hstep⟩ | ⟨-, hstep⟩
      · rw [hstep]
        -- If it is the latest of its path, that is another path: each path has one latest ticket.
        by_cases hcurrent : traffic.cache.inFlight.find? attempt.path = some attempt.ticket
        · have hother : attempt.ticket ≠ ticket := fun heq => hnext result (heq ▸ rfl)
          simp only [finish, inFlight_ended_of_current hcurrent, KeyedList.find?_erase]
          by_cases h : path = attempt.path <;> simp [h, hcurrent, hother]
        · simp only [finish, ended_of_not_current hcurrent]
      · rw [hstep]

/-- A ticket that has been given out is noted for a path at the end of a run if it was at the start
and no step has disturbed it. -/
theorem current_run_iff {ticket : Nat} (hgiven : ticket ≤ traffic.cache.issued) {steps : List Step}
    (hopen : ∀ result, .finish ticket result ∉ steps) :
    (run file traffic steps).cache.inFlight.find? path = some ticket ↔
      traffic.cache.inFlight.find? path = some ticket ∧ Undisturbed file path traffic steps := by
  induction steps generalizing traffic with
  | nil => simp [Undisturbed, Always]
  | cons next rest ih =>
      have hnext : ∀ result, next ≠ .finish ticket result :=
        fun result heq => hopen result (heq ▸ List.mem_cons_self)
      have hrest : ∀ result, .finish ticket result ∉ rest :=
        fun result hmem => hopen result (List.mem_cons_of_mem _ hmem)
      have hgiven' := Nat.le_trans hgiven (issued_le_step file traffic next)
      rw [run_cons, ih hgiven' hrest, current_step_iff hgiven hnext, and_assoc]
      rfl

/-- A reading that begins is under way with the next ticket, which is noted for its path. -/
theorem underWay_of_begins {opening : Step} (h : begins? file traffic opening = some path) :
    ∃ attempt ∈ (traffic.step file opening).underWay,
      attempt.path = path ∧ attempt.ticket = traffic.cache.nextTicket ∧
      (traffic.step file opening).cache.inFlight.find? path = some traffic.cache.nextTicket ∧
      (traffic.step file opening).cache.issued = traffic.cache.nextTicket := by
  cases opening with
  | replace started =>
      obtain rfl : started = path := Option.some.inj h
      refine ⟨_, mem_underWay_start.mpr (Or.inr rfl), rfl, rfl, ?_, rfl⟩
      simp [step, start, Cache.inFlight_issue, Cache.nextTicket]
  | refresh refreshed =>
      obtain rfl : traffic.cache.holderOr refreshed (file refreshed) = path := Option.some.inj h
      refine ⟨_, mem_underWay_start.mpr (Or.inr rfl), rfl, rfl, ?_, rfl⟩
      simp [step, start, Cache.inFlight_issue]
  | displace displaced => simp [begins?] at h
  | remove removed => simp [begins?] at h
  | clear => simp [begins?] at h
  | finish ticket result => simp [begins?] at h

/-- A newer reading of a path disturbs the older ones. -/
theorem disturbs_of_begins {newer : Step} (h : begins? file traffic newer = some path) :
    Disturbs file path traffic newer := by
  cases newer with
  | clear => trivial
  | remove removed => simp [begins?] at h
  | _ => exact h

/-! ## Landing -/

/-- A reading of a path that ends with an outline changes the cache if and only if, since it began,
no other reading of the path has begun, the cache has not been cleared, and the path has not been
removed. If it does, it writes its outline and nothing else; if it does not, the cache stays as it
is. So it changes nothing once a newer reading of the path has begun or the cache was cleared. -/
theorem lands_iff_undisturbed (file : Path → Path) (before between : List Step) (opening : Step)
    (path : Path) (outline : Outline)
    (hopening : begins? file (run file {} before) opening = some path)
    (hopen : ∀ result, .finish (run file {} before).cache.nextTicket result ∉ between) :
    let ticket := (run file {} before).cache.nextTicket
    let begun := run file {} (before ++ [opening])
    let reached := run file begun between
    let after := reached.step file (.finish ticket (some outline))
    (after.cache ≠ reached.cache ↔ Undisturbed file path begun between) ∧
      (Undisturbed file path begun between →
        Written path (file path) outline reached.cache after.cache) ∧
      (∀ earlier newer later, between = earlier ++ newer :: later →
        begins? file (run file begun earlier) newer = some path → after.cache = reached.cache) ∧
      (.clear ∈ between → after.cache = reached.cache) := by
  intro ticket begun reached after
  obtain ⟨attempt, hmem, rfl, hticket, hcurrent, hissued⟩ := underWay_of_begins hopening
  rw [← run_concat, ← hticket] at hcurrent hissued
  rw [← run_concat] at hmem
  rw [← hticket] at hopen
  have hreached : reached.Orderly := by
    have horderly := orderly_run file ((before ++ [opening]) ++ between)
    rwa [run_append] at horderly
  have hafter : after.cache = ended file reached.cache attempt (some outline) := by
    have hstep := hreached.step_finish file (mem_underWay_run hmem hopen) (some outline)
    rw [hticket] at hstep
    exact congrArg Traffic.cache hstep
  -- Whether the reading lands is asked of its ticket, and the run lemma tells that by the steps.
  have hiff : reached.cache.inFlight.find? attempt.path = some attempt.ticket ↔
      Undisturbed file attempt.path begun between := by
    rw [current_run_iff (Nat.le_of_eq hissued.symm) hopen]
    exact and_iff_right hcurrent
  have hlands : Undisturbed file attempt.path begun between →
      Written attempt.path (file attempt.path) outline reached.cache after.cache := by
    intro hundisturbed
    rw [hafter]
    exact written_ended (hiff.mpr hundisturbed) outline
  have hstays : ¬ Undisturbed file attempt.path begun between → after.cache = reached.cache := by
    intro hdisturbed
    rw [hafter]
    exact ended_of_not_current (fun hnoted => hdisturbed (hiff.mp hnoted)) _
  refine ⟨⟨fun hne => not_not.mp fun h => hne (hstays h), fun h => (hlands h).ne (hiff.mpr h)⟩,
    hlands, fun earlier newer later hbetween hbegins => hstays fun h => ?_,
    fun hclear => hstays fun h => ?_⟩
  · subst hbetween
    exact ((always_append _ _).mp h).2.1 (disturbs_of_begins hbegins)
  · obtain ⟨earlier, later, rfl⟩ := List.append_of_mem hclear
    exact ((always_append _ _).mp h).2.1 trivial

/-- While one document is read, another one is read and removed. The first reading lands. -/
theorem lands_iff_undisturbed_pair :
    let first := Path.absolute ["a.py"]
    let second := Path.absolute ["b.py"]
    let outline : Outline := ⟨[], [⟨1, 3⟩]⟩
    let between := [.refresh second, .remove second]
    let begun := run id {} ([.replace second] ++ [.refresh first])
    let reached := run id begun between
    begins? id (run id {} [.replace second]) (.refresh first) = some first ∧
      (∀ result, .finish 2 result ∉ between) ∧
      Undisturbed id first begun between ∧
      Written first first outline reached.cache
        (reached.step id (.finish 2 (some outline))).cache := by
  intro first second outline between begun reached
  have hbegins : begins? id (run id {} [.replace second]) (.refresh first) = some first := by
    decide +kernel
  have hopen : ∀ result, .finish 2 result ∉ between := by simp [between]
  have hundisturbed : Undisturbed id first begun between := by
    unfold Undisturbed
    decide +kernel
  have hlands := lands_iff_undisturbed id [.replace second] between (.refresh first) first outline
    hbegins hopen
  exact ⟨hbegins, hopen, hundisturbed, hlands.2.1 hundisturbed⟩

end CommentIndex.Traffic
