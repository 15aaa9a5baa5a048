import CommentIndex.Proofs.Cache.Holders

/-!
# One entry for each file

Several paths may name one file. A cache is `Coherent` if it keeps at most one outline for each
file, under the path that holds it. Half of this is true whatever happens: a file is held by a path
that names it and has an outline. The other half depends on where readings land. One that
`LandsAstray` leaves a second outline of its file behind, and by `coherent_iff_never_astray` nothing
else does. It cannot happen while no file is read under two paths at once
(`coherent_of_one_path`).
-/

namespace CommentIndex.Traffic

variable {file : Path → Path} {traffic : Traffic} {cache : Cache}

/-- There is at most one outline for each file, every outline is kept under the path that holds its
file, and every holder names the file that it holds and has an outline. -/
structure Coherent (file : Path → Path) (cache : Cache) : Prop where
  once : (cache.outlines.keys.map file).Nodup
  held : ∀ path ∈ cache.outlines.keys, cache.holders.find? (file path) = some path
  kept : ∀ item path, cache.holders.find? item = some path →
    path ∈ cache.outlines.keys ∧ file path = item

/-- A reading is the latest of its path and ends with an outline, while its file is held by another
path. -/
def LandsAstray (file : Path → Path) (traffic : Traffic) : Step → Prop
  | .finish ticket (some _) =>
    ∃ attempt ∈ traffic.underWay, attempt.ticket = ticket ∧
      traffic.cache.inFlight.find? attempt.path = some ticket ∧
      ∃ holder, traffic.cache.holders.find? (file attempt.path) = some holder ∧
        holder ≠ attempt.path
  | _ => False

/-- Every outline is kept under the path that holds its file. -/
def Held (file : Path → Path) (cache : Cache) : Prop :=
  ∀ path, (cache.outlines.find? path).isSome → cache.holders.find? (file path) = some path

/-- A cache is coherent if and only if it is sound and every outline is kept under the holder of its
file. -/
theorem coherent_iff : Coherent file cache ↔ Sound file cache ∧ Held file cache := by
  constructor
  · intro h
    refine ⟨⟨h.once.of_map _, fun item path hholder => (h.kept item path hholder).2,
      fun item path hholder => ?_⟩, fun path hkept => ?_⟩
    · exact (KeyedList.mem_keys_iff ..).mp (h.kept item path hholder).1
    · exact h.held path ((KeyedList.mem_keys_iff ..).mpr hkept)
  · rintro ⟨hsound, hheld⟩
    have hkeys : ∀ path ∈ cache.outlines.keys, cache.holders.find? (file path) = some path :=
      fun path hpath => hheld path ((KeyedList.mem_keys_iff ..).mp hpath)
    refine ⟨hsound.distinct.map_on fun first hfirst second hsecond heq => ?_, hkeys,
      fun item path hholder => ⟨?_, hsound.names item path hholder⟩⟩
    · have hholder := hkeys first hfirst
      rw [heq, hkeys second hsecond] at hholder
      exact (Option.some.inj hholder).symm
    · exact (KeyedList.mem_keys_iff ..).mpr (hsound.kept item path hholder)

/-! ## Single steps -/

/-- Where nothing is kept, nothing is kept under a wrong path. -/
theorem held_empty (file : Path → Path) (issued : Nat) :
    Held file { Cache.empty with issued := issued } := by
  simp [Held, Cache.empty]

/-- A displaced file has one outline. -/
theorem Held.displace (h : Held file cache) (path : Path) :
    Held file (cache.displace path (file path)) := by
  intro other hkept
  rw [Cache.outline_displace] at hkept
  rw [Cache.holder_displace]
  split at hkept
  · next heq => rw [heq, if_pos rfl]
  · next hother =>
      split at hkept
      · contradiction
      · next hholds =>
          have hholder := h other hkept
          have hfile : file other ≠ file path := fun heq => hholds (heq ▸ hholder)
          rw [if_neg hfile, hholder]

/-- A removed file has no outline. -/
theorem Held.remove (h : Held file cache) (path : Path) :
    Held file (cache.remove path (file path)) := by
  intro other hkept
  rw [Cache.outline_remove] at hkept
  rw [Cache.holder_remove]
  split at hkept
  · contradiction
  · next hgone =>
      have hholder := h other hkept
      have hfile : file other ≠ file path := fun heq => hgone (Or.inr (heq ▸ hholder))
      rw [if_neg hfile, hholder]

/-- A reading that fails adds no outline. -/
theorem Held.giveUp (h : Held file cache) (path : Path) (ticket : Nat) (before : Option Outline) :
    Held file (cache.giveUp path ticket before) := by
  intro other hkept
  rw [Cache.isSome_outline_giveUp] at hkept
  rw [Cache.holders_giveUp]
  exact h other hkept

/-- A reading that lands leaves every outline under the holder of its file if and only if no other
path holds the file. -/
theorem held_land_iff (hsound : Sound file cache) (h : Held file cache) {path : Path} {ticket : Nat}
    (hcurrent : cache.inFlight.find? path = some ticket) (outline : Outline) :
    Held file (cache.land path (file path) ticket outline) ↔
      ∀ holder, cache.holders.find? (file path) = some holder → holder = path := by
  constructor
  · intro hheld holder hholder
    -- The outline under the other path stays, but its file is now held by this one.
    by_contra hne
    have hkept := hheld holder
    rw [Cache.outline_land_of_current hcurrent, if_neg hne, Cache.holder_land_of_current hcurrent,
      if_pos (hsound.names _ _ hholder)] at hkept
    exact hne (Option.some.inj (hkept (hsound.kept _ _ hholder))).symm
  · intro honly other hkept
    rw [Cache.outline_land_of_current hcurrent] at hkept
    rw [Cache.holder_land_of_current hcurrent]
    split at hkept
    · next heq => rw [heq, if_pos rfl]
    · next hother =>
        have hholder := h other hkept
        have hfile : file other ≠ file path := fun heq => hother (honly other (heq ▸ hholder))
        rw [if_neg hfile, hholder]

/-- A reading under way lands astray if it is the latest of its path and another path holds its
file. -/
theorem landsAstray_finish_iff (horderly : traffic.Orderly) {attempt : Attempt}
    (hmem : attempt ∈ traffic.underWay) (outline : Outline) :
    LandsAstray file traffic (.finish attempt.ticket (some outline)) ↔
      traffic.cache.inFlight.find? attempt.path = some attempt.ticket ∧
        ∃ holder, traffic.cache.holders.find? (file attempt.path) = some holder ∧
          holder ≠ attempt.path := by
  constructor
  · rintro ⟨other, hother, hticket, hcurrent, hastray⟩
    obtain rfl : other = attempt :=
      List.inj_on_of_nodup_map horderly.distinct hother hmem hticket
    exact ⟨hcurrent, hastray⟩
  · rintro ⟨hcurrent, hastray⟩
    exact ⟨attempt, hmem, rfl, hcurrent, hastray⟩

/-- The end of a reading keeps every outline under the holder of its file if and only if it does not
land astray. -/
theorem held_finish_iff (horderly : traffic.Orderly) (hsound : Sound file traffic.cache)
    (hheld : Held file traffic.cache) (ticket : Nat) (result : Option Outline) :
    Held file (traffic.step file (.finish ticket result)).cache ↔
      ¬ LandsAstray file traffic (.finish ticket result) := by
  rcases step_finish_cases file traffic ticket result with
    ⟨attempt, hmem, rfl, hstep⟩ | ⟨hnone, hstep⟩
  · rw [hstep]
    cases result with
    | none => exact iff_of_true (hheld.giveUp _ _ _) id
    | some outline =>
        rw [landsAstray_finish_iff horderly hmem]
        by_cases hcurrent : traffic.cache.inFlight.find? attempt.path = some attempt.ticket
        · rw [and_iff_right hcurrent]
          refine (held_land_iff hsound hheld hcurrent outline).trans ?_
          simp
        · refine iff_of_true ?_ fun h => hcurrent h.1
          unfold finish
          rw [ended_of_not_current hcurrent]
          exact hheld
  · rw [hstep]
    refine iff_of_true hheld ?_
    cases result with
    | none => exact id
    | some outline =>
        rintro ⟨attempt, hmem, hticket, -⟩
        exact hnone attempt hmem hticket

/-- A step from a coherent cache leads to a coherent one if and only if it does not land astray. -/
theorem coherent_step_iff (horderly : traffic.Orderly) (h : Coherent file traffic.cache)
    (next : Step) :
    Coherent file (traffic.step file next).cache ↔ ¬ LandsAstray file traffic next := by
  obtain ⟨hsound, hheld⟩ := coherent_iff.mp h
  rw [coherent_iff, and_iff_right (hsound.step next)]
  cases next with
  | replace path => exact iff_of_true (hheld.displace path) id
  | displace path => exact iff_of_true (hheld.displace path) id
  | refresh path => exact iff_of_true hheld id
  | remove path => exact iff_of_true (hheld.remove path) id
  | clear => exact iff_of_true (held_empty file _) id
  | finish ticket result => exact held_finish_iff horderly hsound hheld ticket result

/-- From a coherent cache on, the cache is coherent after every step if and only if no step lands
astray. -/
theorem coherent_run_iff (horderly : traffic.Orderly) (h : Coherent file traffic.cache)
    (steps : List Step) :
    (∀ earlier, earlier <+: steps → Coherent file (run file traffic earlier).cache) ↔
      Always file (fun traffic next => ¬ LandsAstray file traffic next) traffic steps := by
  induction steps generalizing traffic with
  | nil =>
      refine iff_of_true (fun earlier hearlier => ?_) trivial
      rw [List.prefix_nil.mp hearlier]
      exact h
  | cons next rest ih =>
      constructor
      · intro hall
        have hnext := hall [next] ⟨rest, rfl⟩
        refine ⟨(coherent_step_iff horderly h next).mp hnext,
          (ih (horderly.step next) hnext).mp fun earlier hearlier => ?_⟩
        exact hall (next :: earlier) (List.cons_prefix_cons.mpr ⟨rfl, hearlier⟩)
      · rintro ⟨hastray, hrest⟩ earlier hearlier
        have hnext := (coherent_step_iff horderly h next).mpr hastray
        cases earlier with
        | nil => exact h
        | cons first others =>
            obtain ⟨rfl, hothers⟩ := List.cons_prefix_cons.mp hearlier
            exact (ih (horderly.step _) hnext).mpr hrest others hothers

/-- Starting from nothing, the cache is coherent after every step if and only if no step lands
astray. -/
theorem coherent_iff_never_astray (file : Path → Path) (steps : List Step) :
    (∀ earlier, earlier <+: steps → Coherent file (run file {} earlier).cache) ↔
      Always file (fun traffic next => ¬ LandsAstray file traffic next) {} steps :=
  coherent_run_iff (orderly_run file [])
    (coherent_iff.mpr ⟨sound_empty file 0, held_empty file 0⟩) steps

/-- A document is being read while it is replaced under another of its paths: when the first reading
ends, the cache has two outlines of one file. -/
theorem two_outlines_of_one_file :
    let first := Path.absolute ["a.py"]
    let second := Path.absolute ["b.py"]
    let file := fun path => if path = second then first else path
    let cache := (run file {} [.refresh first, .replace second, .finish 1 (some .empty)]).cache
    cache.outlines.keys = [second, first] ∧ cache.holders.entries = [(first, first)] ∧
      ¬ Coherent file cache := by
  intro first second file cache
  have hkeys : cache.outlines.keys = [second, first] := by decide +kernel
  refine ⟨hkeys, by decide +kernel, fun h => ?_⟩
  have honce : ([second, first].map file).Nodup := hkeys ▸ h.once
  revert honce
  decide +kernel

/-! ## One path at a time -/

/-- A file gets a path, to be kept or read under, while it is read under another one. -/
def MixesPaths (file : Path → Path) (traffic : Traffic) : Step → Prop
  | .replace path | .displace path =>
    ∃ attempt ∈ traffic.underWay, file attempt.path = file path ∧ attempt.path ≠ path
  | .refresh path =>
    ∃ attempt ∈ traffic.underWay, file attempt.path = file path ∧
      attempt.path ≠ traffic.cache.holderOr path (file path)
  | _ => False

/-- Each file is read under one path, and held by no other one. -/
structure OnePath (file : Path → Path) (traffic : Traffic) : Prop where
  same : ∀ first ∈ traffic.underWay, ∀ second ∈ traffic.underWay,
    file first.path = file second.path → first.path = second.path
  held : ∀ attempt ∈ traffic.underWay, ∀ holder,
    traffic.cache.holders.find? (file attempt.path) = some holder → holder = attempt.path

/-- A reading begins under the path of the others of its file. -/
theorem OnePath.start (h : OnePath file traffic) {path : Path}
    (hothers : ∀ attempt ∈ traffic.underWay, file attempt.path = file path → attempt.path = path)
    (hheld : ∀ holder, traffic.cache.holders.find? (file path) = some holder → holder = path)
    (before : Option Outline) (replaces : Bool) :
    OnePath file (traffic.start path before replaces) where
  same := by
    intro first hfirst second hsecond hfile
    rcases mem_underWay_start.mp hfirst with hold | rfl
    · rcases mem_underWay_start.mp hsecond with hold' | rfl
      · exact h.same first hold second hold' hfile
      · exact hothers first hold hfile
    · rcases mem_underWay_start.mp hsecond with hold' | rfl
      · exact (hothers second hold' hfile.symm).symm
      · rfl
  held := by
    intro attempt hattempt holder hholder
    rcases mem_underWay_start.mp hattempt with hold | rfl
    · exact h.held attempt hold holder hholder
    · exact hheld holder hholder

/-- A file is displaced by the path under which it is read. -/
theorem OnePath.displace (h : OnePath file traffic) {path : Path}
    (hothers : ∀ attempt ∈ traffic.underWay, file attempt.path = file path →
      attempt.path = path) :
    OnePath file { traffic with cache := traffic.cache.displace path (file path) } where
  same := h.same
  held := by
    intro attempt hattempt holder hholder
    rw [Cache.holder_displace] at hholder
    split at hholder
    · next hfile => rw [hothers attempt hattempt hfile, Option.some.inj hholder]
    · exact h.held attempt hattempt holder hholder

/-- A reading that ends makes its path the holder, or leaves the holder as it is. -/
theorem OnePath.finish (h : OnePath file traffic) {ending : Attempt}
    (hending : ending ∈ traffic.underWay) (result : Option Outline) :
    OnePath file (traffic.finish file ending result) where
  same := fun first hfirst second hsecond =>
    h.same first (mem_underWay_finish.mp hfirst).1 second (mem_underWay_finish.mp hsecond).1
  held := by
    intro attempt hattempt holder hholder
    have hold := (mem_underWay_finish.mp hattempt).1
    by_cases hcurrent : traffic.cache.inFlight.find? ending.path = some ending.ticket
    · cases result with
      | none => exact h.held attempt hold holder ((Cache.holders_giveUp ..) ▸ hholder)
      | some outline =>
          simp only [Traffic.finish, ended, Cache.holder_land_of_current hcurrent] at hholder
          split at hholder
          · next hfile =>
              rw [← Option.some.inj hholder]
              exact h.same ending hending attempt hold hfile.symm
          · exact h.held attempt hold holder hholder
    · rw [cache_finish_of_not_current hcurrent] at hholder
      exact h.held attempt hold holder hholder

/-- Files stay on one path with a step that does not mix paths. -/
theorem OnePath.step (h : OnePath file traffic) (hsound : Sound file traffic.cache) {next : Step}
    (hnext : ¬ MixesPaths file traffic next) : OnePath file (traffic.step file next) := by
  cases next with
  | replace path =>
      have hothers : ∀ attempt ∈ traffic.underWay, file attempt.path = file path →
          attempt.path = path :=
        fun attempt hmem hfile => not_not.mp fun hne => hnext ⟨attempt, hmem, hfile, hne⟩
      refine (h.displace hothers).start hothers (fun holder hholder => ?_) ..
      rw [Cache.holder_displace, if_pos rfl] at hholder
      exact (Option.some.inj hholder).symm
  | displace path =>
      exact h.displace fun attempt hmem hfile =>
        not_not.mp fun hne => hnext ⟨attempt, hmem, hfile, hne⟩
  | refresh path =>
      have hfile := hsound.file_holderOr path
      refine h.start (fun attempt hmem hsame => ?_) (fun holder hholder => ?_) ..
      · exact not_not.mp fun hne => hnext ⟨attempt, hmem, hsame.trans hfile, hne⟩
      · rw [hfile] at hholder
        rw [Cache.holderOr, hholder, Option.getD_some]
  | remove path =>
      refine ⟨h.same, fun attempt hmem holder hholder => ?_⟩
      simp only [Traffic.step, Cache.holder_remove] at hholder
      split at hholder
      · contradiction
      · exact h.held attempt hmem holder hholder
  | clear => exact ⟨h.same, fun _ _ _ hholder => by contradiction⟩
  | finish ticket result =>
      rcases step_finish_cases file traffic ticket result with
        ⟨attempt, hmem, -, hstep⟩ | ⟨-, hstep⟩
      · rw [hstep]
        exact h.finish hmem result
      · rw [hstep]
        exact h

/-- No reading lands astray while each file is read under one path. -/
theorem OnePath.not_landsAstray (h : OnePath file traffic) (next : Step) :
    ¬ LandsAstray file traffic next := by
  cases next with
  | finish ticket result =>
      cases result with
      | none => exact id
      | some outline =>
          rintro ⟨attempt, hmem, -, -, holder, hholder, hne⟩
          exact hne (h.held attempt hmem holder hholder)
  | _ => exact id

/-- No step of a run lands astray if none mixes paths. -/
theorem OnePath.never_astray (h : OnePath file traffic) (hsound : Sound file traffic.cache)
    {steps : List Step} (hsteps : Always file (fun traffic next => ¬ MixesPaths file traffic next)
      traffic steps) :
    Always file (fun traffic next => ¬ LandsAstray file traffic next) traffic steps := by
  induction steps generalizing traffic with
  | nil => trivial
  | cons next rest ih =>
      exact ⟨h.not_landsAstray next, ih (h.step hsound hsteps.1) (hsound.step next) hsteps.2⟩

/-- The cache is coherent after every step if no file gets a second path while it is read. -/
theorem coherent_of_one_path (file : Path → Path) {steps : List Step}
    (h : Always file (fun traffic next => ¬ MixesPaths file traffic next) {} steps) :
    ∀ earlier, earlier <+: steps → Coherent file (run file {} earlier).cache := by
  have hstart : OnePath file {} := ⟨by simp, by simp⟩
  have hcoherent : Coherent file ({} : Traffic).cache :=
    coherent_iff.mpr ⟨sound_empty file 0, held_empty file 0⟩
  exact (coherent_run_iff (orderly_run file []) hcoherent steps).mpr
    (hstart.never_astray (sound_empty file 0) h)

end CommentIndex.Traffic
