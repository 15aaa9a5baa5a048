import CommentIndex.Outline
import Mathlib.Data.Nat.Find
import Mathlib.Data.List.Basic

/-!
# Which end tag closes which region

`Closes` says, of the events of a document alone, which end tag closes a region: the first one of
its tag at which every region opened in between has been closed. Read `closes_iff_encloses` first:
an end tag closes a region if and only if that is the innermost open one and has the key of the end
tag. `IsStack` describes a list of the open regions, and its lemmas say how one event changes it.
-/

namespace CommentIndex.Outline

/-- The key of the region that an event opens. -/
def Event.opens? : Event → Option String
  | .anchor key facts => if facts.isRegion then some key else none
  | .close _ _ => none

/-- The key of the regions that an event may close. -/
def Event.ends? : Event → Option String
  | .anchor _ _ => none
  | .close key _ => some key

/-- The key of the region that is opened at a place of the events. -/
def opensAt (events : List Event) (i : Nat) : Option String :=
  events[i]?.bind Event.opens?

/-- The key of the end tag at a place of the events. -/
def endsAt (events : List Event) (j : Nat) : Option String :=
  events[j]?.bind Event.ends?

mutual

/-- At `j` there is an end tag for the region opened at `i`, and every region opened strictly
between the two has been closed before `j`. -/
def Fits (events : List Event) (i j : Nat) : Prop :=
  i < j ∧ (∃ key, opensAt events i = some key ∧ endsAt events j = some key) ∧
    ∀ r, i < r → r < j → (opensAt events r).isSome → ∃ c, ∃ _ : c < j, Closes events r c
termination_by (j, 0)

/-- The region opened at `i` is closed at `j`, which is the first place that fits. -/
def Closes (events : List Event) (i j : Nat) : Prop :=
  Fits events i j ∧ ∀ c, (_ : c < j) → ¬ Fits events i c
termination_by (j, 1)

end

/-- The region opened at `i` is still open when what is at `n` is met. -/
def OpenAt (events : List Event) (i n : Nat) : Prop :=
  i < n ∧ (opensAt events i).isSome ∧ ∀ c < n, ¬ Closes events i c

/-- The innermost region that is open when what is at `n` is met, which is the one opened last. -/
def Encloses (events : List Event) (i n : Nat) : Prop :=
  OpenAt events i n ∧ ∀ r, OpenAt events r n → r ≤ i

/-- An end tag that closes nothing. -/
def Idle (events : List Event) (j : Nat) : Prop :=
  (endsAt events j).isSome ∧ ∀ i, ¬ Closes events i j

open Classical in
/-- The events without the end tags that close nothing. -/
noncomputable def withoutIdle (events : List Event) : List Event :=
  (events.zipIdx.filter fun event => ¬ Idle events event.2).map Prod.fst

variable {events : List Event} {i j n : Nat}

/-- A place that fits a region is preceded by the one that closes it, or closes it itself. -/
theorem Fits.exists_closes (h : Fits events i j) : ∃ c, c ≤ j ∧ Closes events i c := by
  classical
  have hfits : ∃ c, Fits events i c := ⟨j, h⟩
  refine ⟨Nat.find hfits, Nat.find_min' hfits h, ?_⟩
  rw [Closes]
  exact ⟨Nat.find_spec hfits, fun c hc => Nat.find_min hfits hc⟩

/-- What closes a region fits it. -/
theorem Closes.fits (h : Closes events i j) : Fits events i j := by
  rw [Closes] at h
  exact h.1

/-- A region is closed before a place if and only if an earlier place fits it. -/
theorem exists_closes_iff : (∃ c < n, Closes events i c) ↔ ∃ c < n, Fits events i c := by
  constructor
  · rintro ⟨c, hc, hcloses⟩
    exact ⟨c, hc, hcloses.fits⟩
  · rintro ⟨c, hc, hfits⟩
    obtain ⟨first, hle, hcloses⟩ := hfits.exists_closes
    exact ⟨first, Nat.lt_of_le_of_lt hle hc, hcloses⟩

/-- A region is closed at one place at most. -/
theorem Closes.unique (h : Closes events i j) (hn : Closes events i n) : j = n := by
  rw [Closes] at h hn
  rcases Nat.lt_trichotomy j n with hlt | heq | hgt
  · exact absurd h.1 (hn.2 j hlt)
  · exact heq
  · exact absurd hn.1 (h.2 n hgt)

/-- A region that is open is one that no earlier place fits. -/
theorem openAt_iff_fits :
    OpenAt events i n ↔ i < n ∧ (opensAt events i).isSome ∧ ∀ c < n, ¬ Fits events i c := by
  have hiff : (∃ c < n, Closes events i c) ↔ ∃ c < n, Fits events i c := exists_closes_iff
  have hnot := not_congr hiff
  push Not at hnot
  rw [OpenAt, hnot]

/-- An end tag fits a region if and only if it has its key and no region opened after that one is
open. -/
theorem fits_iff :
    Fits events i n ↔
      i < n ∧ (∃ key, opensAt events i = some key ∧ endsAt events n = some key) ∧
        ∀ r, OpenAt events r n → r ≤ i := by
  rw [Fits]
  refine and_congr_right fun hin => and_congr_right fun _ => ⟨?_, ?_⟩
  · intro hclosed r ⟨hrn, hopens, hnone⟩
    -- A region opened behind `i` has been closed before `n`.
    by_contra hir
    obtain ⟨c, hc, hcloses⟩ := hclosed r (by omega) hrn hopens
    exact hnone c hc hcloses
  · intro hlast r hir hrn hopens
    by_contra hnone
    push Not at hnone
    have := hlast r ⟨hrn, hopens, hnone⟩
    omega

/-- An end tag closes a region if and only if that is the innermost open one and has its key. -/
theorem closes_iff_encloses :
    Closes events i n ↔
      Encloses events i n ∧ ∃ key, opensAt events i = some key ∧ endsAt events n = some key := by
  rw [Closes, fits_iff, Encloses, openAt_iff_fits]
  constructor
  · rintro ⟨⟨hin, ⟨key, hkey, hends⟩, hlast⟩, hnone⟩
    exact ⟨⟨⟨hin, by simp [hkey], hnone⟩, hlast⟩, key, hkey, hends⟩
  · rintro ⟨⟨⟨hin, -, hnone⟩, hlast⟩, key, hkey, hends⟩
    exact ⟨⟨hin, ⟨key, hkey, hends⟩, hlast⟩, hnone⟩

/-- An end tag closes one region at most. -/
theorem Closes.region_unique {r : Nat} (h : Closes events r n) (hi : Closes events i n) :
    r = i := by
  obtain ⟨⟨hr, hrlast⟩, -⟩ := closes_iff_encloses.mp h
  obtain ⟨⟨hi, hilast⟩, -⟩ := closes_iff_encloses.mp hi
  exact Nat.le_antisymm (hilast r hr) (hrlast i hi)

/-- What is open behind an event is the region that it opens and what it leaves open. -/
theorem openAt_succ_iff :
    OpenAt events i (n + 1) ↔
      (i = n ∧ (opensAt events n).isSome) ∨ (OpenAt events i n ∧ ¬ Closes events i n) := by
  constructor
  · rintro ⟨hin, hopens, hnone⟩
    rcases Nat.lt_succ_iff_lt_or_eq.mp hin with hlt | rfl
    · exact .inr ⟨⟨hlt, hopens, fun c hc => hnone c (by omega)⟩, hnone n (by omega)⟩
    · exact .inl ⟨rfl, hopens⟩
  · rintro (⟨rfl, hopens⟩ | ⟨⟨hin, hopens, hnone⟩, hn⟩)
    · refine ⟨by omega, hopens, fun c hc hcloses => ?_⟩
      have := (fits_iff.mp hcloses.fits).1
      omega
    · refine ⟨by omega, hopens, fun c hc => ?_⟩
      rcases Nat.lt_succ_iff_lt_or_eq.mp hc with hlt | rfl
      · exact hnone c hlt
      · exact hn

/-- An event that opens a region ends none. -/
theorem endsAt_of_opensAt (h : (opensAt events n).isSome) : endsAt events n = none := by
  unfold opensAt at h
  unfold endsAt
  cases he : events[n]? with
  | none => rfl
  | some event =>
      cases event with
      | anchor key facts => rfl
      | close key closing => simp [he, Event.opens?] at h

/-! ## The stack of open regions -/

/-- A list of the regions that are open before a place, the one opened last first. -/
structure IsStack (events : List Event) (n : Nat) (regions : List Nat) : Prop where
  sorted : regions.Pairwise (· > ·)
  mem_iff : ∀ i, i ∈ regions ↔ OpenAt events i n

namespace IsStack

variable {region : Nat} {regions outer : List Nat}

/-- Nothing is open at the beginning. -/
theorem start : IsStack events 0 [] :=
  ⟨by simp, fun i => by simp [OpenAt]⟩

/-- No region is above the top. -/
theorem le_top (h : IsStack events n (region :: outer)) (hi : OpenAt events i n) : i ≤ region := by
  rcases List.mem_cons.mp ((h.mem_iff i).mpr hi) with rfl | hlow
  · exact Nat.le_refl i
  · exact Nat.le_of_lt ((List.pairwise_cons.mp h.sorted).1 i hlow)

/-- The top is the innermost open region. -/
theorem encloses_iff (h : IsStack events n regions) :
    Encloses events i n ↔ regions.head? = some i := by
  cases regions with
  | nil => simp [Encloses, ← h.mem_iff]
  | cons region outer =>
      have hregion : OpenAt events region n := (h.mem_iff region).mp (by simp)
      simp only [List.head?_cons, Option.some.injEq]
      constructor
      · rintro ⟨hopen, hlast⟩
        exact Nat.le_antisymm (hlast region hregion) (h.le_top hopen)
      · rintro rfl
        exact ⟨hregion, fun r hr => h.le_top hr⟩

/-- A region that is opened goes on top. -/
theorem opened (h : IsStack events n regions) (hopens : (opensAt events n).isSome) :
    IsStack events (n + 1) (n :: regions) where
  sorted := List.pairwise_cons.mpr ⟨fun i hi => ((h.mem_iff i).mp hi).1, h.sorted⟩
  mem_iff i := by
    have hnone : ¬ Closes events i n := fun hcloses => by
      obtain ⟨-, key, -, hends⟩ := closes_iff_encloses.mp hcloses
      simp [endsAt_of_opensAt hopens] at hends
    simp [openAt_succ_iff, h.mem_iff, hopens, hnone]

/-- A region that is closed is taken from the top. -/
theorem closed (h : IsStack events n (region :: outer)) (hcloses : Closes events region n) :
    IsStack events (n + 1) outer where
  sorted := (List.pairwise_cons.mp h.sorted).2
  mem_iff i := by
    have hnone : opensAt events n = none := by
      obtain ⟨-, key, -, hends⟩ := closes_iff_encloses.mp hcloses
      by_contra hopens
      simp [endsAt_of_opensAt (Option.isSome_iff_ne_none.mpr hopens)] at hends
    simp only [openAt_succ_iff, hnone, Option.isSome_none, Bool.false_eq_true, and_false,
      false_or, ← h.mem_iff]
    constructor
    · intro hi
      refine ⟨by simp [hi], fun hc => ?_⟩
      have := (List.pairwise_cons.mp h.sorted).1 i hi
      have := hc.region_unique hcloses
      omega
    · rintro ⟨hi, hn⟩
      rcases List.mem_cons.mp hi with rfl | hlow
      · exact absurd hcloses hn
      · exact hlow

/-- Where nothing is opened or closed the stack stays. -/
theorem idle (h : IsStack events n regions) (hopens : opensAt events n = none)
    (hidle : ∀ i, ¬ Closes events i n) : IsStack events (n + 1) regions :=
  ⟨h.sorted, fun i => by simp [openAt_succ_iff, h.mem_iff, hopens, hidle]⟩

end IsStack

end CommentIndex.Outline
