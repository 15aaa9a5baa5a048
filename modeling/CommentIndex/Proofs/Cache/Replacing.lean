import CommentIndex.Proofs.Cache.Aliases
import CommentIndex.Proofs.Cache.Writing
import Mathlib.Data.List.Nodup

/-!
# A replacement by itself

A replacement in which nothing else happens leaves no other outline of its file, whatever path that
was kept under, and does not touch the outlines of other files. A coherent cache stays coherent.
-/

namespace CommentIndex.Traffic

variable {file : Path → Path} {cache : Cache}

/-- A coherent cache stays coherent when a file is replaced. -/
theorem Coherent.replaced (h : Coherent file cache) (path : Path) (found : Option Outline) :
    Coherent file (cache.replaced path (file path) found) := by
  obtain ⟨hsound, hheld⟩ := coherent_iff.mp h
  have hcurrent := cache.inFlight_issue_displace path (file path)
  have hdisplaced := hsound.displace path
  have hissued : Sound file ((cache.displace path (file path)).issue path) :=
    ⟨hdisplaced.distinct, hdisplaced.names, hdisplaced.kept⟩
  have hissuedHeld : Held file ((cache.displace path (file path)).issue path) :=
    hheld.displace path
  cases found with
  | none => exact coherent_iff.mpr ⟨hissued.giveUp .., hissuedHeld.giveUp _ _ _⟩
  | some outline =>
      refine coherent_iff.mpr ⟨hissued.land hcurrent outline, ?_⟩
      refine (held_land_iff hissued hissuedHeld hcurrent outline).mpr fun holder hholder => ?_
      -- The file has been displaced, so no other path holds it.
      have hown := (Cache.holder_displace cache path (file path) (file path)).symm.trans hholder
      rw [if_pos rfl] at hown
      exact (Option.some.inj hown).symm

/-- The path that holds a file is the only one with an outline of it. -/
theorem Coherent.filter_keys (h : Coherent file cache) {path : Path}
    (hholder : cache.holders.find? (file path) = some path) :
    cache.outlines.keys.filter (fun key => file key = file path) = [path] := by
  have hsame : ∀ key ∈ cache.outlines.keys,
      decide (file key = file path) = decide (key = path) := by
    intro key hkey
    refine decide_eq_decide.mpr ⟨fun hfile => ?_, congrArg file⟩
    have hheld := h.held key hkey
    rw [hfile, hholder] at hheld
    exact (Option.some.inj hheld).symm
  rw [List.filter_congr hsame, List.filter_eq,
    List.count_eq_one_of_mem (h.once.of_map _) (h.kept _ _ hholder).1]
  rfl

/-- The other files keep their outlines when that of a file is written. -/
theorem Sound.lookup_written {after : Cache} {outline : Outline} {path other : Path}
    (h : Sound file cache) (hwrites : Cache.Writes cache after path (file path) outline)
    (hother : other ≠ file path) : after.lookup? other = cache.lookup? other := by
  refine hwrites.lookup_other hother fun holder hholder => ?_
  have hnames := h.names other holder hholder
  refine ⟨?_, h.holder_ne (hnames.symm ▸ hother)⟩
  rintro rfl
  exact hother hnames.symm

/-- The other files keep their outlines when a file is replaced. -/
theorem Sound.lookup_replaced (h : Sound file cache) {path other : Path}
    (hother : other ≠ file path) (found : Option Outline) :
    (cache.replaced path (file path) found).lookup? other = cache.lookup? other :=
  h.lookup_written (cache.writes_replaced path (file path) found) hother

end CommentIndex.Traffic
