import CommentIndex.Proofs.Cache.Lookup

/-!
# Writing one outline

A reading in which nothing else happens writes the outline of its file and leaves those of the other
files as they are, so long as no path is the holder of two files. `Writes` says so about the paths
of a cache, and `Writes.lookup_file` and `Writes.lookup_other` about its files. A replacement does
so whether its reading finds an outline or fails (`writes_replaced`).
-/

namespace CommentIndex.Cache

/-- The cache after a reading in which nothing else happens. -/
def landed (cache : Cache) (path file : Path) (outline : Outline) : Cache :=
  (cache.issue path).land path file cache.nextTicket outline

/-- The outline of a file was written under a path, in place of what was kept for the file. -/
structure Writes (before after : Cache) (path file : Path) (outline : Outline) : Prop where
  holder : ∀ other, after.holders.find? other =
    if other = file then some path else before.holders.find? other
  outline : after.outlines.find? path = some outline
  others : ∀ other, other ≠ path → before.holders.find? file ≠ some other →
    after.outlines.find? other = before.outlines.find? other

variable {before after : Cache} {path file other : Path} {outline : Outline}

/-- A ticket that is given out is the latest. -/
theorem inFlight_issue_self (cache : Cache) (path : Path) :
    (cache.issue path).inFlight.find? path = some cache.nextTicket := by
  rw [inFlight_issue, if_pos rfl]

/-- A reading in place writes its outline. -/
theorem writes_landed (cache : Cache) (path file : Path) (outline : Outline) :
    Writes cache (cache.landed path file outline) path file outline where
  holder := holder_land_of_current (cache.inFlight_issue_self path) file outline
  outline := by
    rw [landed, outline_land_of_current (cache.inFlight_issue_self path), if_pos rfl]
  others := fun other hother _ => by
    rw [landed, outline_land_of_current (cache.inFlight_issue_self path), if_neg hother]
    rfl

/-- A replacement writes its outline. -/
theorem writes_displace_landed (cache : Cache) (path file : Path) (outline : Outline) :
    Writes cache ((cache.displace path file).landed path file outline) path file outline where
  holder := fun other => by
    rw [(writes_landed ..).holder, holder_displace]
    split <;> rfl
  outline := (writes_landed ..).outline
  others := fun other hother hholder => by
    rw [(writes_landed _ path file outline).others other hother, outline_displace, if_neg hother,
      if_neg hholder]
    rw [holder_displace, if_pos rfl]
    exact fun h => hother (Option.some.inj h).symm

/-- A file that is displaced has an empty outline written. -/
theorem writes_displace (cache : Cache) (path file : Path) :
    Writes cache (cache.displace path file) path file .empty where
  holder := cache.holder_displace path file
  outline := by rw [outline_displace, if_pos rfl]
  others := fun other hother hholder => by
    rw [outline_displace, if_neg hother, if_neg hholder]

/-- The file has the outline that was written. -/
theorem Writes.lookup_file (h : Writes before after path file outline) :
    after.lookup? file = some outline := by
  rw [lookup?, h.holder, if_pos rfl]
  exact h.outline

/-- Another file keeps its outline if its holder keeps it. -/
theorem Writes.lookup_other (h : Writes before after path file outline) (hfile : other ≠ file)
    (hholder : ∀ holder, before.holders.find? other = some holder →
      holder ≠ path ∧ before.holders.find? file ≠ some holder) :
    after.lookup? other = before.lookup? other := by
  rw [lookup?, lookup?, h.holder, if_neg hfile]
  cases hfound : before.holders.find? other with
  | none => rfl
  | some holder => exact h.others holder (hholder holder hfound).1 (hholder holder hfound).2

/-! ## Replacing a file -/

/-- The cache after a replacement in which nothing else happens, by what its reading found. -/
def replaced (cache : Cache) (path file : Path) : Option Outline → Cache
  | some outline => (cache.displace path file).landed path file outline
  | none =>
    ((cache.displace path file).issue path).giveUp path cache.nextTicket (cache.lookup? file)

section

variable (cache : Cache) (path file : Path) (found : Option Outline)

/-- The ticket of a replacement is the latest of its path. -/
theorem inFlight_issue_displace :
    ((cache.displace path file).issue path).inFlight.find? path = some cache.nextTicket :=
  inFlight_issue_self (cache.displace path file) path

/-- A replacement writes what its reading found, or what was kept before if it failed. -/
theorem writes_replaced :
    Writes cache (cache.replaced path file found) path file
      (found.getD ((cache.lookup? file).getD .empty)) := by
  cases found with
  | some outline => exact writes_displace_landed cache path file outline
  | none =>
      have hcurrent := cache.inFlight_issue_displace path file
      constructor
      · intro other
        rw [replaced, holders_giveUp]
        exact holder_displace cache path file other
      · rw [replaced, outline_giveUp_of_current hcurrent, if_pos rfl]
        show ((cache.displace path file).outlines.find? path).map _ = _
        rw [outline_displace, if_pos rfl]
        rfl
      · intro other hother hholder
        rw [replaced, outline_giveUp_of_current hcurrent, if_neg hother]
        exact (outline_displace ..).trans ((if_neg hother).trans (if_neg hholder))

/-- After a replacement its path is not being read. -/
theorem inFlight_replaced (other : Path) :
    (cache.replaced path file found).inFlight.find? other =
      if other = path then none else cache.inFlight.find? other := by
  have hcurrent := cache.inFlight_issue_displace path file
  have hsettled : (cache.replaced path file found).inFlight =
      ((cache.displace path file).issue path).inFlight.erase path := by
    cases found with
    | some outline => exact congrArg Cache.inFlight (land_of_current hcurrent file outline)
    | none => exact inFlight_giveUp_of_current hcurrent _
  rw [hsettled, KeyedList.find?_erase, inFlight_issue]
  split <;> rfl

end

end CommentIndex.Cache
