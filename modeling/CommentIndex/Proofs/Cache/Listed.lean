import CommentIndex.Proofs.Cache.Replacing
import Mathlib.Data.Finset.Card

/-!
# How many files are listed

A file is listed if the outline that is kept for it has anchors. When documents are read one after
another, there are at most as many more files listed as readings with finds. By
`RewritesAll.listed_le` there are just as many if and only if each find leaves anchors behind, in a
file that was not listed before and is not rewritten later under whatever path.
-/

namespace CommentIndex

/-- Whether there are anchors in an outline. -/
def Outline.hasAnchors (outline : Outline) : Bool :=
  !outline.anchors.isEmpty

namespace Cache

/-- What is known of a file: its outline, which is empty if none is kept. -/
def known (cache : Cache) (item : Path) : Outline :=
  (cache.lookup? item).getD .empty

/-- How many outlines with anchors are kept. -/
def listed (cache : Cache) : Nat :=
  cache.outlines.entries.countP (·.2.hasAnchors)

end Cache

namespace Traffic

variable {file : Path → Path} {cache before after : Cache} {item path : Path} {outline : Outline}

/-! ## The files that are listed -/

/-- The files whose outlines have anchors. -/
def listedFiles (file : Path → Path) (cache : Cache) : Finset Path :=
  ((cache.outlines.entries.filter (·.2.hasAnchors)).map fun entry => file entry.1).toFinset

/-- Each file is listed once. -/
theorem Coherent.card_listedFiles (h : Coherent file cache) :
    (listedFiles file cache).card = cache.listed := by
  have honce : (cache.outlines.entries.map fun entry => file entry.1).Nodup := by
    have hkeys := h.once
    rwa [KeyedList.keys, List.map_map] at hkeys
  rw [listedFiles, List.toFinset_card_of_nodup (honce.sublist (List.filter_sublist.map _)),
    List.length_map, Cache.listed, List.countP_eq_length_filter]

/-- A file is listed if what is known of it has anchors. -/
theorem Coherent.mem_listedFiles (h : Coherent file cache) :
    item ∈ listedFiles file cache ↔ (cache.known item).hasAnchors := by
  have hdistinct : cache.outlines.keys.Nodup := h.once.of_map _
  simp only [listedFiles, List.mem_toFinset, List.mem_map, List.mem_filter]
  constructor
  · rintro ⟨⟨path, outline⟩, ⟨hentry, hanchors⟩, rfl⟩
    have hfound := (KeyedList.find?_eq_some_iff hdistinct).mpr hentry
    have hheld := h.held path (List.mem_map.mpr ⟨_, hentry, rfl⟩)
    rw [Cache.known, Cache.lookup?, hheld, Option.bind_some, hfound]
    exact hanchors
  · intro hanchors
    rw [Cache.known] at hanchors
    cases hlookup : cache.lookup? item with
    | none =>
        rw [hlookup] at hanchors
        contradiction
    | some outline =>
        rw [hlookup] at hanchors
        obtain ⟨path, hholder, hfound⟩ := Option.bind_eq_some_iff.mp hlookup
        exact ⟨(path, outline), ⟨(KeyedList.find?_eq_some_iff hdistinct).mp hfound, hanchors⟩,
          (h.kept item path hholder).2⟩

/-- The listed files are the others that are listed, and the file itself if it is. -/
theorem Coherent.card_erase_listedFiles (h : Coherent file cache) (item : Path) :
    ((listedFiles file cache).erase item).card + (cache.known item).hasAnchors.toNat =
      cache.listed := by
  rw [← h.card_listedFiles]
  cases hanchors : (cache.known item).hasAnchors with
  | true => exact Finset.card_erase_add_one (h.mem_listedFiles.mpr hanchors)
  | false =>
      rw [Finset.erase_eq_of_notMem fun hmem => ?_]
      · rfl
      · rw [h.mem_listedFiles, hanchors] at hmem
        contradiction

/-- When another outline is known of one file, that file alone may come to be listed or no longer
be. -/
theorem listed_of_known_update (hbefore : Coherent file before) (hafter : Coherent file after)
    (hknown : after.known = Function.update before.known item outline) :
    after.listed + (before.known item).hasAnchors.toNat =
      before.listed + outline.hasAnchors.toNat := by
  have hothers : (listedFiles file after).erase item = (listedFiles file before).erase item := by
    ext other
    rw [Finset.mem_erase, Finset.mem_erase, hafter.mem_listedFiles, hbefore.mem_listedFiles]
    refine and_congr_right fun hother => ?_
    rw [hknown, Function.update_of_ne hother]
  rw [← hbefore.card_erase_listedFiles item, ← hafter.card_erase_listedFiles item, hothers, hknown,
    Function.update_self]
  omega

/-- As many files are listed as before if the same is known of all. -/
theorem listed_of_known_eq (hbefore : Coherent file before) (hafter : Coherent file after)
    (hknown : after.known = before.known) : after.listed = before.listed := by
  rw [← hbefore.card_listedFiles, ← hafter.card_listedFiles]
  congr 1
  ext item
  rw [hafter.mem_listedFiles, hbefore.mem_listedFiles, hknown]

/-! ## Readings -/

/-- A reading of a path puts an outline in the place of what was known of its file, or leaves all as
it is. -/
structure Rewrites (file : Path → Path) (path : Path) (written : Option Outline)
    (before after : Cache) : Prop where
  coherent : Coherent file after
  known : after.known = written.elim before.known (Function.update before.known (file path))

/-- Once an outline has been written, it is what is known of its file. -/
theorem known_of_writes (h : Sound file before)
    (hwrites : Cache.Writes before after path (file path) outline) :
    after.known = Function.update before.known (file path) outline := by
  funext item
  by_cases hitem : item = file path
  · rw [hitem, Function.update_self, Cache.known, hwrites.lookup_file]
    rfl
  · rw [Function.update_of_ne hitem, Cache.known, h.lookup_written hwrites hitem]
    rfl

/-- A replacement in which nothing else happens writes what it found. -/
theorem Coherent.rewrites_replaced (h : Coherent file cache) (path : Path)
    (found : Option Outline) :
    Rewrites file path found cache (cache.replaced path (file path) found) where
  coherent := h.replaced path found
  known := by
    have hknown := known_of_writes (coherent_iff.mp h).1
      (cache.writes_replaced path (file path) found)
    cases found with
    | some outline => exact hknown
    | none => exact hknown.trans (Function.update_eq_self ..)

/-- A file that is displaced is as good as unread. -/
theorem Coherent.rewrites_displace (h : Coherent file cache) (path : Path) :
    Rewrites file path (some .empty) cache (cache.displace path (file path)) where
  coherent := by
    obtain ⟨hsound, hheld⟩ := coherent_iff.mp h
    exact coherent_iff.mpr ⟨hsound.displace path, hheld.displace path⟩
  known := known_of_writes (coherent_iff.mp h).1 (cache.writes_displace path (file path))

/-- Documents are read one after another. -/
inductive RewritesAll (file : Path → Path) (written? : Path → Option Outline) :
    List Path → Cache → Cache → Prop
  | nil (cache : Cache) : RewritesAll file written? [] cache cache
  | cons {path : Path} {rest : List Path} {before next after : Cache}
    (first : Rewrites file path (written? path) before next)
    (others : RewritesAll file written? rest next after) :
    RewritesAll file written? (path :: rest) before after

section

variable {written? : Path → Option Outline} {finds : Path → Bool} {paths : List Path}

/-- Nothing is found where nothing is written, and anchors are found where they are written. -/
structure Reveals (written? : Path → Option Outline) (finds : Path → Bool) : Prop where
  written : ∀ path, finds path → (written? path).isSome
  anchors : ∀ path, (written? path).any Outline.hasAnchors → finds path

/-- Every find writes anchors, and no later reading writes to the file of a find. -/
def FindsLast (file : Path → Path) (written? : Path → Option Outline) (finds : Path → Bool)
    (paths : List Path) : Prop :=
  (∀ path ∈ paths, finds path → (written? path).any Outline.hasAnchors) ∧
    paths.Pairwise fun path later =>
      finds path → file later = file path → written? later = none

/-- No reading writes to a file that is listed. -/
def Spares (file : Path → Path) (written? : Path → Option Outline) (paths : List Path)
    (cache : Cache) : Prop :=
  ∀ path ∈ paths, (written? path).isSome → (cache.known (file path)).hasAnchors = false

/-- A reading with a find lists at most one more file, and it does so if it writes anchors, into a
file that was not listed. -/
theorem Rewrites.listed_le (h : Rewrites file path (written? path) before after)
    (hbefore : Coherent file before) (hreveals : Reveals written? finds) :
    after.listed ≤ before.listed + (finds path).toNat ∧
      (after.listed = before.listed + (finds path).toNat ↔
        (finds path → (written? path).any Outline.hasAnchors) ∧
          ((written? path).isSome → (before.known (file path)).hasAnchors = false)) := by
  have hwritten := hreveals.written path
  have hanchors := hreveals.anchors path
  have hknown := h.known
  cases hcase : written? path with
  | none =>
      rw [hcase] at hwritten hknown
      have hsame := listed_of_known_eq hbefore h.coherent hknown
      have hfinds : finds path = false := eq_false_of_ne_true fun hfinds =>
        Bool.false_ne_true (hwritten hfinds)
      simp [hsame, hfinds]
  | some outline =>
      rw [hcase] at hanchors hknown
      have hsum := listed_of_known_update hbefore h.coherent hknown
      rw [Option.any_some] at hanchors ⊢
      have himp (first second : Bool) : (first = true → second = true) ↔
          first.toNat ≤ second.toNat := by
        cases first <;> cases second <;> decide
      rw [himp] at hanchors
      rw [himp, Option.isSome_some, forall_prop_of_true rfl, ← Bool.toNat_eq_zero]
      omega

/-- After a reading that lists as many more files as it has finds, later readings write to no listed
file if and only if they did not before and do not write to the file of the find. -/
theorem Rewrites.spares_iff (h : Rewrites file path (written? path) before after)
    (hreveals : Reveals written? finds)
    (hfind : finds path → (written? path).any Outline.hasAnchors)
    (hnew : (written? path).isSome → (before.known (file path)).hasAnchors = false)
    (rest : List Path) :
    Spares file written? rest after ↔
      (∀ later ∈ rest, finds path → file later = file path → written? later = none) ∧
        Spares file written? rest before := by
  unfold Spares
  rw [← forall₂_and]
  refine forall₂_congr fun later _ => ?_
  have hknown := h.known
  have hwritten := hreveals.written path
  have hanchors := hreveals.anchors path
  by_cases hsame : file later = file path
  · cases hcase : written? path with
    | none =>
        rw [hcase] at hknown hwritten
        have hfinds : ¬ finds path := fun hfinds => Bool.false_ne_true (hwritten hfinds)
        simp [hknown, hfinds]
    | some outline =>
        rw [hcase] at hknown hanchors hfind hnew
        rw [Option.any_some] at hanchors hfind
        have hfinds : finds path = outline.hasAnchors := Bool.eq_iff_iff.mpr ⟨hfind, hanchors⟩
        rw [hsame, hknown, Option.elim_some, Function.update_self, hnew rfl, hfinds]
        cases hlater : written? later <;> simp
  · have hother : after.known (file later) = before.known (file later) := by
      rw [hknown]
      cases written? path with
      | none => rfl
      | some outline => exact Function.update_of_ne hsame ..
    simp [hother, hsame]

/-- Readings list at most as many more files as they have finds, and as many if and only if each
find writes anchors, none writes to the file of an earlier find, and none to a file that was listed
before. -/
theorem RewritesAll.listed_le (h : RewritesAll file written? paths before after)
    (hbefore : Coherent file before) (hreveals : Reveals written? finds) :
    after.listed ≤ before.listed + paths.countP finds ∧
      (after.listed = before.listed + paths.countP finds ↔
        FindsLast file written? finds paths ∧ Spares file written? paths before) := by
  induction h with
  | nil cache => simp [FindsLast, Spares]
  | @cons path rest before next after first others ih =>
      obtain ⟨hstep, hstepEq⟩ := first.listed_le hbefore hreveals
      obtain ⟨hrest, hrestEq⟩ := ih first.coherent
      have hcount : (path :: rest).countP finds = (finds path).toNat + rest.countP finds := by
        cases hfinds : finds path <;> simp [hfinds, Nat.add_comm]
      have hboth : after.listed = before.listed + (path :: rest).countP finds ↔
          next.listed = before.listed + (finds path).toNat ∧
            after.listed = next.listed + rest.countP finds := by
        omega
      refine ⟨by omega, ?_⟩
      have hlast : FindsLast file written? finds (path :: rest) ↔
          ((finds path → (written? path).any Outline.hasAnchors) ∧
            ∀ later ∈ rest, finds path → file later = file path → written? later = none) ∧
          FindsLast file written? finds rest := by
        simp only [FindsLast, List.forall_mem_cons, List.pairwise_cons]
        tauto
      have hspares : Spares file written? (path :: rest) before ↔
          ((written? path).isSome → (before.known (file path)).hasAnchors = false) ∧
            Spares file written? rest before :=
        List.forall_mem_cons
      rw [hboth, hstepEq, hrestEq, hlast, hspares]
      constructor
      · rintro ⟨⟨hfind, hnew⟩, hrestLast, hrestSpares⟩
        obtain ⟨hlater, hold⟩ := (first.spares_iff hreveals hfind hnew rest).mp hrestSpares
        exact ⟨⟨⟨hfind, hlater⟩, hrestLast⟩, hnew, hold⟩
      · rintro ⟨⟨⟨hfind, hlater⟩, hrestLast⟩, hnew, hold⟩
        exact ⟨⟨hfind, hnew⟩, hrestLast,
          (first.spares_iff hreveals hfind hnew rest).mpr ⟨hlater, hold⟩⟩

end

end Traffic

end CommentIndex
