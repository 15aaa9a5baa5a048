import Mathlib.Tactic.ByContra
import Mathlib.Data.List.Basic

/-!
# First choices

A search that tries alternatives in order and takes the first that leads on finds the best thing
there is, if the order in which they are tried is the order of preference. `Best` says what the
best of the things that fit is, by a rank whose numbers are compared from left to right. The main
statement, `Best.firstOf`, adds one number to the rank: the size of the alternative taken.
-/

namespace CommentIndex.Matcher

/-- A rank is at most as high as another if the first number in which they differ is not larger. -/
def AtMost (first second : List Int) : Prop :=
  ¬List.Lex (· < ·) second first

/-- Every rank is as high as itself. -/
theorem AtMost.refl (rank : List Int) : AtMost rank rank :=
  List.lex_irrefl Int.lt_irrefl rank

/-- Ranks are compared by their first numbers, and if these are equal by what is behind. -/
theorem atMost_cons_iff {x y : Int} {first second : List Int} :
    AtMost (x :: first) (y :: second) ↔ x < y ∨ x = y ∧ AtMost first second := by
  unfold AtMost
  rw [List.cons_lex_cons_iff]
  constructor
  · intro h
    have hxy : ¬y < x := fun hlt => h (.inl hlt)
    rcases Int.lt_or_eq_of_le (Int.not_lt.mp hxy) with hlt | heq
    · exact .inl hlt
    · exact .inr ⟨heq, fun hrest => h (.inr ⟨heq.symm, hrest⟩)⟩
  · rintro (hlt | ⟨rfl, hrest⟩) (hgt | ⟨heq, hlex⟩)
    · omega
    · omega
    · omega
    · exact hrest hlex

/-- What is found of the things that fit: nothing if none does, and otherwise the image of one
that ranks as high as any other. -/
def Best {α β : Type} (fits : α → Prop) (rank : α → List Int) (image : α → β) : Option β → Prop
  | none => ∀ x, ¬fits x
  | some found => ∃ x, fits x ∧ image x = found ∧ ∀ y, fits y → AtMost (rank y) (rank x)

namespace Best

variable {α α' β β' κ : Type} {fits : α → Prop} {rank : α → List Int} {image : α → β}
  {found : Option β}

/-- Something is found if anything fits. -/
theorem isSome (h : Best fits rank image found) {x : α} (hx : fits x) : found.isSome := by
  cases found with
  | none => exact absurd hx (h x)
  | some found => rfl

/-- What fits may be told in other words. -/
theorem congr {fits' : α → Prop} (h : Best fits rank image found)
    (hfits : ∀ x, fits' x ↔ fits x) : Best fits' rank image found := by
  have : fits' = fits := funext fun x => propext (hfits x)
  rwa [this]

/-- The best of some things gives the best of what is built from them, if building keeps their
order and everything that fits is built from one that does. -/
theorem map {fits' : α' → Prop} {rank' : α' → List Int} {image' : α' → β'} {g : β → β'}
    (h : Best fits rank image found) (build : α → α') (hbuild : ∀ x, fits x → fits' (build x))
    (hall : ∀ y, fits' y → ∃ x, fits x ∧ build x = y)
    (himage : ∀ x, fits x → image' (build x) = g (image x))
    (hrank : ∀ x y, AtMost (rank y) (rank x) → AtMost (rank' (build y)) (rank' (build x))) :
    Best fits' rank' image' (found.map g) := by
  cases found with
  | none =>
      intro y hy
      obtain ⟨x, hx, -⟩ := hall y hy
      exact h x hx
  | some found =>
      obtain ⟨x, hx, rfl, hbest⟩ := h
      refine ⟨build x, hbuild x hx, himage x hx, fun y hy => ?_⟩
      obtain ⟨y, hfits, rfl⟩ := hall y hy
      exact hrank x y (hbest y hfits)

/-- The first alternative that leads on gives the best of all, if larger alternatives are tried
before smaller ones, and if each one that is admitted gives the best of what has its size. -/
theorem firstOf {keys : List κ} {tried : κ → Option β} (size : κ → Int) (admitted : κ → Prop)
    (measure : α → Int) (hsorted : keys.Pairwise fun first second => size second ≤ size first)
    (hbest : ∀ key ∈ keys, admitted key →
      Best (fun x => fits x ∧ measure x = size key) rank image (tried key))
    (hnone : ∀ key ∈ keys, ¬admitted key → tried key = none)
    (hkeys : ∀ x, fits x → ∃ key ∈ keys, admitted key ∧ measure x = size key) :
    Best fits (fun x => measure x :: rank x) image (keys.findSome? tried) := by
  cases hfound : keys.findSome? tried with
  | none =>
      intro x hx
      obtain ⟨key, hkey, hadmitted, hmeasure⟩ := hkeys x hx
      have hsome := (hbest key hkey hadmitted).isSome ⟨hx, hmeasure⟩
      rw [List.findSome?_eq_none_iff.mp hfound key hkey] at hsome
      contradiction
  | some found =>
      obtain ⟨before, key, after, rfl, htried, hbefore⟩ := List.findSome?_eq_some_iff.mp hfound
      have hkey : key ∈ before ++ key :: after := by simp
      have hadmitted : admitted key := by
        by_contra hnot
        rw [hnone key hkey hnot] at htried
        contradiction
      have hhere := hbest key hkey hadmitted
      rw [htried] at hhere
      obtain ⟨x, ⟨hx, hmeasure⟩, rfl, hrank⟩ := hhere
      refine ⟨x, hx, rfl, fun y hy => atMost_cons_iff.mpr ?_⟩
      obtain ⟨key', hkey', hadmitted', hmeasure'⟩ := hkeys y hy
      -- A larger alternative would have been tried before, and would have led on.
      have hle : size key' ≤ size key := by
        rcases List.mem_append.mp hkey' with hearlier | hlater
        · have hsome := (hbest key' hkey' hadmitted').isSome ⟨hy, hmeasure'⟩
          rw [hbefore key' hearlier] at hsome
          contradiction
        · rcases List.mem_cons.mp hlater with rfl | hlater
          · exact Int.le_refl _
          · have hbehind := (List.pairwise_append.mp hsorted).2.1
            exact (List.pairwise_cons.mp hbehind).1 key' hlater
      rw [hmeasure, hmeasure']
      rcases Int.lt_or_eq_of_le hle with hlt | heq
      · exact .inl hlt
      · exact .inr ⟨heq, hrank y ⟨hy, hmeasure'.trans heq⟩⟩

/-- One of two alternatives, of which the second counts only if the first does not lead on. -/
theorem or {first second : Option β} (measure : α → Bool)
    (hfirst : Best (fun x => fits x ∧ measure x = true) rank image first)
    (hsecond : Best (fun x => fits x ∧ measure x = false) rank image second) :
    Best fits (fun x => (measure x).toNat :: rank x) image (first.or second) := by
  have htried : first.or second =
      [true, false].findSome? fun key => if key then first else second := by
    cases first <;> cases second <;> rfl
  rw [htried]
  refine firstOf (fun key => key.toNat) (fun _ => True) _ (by simp) ?_ (by simp) ?_
  · rintro key - -
    cases key with
    | true => exact hfirst.congr fun x => by cases measure x <;> simp
    | false => exact hsecond.congr fun x => by cases measure x <;> simp
  · intro x _
    exact ⟨measure x, by simp, trivial, rfl⟩

end Best

end CommentIndex.Matcher
