import CommentIndex.Path
import Mathlib.Data.String.Basic

/-!
# The order of paths

Paths are in order by their slashes, and then by the first of their names that differ. That is a
linear order, so there is one way to sort paths.
-/

namespace CommentIndex.Path

/-- No names sort earlier than none. -/
theorem namesLe_nil_iff {names : List String} : namesLe names [] = true ↔ names = [] := by
  cases names <;> simp [namesLe]

/-- Names sort by the first one, and by the others if that is the same. -/
theorem namesLe_cons_iff {first second : String} {firsts seconds : List String} :
    namesLe (first :: firsts) (second :: seconds) = true ↔
      first < second ∨ first = second ∧ namesLe firsts seconds = true := by
  by_cases h : first = second
  · simp [namesLe, h]
  · simp [namesLe, h]

/-- The order of names is transitive. -/
theorem namesLe_trans {first second third : List String} (h : namesLe first second = true)
    (h' : namesLe second third = true) : namesLe first third = true := by
  induction first generalizing second third with
  | nil => rfl
  | cons name names ih =>
      cases second with
      | nil => simp [namesLe] at h
      | cons name' names' =>
          cases third with
          | nil => simp [namesLe] at h'
          | cons name'' names'' =>
              rw [namesLe_cons_iff] at h h' ⊢
              rcases h with h | ⟨rfl, h⟩
              · rcases h' with h' | ⟨rfl, -⟩
                · exact .inl (lt_trans h h')
                · exact .inl h
              · exact h'.imp_right fun ⟨heq, h'⟩ => ⟨heq, ih h h'⟩

/-- Of two lists of names one sorts no later than the other. -/
theorem namesLe_total (first second : List String) :
    namesLe first second = true ∨ namesLe second first = true := by
  induction first generalizing second with
  | nil => exact .inl rfl
  | cons name names ih =>
      cases second with
      | nil => exact .inr rfl
      | cons name' names' =>
          rw [namesLe_cons_iff, namesLe_cons_iff]
          rcases lt_trichotomy name name' with h | rfl | h
          · exact .inl (.inl h)
          · exact (ih names').imp (fun h => .inr ⟨rfl, h⟩) fun h => .inr ⟨rfl, h⟩
          · exact .inr (.inl h)

/-- Only the same names sort no later than each other. -/
theorem namesLe_antisymm {first second : List String} (h : namesLe first second = true)
    (h' : namesLe second first = true) : first = second := by
  induction first generalizing second with
  | nil => exact (namesLe_nil_iff.mp h').symm
  | cons name names ih =>
      cases second with
      | nil => simp [namesLe] at h
      | cons name' names' =>
          rw [namesLe_cons_iff] at h h'
          rcases h with h | ⟨rfl, h⟩
          · rcases h' with h' | ⟨rfl, -⟩
            · exact absurd h' (lt_asymm h)
            · exact absurd h (lt_irrefl _)
          · rcases h' with h' | ⟨-, h'⟩
            · exact absurd h' (lt_irrefl _)
            · rw [ih h h']

/-- A path sorts by its slashes, and by its names if these are the same. -/
theorem le_iff {first second : Path} : first.le second = true ↔
    first.slashes < second.slashes ∨
      first.slashes = second.slashes ∧ namesLe first.names second.names = true := by
  simp [le]

/-- The order of paths is transitive. -/
theorem le_trans (first second third : Path) (h : first.le second = true)
    (h' : second.le third = true) : first.le third = true := by
  rw [le_iff] at h h' ⊢
  rcases h with h | ⟨heq, h⟩
  · exact .inl (by omega)
  · rcases h' with h' | ⟨heq', h'⟩
    · exact .inl (by omega)
    · exact .inr ⟨heq.trans heq', namesLe_trans h h'⟩

/-- Of two paths one sorts no later than the other. -/
theorem le_total (first second : Path) : (first.le second || second.le first) = true := by
  rw [Bool.or_eq_true, le_iff, le_iff]
  rcases Nat.lt_trichotomy first.slashes second.slashes with h | h | h
  · exact .inl (.inl h)
  · exact (namesLe_total first.names second.names).imp (fun hle => .inr ⟨h, hle⟩)
      fun hle => .inr ⟨h.symm, hle⟩
  · exact .inr (.inl h)

/-- Only the same path sorts no later and no earlier. -/
theorem le_antisymm {first second : Path} (h : first.le second = true)
    (h' : second.le first = true) : first = second := by
  rw [le_iff] at h h'
  obtain ⟨slashes, names⟩ := first
  obtain ⟨slashes', names'⟩ := second
  dsimp only at h h'
  obtain rfl : slashes = slashes' := by omega
  exact congrArg (mk slashes) (namesLe_antisymm (by simpa using h) (by simpa using h'))

/-- What is kept under paths is in order once it is sorted by them. -/
theorem pairwise_mergeSort {α : Type} (entries : List (Path × α)) :
    (entries.mergeSort fun first second => first.1.le second.1).Pairwise fun first second =>
      first.1.le second.1 = true :=
  List.pairwise_mergeSort (fun first second third => le_trans first.1 second.1 third.1)
    (fun first second => le_total first.1 second.1) _

end CommentIndex.Path
