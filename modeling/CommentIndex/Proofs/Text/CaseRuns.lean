import CommentIndex.Proofs.Text.Caseless

/-!
# Runs of the case tables

A run of a case table moves the code points from its first to its last one, in steps, all by the
same shift. `CaseRun.find?_of_shiftIn?` is how the tables are looked at run by run: where another
table moves the points of a run all alike, `CaseRun.shiftIn?` tells by how much.
-/

namespace CommentIndex.Text.CaseRun

/-- A run maps a code point. -/
def Covers (run : CaseRun) (code : Nat) : Prop :=
  run.first ≤ code ∧ code ≤ run.last ∧ (code - run.first) % run.step = 0

/-- How far `runs` move the code points that a run covers, if they move all of them alike. Code
points that none of `runs` covers stay where they are, also those between the points of a run. -/
def shiftIn? (run : CaseRun) : List CaseRun → Option Int
  | [] => some 0
  | other :: others =>
    bif Nat.blt run.last other.first then some 0
    else bif Nat.blt other.last run.first then run.shiftIn? others
    else if run.step = 2 ∧ other.step = 2 ∧ (run.first + other.first) % 2 = 1 then
      (run.shiftIn? others).filter (· = 0)
    else if other.first ≤ run.first ∧ run.last ≤ other.last ∧ run.step % other.step = 0 ∧
        (run.first - other.first) % other.step = 0 then
      some other.shift
    else none

/-- The code points to which a run leads. -/
def moved (run : CaseRun) : CaseRun :=
  ⟨(run.first + run.shift).toNat, (run.last + run.shift).toNat, run.step, 0⟩

variable {run other : CaseRun} {runs : List CaseRun} {code image : Nat} {shift : Int}

/-- What is found was found in a run that covers the code point. -/
theorem exists_of_find? (h : find? code runs = some image) :
    ∃ run ∈ runs, run.Covers code ∧ image = (code + run.shift).toNat := by
  induction runs with
  | nil => contradiction
  | cons run runs ih =>
      unfold find? at h
      split at h
      · contradiction
      · next hfirst =>
          split at h
          · next hcovers =>
              rw [Bool.and_eq_true, decide_eq_true_eq, beq_iff_eq] at hcovers
              exact ⟨run, List.mem_cons_self, ⟨Nat.not_lt.mp hfirst, hcovers⟩,
                (Option.some.inj h).symm⟩
          · obtain ⟨run', hmem, hrun'⟩ := ih h
            exact ⟨run', List.mem_cons_of_mem _ hmem, hrun'⟩

/-- A run inside another one, in step with it, covers nothing else. -/
theorem Covers.of_inside (h : run.Covers code) (hfirst : other.first ≤ run.first)
    (hlast : run.last ≤ other.last) (hstep : run.step % other.step = 0)
    (hoffset : (run.first - other.first) % other.step = 0) : other.Covers code := by
  obtain ⟨hlow, hhigh, hin⟩ := h
  refine ⟨by omega, by omega, ?_⟩
  have hrun : other.step ∣ code - run.first :=
    Nat.dvd_trans (Nat.dvd_of_mod_eq_zero hstep) (Nat.dvd_of_mod_eq_zero hin)
  have hsplit : code - other.first = (code - run.first) + (run.first - other.first) := by omega
  rw [hsplit]
  exact Nat.mod_eq_zero_of_dvd (Nat.dvd_add hrun (Nat.dvd_of_mod_eq_zero hoffset))

/-- Where a run leads is covered by what it is moved to. -/
theorem Covers.moved (h : run.Covers code) (hfirst : 0 ≤ run.first + run.shift) :
    run.moved.Covers (code + run.shift).toNat := by
  obtain ⟨hlow, hhigh, hin⟩ := h
  have hoffset : (code + run.shift).toNat - (run.first + run.shift).toNat = code - run.first := by
    omega
  refine ⟨?_, ?_, ?_⟩ <;> dsimp only [CaseRun.moved]
  · omega
  · omega
  · rwa [hoffset]

/-- The code points of a run are moved as `shiftIn?` says. -/
theorem find?_of_shiftIn? (hruns : ∀ run ∈ runs, run.first ≤ run.last)
    (h : run.shiftIn? runs = some shift) (hcode : run.Covers code) :
    (find? code runs).getD code = (code + shift).toNat := by
  have ⟨hlow, hhigh, hin⟩ := hcode
  induction runs generalizing shift with
  | nil =>
      obtain rfl := Option.some.inj h
      simp [find?]
  | cons other others ih =>
      have hother : other.first ≤ other.last := hruns other List.mem_cons_self
      have ih := fun {shift} => @ih shift fun run hrun => hruns run (List.mem_cons_of_mem _ hrun)
      unfold shiftIn? at h
      unfold find?
      simp only [Bool.cond_eq_ite, Nat.blt_eq] at h
      split at h
      · -- The code point stands before `other`, and so before all that comes behind it.
        obtain rfl := Option.some.inj h
        rw [if_pos (by omega)]
        simp
      · split at h
        · rw [if_neg (by omega), if_neg (by simp; omega)]
          exact ih h
        · split at h
          · next hparity =>
              -- It stands between the points of `other`, or before the first of them.
              obtain ⟨htwo, htwo', hodd⟩ := hparity
              obtain ⟨hrest, rfl⟩ : run.shiftIn? others = some shift ∧ shift = 0 := by
                simpa using Option.filter_eq_some_iff.mp h
              rw [htwo] at hin
              split
              · simp
              · rw [if_neg (by simp [htwo']; omega)]
                exact ih hrest
          · split at h
            · next hinside =>
                obtain ⟨hfirst, hlast, hstep, hoffset⟩ := hinside
                obtain rfl := Option.some.inj h
                obtain ⟨-, hhigh', hin'⟩ := hcode.of_inside hfirst hlast hstep hoffset
                rw [if_neg (by omega), if_pos (by simp [hhigh', hin'])]
                rfl
            · contradiction

end CommentIndex.Text.CaseRun
