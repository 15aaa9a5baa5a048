import CommentIndex.Glob
import Mathlib.Data.List.Basic
import Mathlib.Data.List.TakeWhile
import Mathlib.Order.WellFounded

/-!
# Writing out pairs of braces

A pair of braces is innermost if no brace stands between the two. `innermost?` finds the leftmost of
those pairs (`innermost?_eq_some`), and `expandBraces` replaces it by each of its options and
goes on with what comes out (`expandBraces_eq`), which has one opening brace less. So this ends
(`unfolds_wellFounded`), and no pair is left in what comes out at the end
(`not_isPair_of_mem_expandBraces`).
-/

namespace CommentIndex.Glob

/-- There is no brace in a text. -/
def BraceFree (text : List Char) : Prop :=
  ∀ c ∈ text, isBrace c = false

instance (text : List Char) : Decidable (BraceFree text) :=
  decidable_of_iff (text.all fun c => !isBrace c) (by simp [BraceFree])

/-- A pattern is a pair of braces with no brace inside, between two texts. -/
structure IsPair (pattern head inner tail : List Char) : Prop where
  text_eq : pattern = head ++ openBrace :: (inner ++ closeBrace :: tail)
  inner_free : BraceFree inner

variable {pattern head inner tail : List Char}

/-! ## The leftmost innermost pair -/

theorem isBrace_openBrace : isBrace openBrace = true := rfl

theorem isBrace_closeBrace : isBrace closeBrace = true := rfl

/-- A brace is the first one of a text if and only if it stands behind a text without braces. -/
theorem find?_isBrace_eq_some_iff {brace : Char} (hbrace : isBrace brace = true) :
    pattern.find? isBrace = some brace ↔
      ∃ inner tail, BraceFree inner ∧ pattern = inner ++ brace :: tail := by
  rw [List.find?_eq_some_iff_append]
  simp only [hbrace, true_and, Bool.not_eq_true', BraceFree]
  exact exists_congr fun inner => exists_congr fun tail => and_comm

/-- There is no first brace if and only if there is no brace. -/
theorem find?_isBrace_eq_none_iff : pattern.find? isBrace = none ↔ BraceFree pattern := by
  simp [List.find?_eq_none, BraceFree]

/-- An opening brace that is closed by the next brace begins the leftmost pair. -/
theorem innermost?_pair (h : BraceFree inner) (tail : List Char) :
    innermost? (openBrace :: (inner ++ closeBrace :: tail)) = some ([], inner, tail) := by
  have hinner : (inner ++ closeBrace :: tail).takeWhile (fun c => !isBrace c) = inner := by
    rw [List.takeWhile_append_of_pos fun c hc => by rw [h c hc]; rfl, List.takeWhile_cons]
    simp [isBrace_closeBrace]
  simp only [innermost?, hinner, List.drop_left, List.head?_cons, decide_true, Bool.and_self,
    if_true, Option.some_or, ← List.drop_drop, List.drop_one, List.tail_cons]

/-- No pair begins with a character in front of a text: it is no opening brace, or the next brace is
no closing one. -/
def Skips (c : Char) (rest : List Char) : Prop :=
  c = openBrace → rest.find? isBrace ≠ some closeBrace

variable {c : Char} {rest : List Char}

/-- A character that begins no pair is skipped. -/
theorem innermost?_skip (h : Skips c rest) :
    innermost? (c :: rest) =
      (innermost? rest).map fun (head, inner, tail) => (c :: head, inner, tail) := by
  have hopen : (decide (c = openBrace) &&
      decide ((rest.drop (rest.takeWhile fun d => !isBrace d).length).head? = some closeBrace)) =
        false := by
    rw [Bool.and_eq_false_imp]
    intro hc
    refine decide_eq_false fun hclose => h (of_decide_eq_true hc) ?_
    obtain ⟨tail, htail⟩ := List.head?_eq_some_iff.mp hclose
    refine (find?_isBrace_eq_some_iff isBrace_closeBrace).mpr
      ⟨rest.takeWhile fun d => !isBrace d, tail, fun d hd => ?_, ?_⟩
    · simpa using List.mem_takeWhile_imp hd
    · rw [← htail]
      exact (List.prefix_iff_eq_append.mp (List.takeWhile_prefix _)).symm
  rw [innermost?, hopen, if_neg Bool.false_ne_true, Option.none_or]

/-- A pair begins with the first character, or it is skipped. -/
theorem pair_or_skip (c : Char) (rest : List Char) :
    (c = openBrace ∧ ∃ inner tail, BraceFree inner ∧ rest = inner ++ closeBrace :: tail) ∨
      Skips c rest := by
  rw [← find?_isBrace_eq_some_iff isBrace_closeBrace]
  by_cases h : c = openBrace ∧ rest.find? isBrace = some closeBrace
  · exact .inl h
  · exact .inr fun hc hclose => h ⟨hc, hclose⟩

/-- The pair that is found begins with the first character, or it is found behind it. -/
theorem innermost?_cons_eq_some (h : innermost? (c :: rest) = some (head, inner, tail)) :
    (c = openBrace ∧ head = [] ∧ BraceFree inner ∧ rest = inner ++ closeBrace :: tail) ∨
      (Skips c rest ∧ ∃ before, head = c :: before ∧
        innermost? rest = some (before, inner, tail)) := by
  rcases pair_or_skip c rest with ⟨rfl, found, behind, hfree, rfl⟩ | hskip
  · rw [innermost?_pair hfree] at h
    obtain ⟨rfl, rfl, rfl⟩ : [] = head ∧ found = inner ∧ behind = tail := by simpa using h
    exact .inl ⟨rfl, rfl, hfree, rfl⟩
  · rw [innermost?_skip hskip, Option.map_eq_some_iff] at h
    obtain ⟨⟨before, found, behind⟩, hfound, heq⟩ := h
    obtain ⟨rfl, rfl, rfl⟩ : c :: before = head ∧ found = inner ∧ behind = tail := by
      simpa using heq
    exact .inr ⟨hskip, before, rfl, hfound⟩

/-- If the first character is skipped, the pairs are those behind it. -/
theorem isPair_skip_iff (h : Skips c rest) :
    IsPair (c :: rest) head inner tail ↔
      ∃ before, head = c :: before ∧ IsPair rest before inner tail := by
  constructor
  · rintro ⟨htext, hfree⟩
    cases head with
    | nil =>
        obtain ⟨rfl, rfl⟩ := List.cons.inj htext
        exact absurd ((find?_isBrace_eq_some_iff isBrace_closeBrace).mpr ⟨inner, tail, hfree, rfl⟩)
          (h rfl)
    | cons d before =>
        obtain ⟨rfl, rfl⟩ := List.cons.inj htext
        exact ⟨before, rfl, rfl, hfree⟩
  · rintro ⟨before, rfl, rfl, hfree⟩
    exact ⟨rfl, hfree⟩

/-- Nothing is found if and only if there is no pair. -/
theorem innermost?_eq_none_iff :
    innermost? pattern = none ↔ ∀ head inner tail, ¬ IsPair pattern head inner tail := by
  induction pattern with
  | nil =>
      refine iff_of_true rfl fun head inner tail h => ?_
      simpa using h.text_eq
  | cons c rest ih =>
      rcases pair_or_skip c rest with ⟨rfl, inner, tail, hfree, rfl⟩ | hskip
      · refine iff_of_false ?_ fun h => h [] inner tail ⟨rfl, hfree⟩
        simp [innermost?_pair hfree]
      · simp only [innermost?_skip hskip, Option.map_eq_none_iff, ih, isPair_skip_iff hskip]
        exact ⟨fun h _ inner tail ⟨before, _, hpair⟩ => h before inner tail hpair,
          fun h head inner tail hpair => h (c :: head) inner tail ⟨head, rfl, hpair⟩⟩

/-- What is found is the leftmost pair. -/
theorem innermost?_eq_some (h : innermost? pattern = some (head, inner, tail)) :
    IsPair pattern head inner tail ∧
      ∀ before found behind, IsPair pattern before found behind → head.length ≤ before.length := by
  induction pattern generalizing head with
  | nil => simp [innermost?] at h
  | cons c rest ih =>
      rcases innermost?_cons_eq_some h with ⟨rfl, rfl, hfree, rfl⟩ | ⟨hskip, before, rfl, hfound⟩
      · exact ⟨⟨rfl, hfree⟩, fun _ _ _ _ => Nat.zero_le _⟩
      · obtain ⟨hpair, hleast⟩ := ih hfound
        refine ⟨(isPair_skip_iff hskip).mpr ⟨before, rfl, hpair⟩, fun first _ _ hother => ?_⟩
        obtain ⟨further, rfl, hfurther⟩ := (isPair_skip_iff hskip).mp hother
        exact Nat.succ_le_succ (hleast further _ _ hfurther)

/-- What is found does not depend on what stands behind it. -/
theorem innermost?_append (h : innermost? pattern = some (head, inner, tail))
    (behind : List Char) :
    innermost? (pattern ++ behind) = some (head, inner, tail ++ behind) := by
  induction pattern generalizing head with
  | nil => simp [innermost?] at h
  | cons c rest ih =>
      rcases innermost?_cons_eq_some h with ⟨rfl, rfl, hfree, rfl⟩ | ⟨hskip, before, rfl, hfound⟩
      · rw [List.cons_append, List.append_assoc, List.cons_append, innermost?_pair hfree]
      · -- The first brace of the text is there already, as there is a pair.
        have hfirst : (rest ++ behind).find? isBrace = rest.find? isBrace := by
          rw [List.find?_append, Option.or_of_isSome]
          rw [(innermost?_eq_some hfound).1.text_eq, List.find?_isSome]
          exact ⟨openBrace, by simp, isBrace_openBrace⟩
        have hskips : Skips c (rest ++ behind) := fun hc => hfirst ▸ hskip hc
        rw [List.cons_append, innermost?_skip hskips, ih hfound]
        rfl

/-- What is found behind a text without braces. -/
theorem innermost?_behind {before : List Char} (h : BraceFree before) (rest : List Char) :
    innermost? (before ++ rest) =
      (innermost? rest).map fun (head, inner, tail) => (before ++ head, inner, tail) := by
  induction before with
  | nil => simp
  | cons c before ih =>
      obtain ⟨hc, hbefore⟩ := List.forall_mem_cons.mp h
      have hskip : Skips c (before ++ rest) := by
        rintro rfl
        contradiction
      rw [List.cons_append, innermost?_skip hskip, ih hbefore, Option.map_map]
      rfl

/-! ## One pair less -/

/-- One pattern comes out of another when the leftmost innermost pair is replaced by one of its
options. -/
def Unfolds (next pattern : List Char) : Prop :=
  ∃ head inner tail, innermost? pattern = some (head, inner, tail) ∧
    ∃ option ∈ Text.splitAtEach ',' inner, next = head ++ option ++ tail

/-- An option of a pair has no brace. -/
theorem BraceFree.option (h : BraceFree inner) {option : List Char}
    (hoption : option ∈ Text.splitAtEach ',' inner) : BraceFree option :=
  fun c hc => h c (Text.mem_of_mem_splitAtEach hoption hc)

/-- A text without braces has no opening ones. -/
theorem BraceFree.count_eq_zero (h : BraceFree inner) : inner.count openBrace = 0 :=
  List.count_eq_zero.mpr fun hmem => Bool.false_ne_true ((h openBrace hmem).symm.trans rfl)

/-- With an option in the place of the pair there is one opening brace less. -/
theorem count_option (h : innermost? pattern = some (head, inner, tail)) {option : List Char}
    (hoption : option ∈ Text.splitAtEach ',' inner) :
    (head ++ option ++ tail).count openBrace + 1 = pattern.count openBrace := by
  obtain ⟨⟨rfl, hfree⟩, -⟩ := innermost?_eq_some h
  have hclose : closeBrace ≠ openBrace := by decide
  simp only [List.count_append, List.count_cons_self, List.count_cons_of_ne hclose,
    hfree.count_eq_zero, (hfree.option hoption).count_eq_zero]
  omega

/-- Replacing pairs ends. -/
theorem unfolds_wellFounded : WellFounded Unfolds := by
  refine Subrelation.wf ?_ (measure fun pattern : List Char => pattern.count openBrace).wf
  rintro next pattern ⟨head, inner, tail, hfound, option, hoption, rfl⟩
  exact Nat.lt_of_succ_le (count_option hfound hoption).le

/-! ## All pairs -/

/-- There is nothing to unfold in a text without opening braces. -/
theorem innermost?_of_count_eq_zero (h : pattern.count openBrace = 0) :
    innermost? pattern = none := by
  refine innermost?_eq_none_iff.mpr fun head inner tail hpair => ?_
  rw [hpair.text_eq] at h
  simp at h

/-- As many unfoldings as there are opening braces are enough. -/
theorem expandWith_congr {fuel other : Nat} (h : pattern.count openBrace ≤ fuel)
    (hother : pattern.count openBrace ≤ other) :
    expandWith fuel pattern = expandWith other pattern := by
  induction fuel generalizing pattern other with
  | zero =>
      cases other with
      | zero => rfl
      | succ other => rw [expandWith, expandWith, innermost?_of_count_eq_zero (Nat.le_zero.mp h)]
  | succ fuel ih =>
      cases other with
      | zero => rw [expandWith, expandWith, innermost?_of_count_eq_zero (Nat.le_zero.mp hother)]
      | succ other =>
          rw [expandWith, expandWith]
          cases hfound : innermost? pattern with
          | none => rfl
          | some found =>
              obtain ⟨head, inner, tail⟩ := found
              refine List.flatMap_congr fun option hoption => ?_
              have hcount := count_option hfound hoption
              exact ih (by omega) (by omega)

/-- What a pattern stands for: itself if there is no pair, and else what the patterns stand for that
come out of it. -/
theorem expandBraces_eq (pattern : List Char) :
    expandBraces pattern =
      match innermost? pattern with
      | none => [pattern]
      | some (head, inner, tail) =>
        (Text.splitAtEach ',' inner).flatMap fun option =>
          expandBraces (head ++ option ++ tail) := by
  have hmore : expandBraces pattern = expandWith (pattern.count openBrace + 1) pattern :=
    expandWith_congr le_rfl (Nat.le_succ _)
  rw [hmore, expandWith]
  cases hfound : innermost? pattern with
  | none => rfl
  | some found =>
      obtain ⟨head, inner, tail⟩ := found
      refine List.flatMap_congr fun option hoption => expandWith_congr ?_ le_rfl
      have hcount := count_option hfound hoption
      omega

/-- No pair is left in what a pattern stands for. -/
theorem not_isPair_of_mem_expandBraces {text : List Char} (h : text ∈ expandBraces pattern) :
    ¬ IsPair text head inner tail := by
  induction pattern using unfolds_wellFounded.induction with
  | _ pattern ih =>
      rw [expandBraces_eq] at h
      cases hfound : innermost? pattern with
      | none =>
          rw [hfound] at h
          obtain rfl := List.mem_singleton.mp h
          exact innermost?_eq_none_iff.mp hfound head inner tail
      | some found =>
          obtain ⟨before, options, behind⟩ := found
          rw [hfound] at h
          obtain ⟨option, hoption, h⟩ := List.mem_flatMap.mp h
          exact ih _ ⟨before, options, behind, hfound, option, hoption, rfl⟩ h

end CommentIndex.Glob
