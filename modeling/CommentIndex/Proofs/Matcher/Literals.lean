import CommentIndex.Matcher.Hit
import CommentIndex.Proofs.Text.Caseless
import Mathlib.Data.List.Forall2
import Mathlib.Data.List.TakeWhile

/-!
# Literals and separators in a text

What a literal and a separator stand for, character by character: `Spells` and `Stands`. The
functions of a matcher find it whenever it is there (`literal?_eq_some_iff`, `separator?_isSome`),
and what follows behind the end of a line makes no difference to them (`literal?_append`,
`separator?_append`).
-/

namespace CommentIndex.Matcher

/-- A text stands for a literal, character by character. -/
def Spells (matchCase : Bool) (literal text : List Char) : Prop :=
  List.Forall₂ (fun wanted c => Text.matchesLetter matchCase wanted c = true) literal text

/-- A text stands for a separator: as for a literal, but each space of the separator may be one or
more spaces. -/
inductive Stands (matchCase : Bool) : List Char → List Char → Prop where
  | nil : Stands matchCase [] []
  | letter {wanted c : Char} {separator text : List Char} (hwanted : wanted ≠ ' ')
      (hletter : Text.matchesLetter matchCase wanted c = true)
      (hrest : Stands matchCase separator text) :
      Stands matchCase (wanted :: separator) (c :: text)
  | spaces {separator text : List Char} (more : Nat) (hrest : Stands matchCase separator text) :
      Stands matchCase (' ' :: separator) (List.replicate (more + 1) ' ' ++ text)

/-- A text without the ends of lines. -/
def OneLine (text : List Char) : Prop :=
  ∀ c ∈ text, Text.isLineEnd c = false

instance (text : List Char) : Decidable (OneLine text) :=
  List.decidableBAll (fun c => Text.isLineEnd c = false) text

variable {matchCase : Bool} {literal separator line after text taken rest : List Char}

theorem OneLine.of_append_right (h : OneLine (taken ++ rest)) : OneLine rest :=
  fun c hc => h c (List.mem_append_right taken hc)

/-- What stops at the end of a line does not depend on what stands behind it. -/
theorem takeWhile_append_line {keep : Char → Bool}
    (hkeep : ∀ c, Text.isLineEnd c = true → keep c = false) (hafter : atLineEnd after = true) :
    (line ++ after).takeWhile keep = line.takeWhile keep := by
  induction line with
  | cons c line ih => cases hc : keep c <;> simp [hc, ih]
  | nil =>
      cases after with
      | nil => rfl
      | cons c after => simp [hkeep c hafter]

/-! ## Literals -/

/-- A literal is found at the start of a text if and only if that stands for it. -/
theorem literal?_eq_some_iff :
    literal? matchCase literal text = some (taken, rest) ↔
      text = taken ++ rest ∧ Spells matchCase literal taken := by
  unfold Spells
  induction literal generalizing text taken with
  | nil =>
      simp only [literal?, Option.some.injEq, Prod.mk.injEq, List.forall₂_nil_left_iff]
      constructor
      · rintro ⟨rfl, rfl⟩
        exact ⟨rfl, rfl⟩
      · rintro ⟨htext, rfl⟩
        exact ⟨rfl, htext⟩
  | cons wanted literal ih =>
      cases text with
      | nil =>
          simp only [literal?, reduceCtorEq, false_iff, not_and]
          intro htext hspells
          cases taken with
          | nil => cases hspells
          | cons c taken => contradiction
      | cons c text =>
          unfold literal?
          constructor
          · intro h
            split at h
            · next hletter =>
                obtain ⟨⟨found, rest'⟩, hfound, hpair⟩ := Option.map_eq_some_iff.mp h
                obtain ⟨rfl, rfl⟩ := Prod.mk.inj hpair
                obtain ⟨rfl, hspells⟩ := ih.mp hfound
                exact ⟨rfl, .cons hletter hspells⟩
            · contradiction
          · rintro ⟨htext, hspells⟩
            cases hspells with
            | @cons _ _ _ found hletter hspells =>
                obtain ⟨rfl, hbehind⟩ := List.cons.inj htext
                have hfound : literal? matchCase literal text = some (found, rest) :=
                  ih.mpr ⟨hbehind, hspells⟩
                rw [if_pos hletter, hfound]
                rfl

/-- What stands for a literal has its length. -/
theorem Spells.length_eq (h : Spells matchCase literal taken) : taken.length = literal.length :=
  (List.Forall₂.length_eq h).symm

/-- What stands behind the end of a line makes no difference to a literal. -/
theorem literal?_append (hliteral : OneLine literal) (hafter : atLineEnd after = true) :
    literal? matchCase literal (line ++ after) =
      (literal? matchCase literal line).map fun (taken, rest) => (taken, rest ++ after) := by
  induction literal generalizing line with
  | nil => rfl
  | cons wanted literal ih =>
      have hwanted : Text.isLineEnd wanted = false := hliteral wanted List.mem_cons_self
      have hliteral : OneLine literal := fun c hc => hliteral c (List.mem_cons_of_mem _ hc)
      cases line with
      | cons c line =>
          simp only [List.cons_append, literal?, ih hliteral]
          by_cases hletter : Text.matchesLetter matchCase wanted c = true
          · simp only [hletter, if_true, Option.map_map]
            rfl
          · simp [hletter]
      | nil =>
          cases after with
          | nil => rfl
          | cons c after =>
              -- The line ends here, and the literal has no such character.
              have hletter : Text.matchesLetter matchCase wanted c ≠ true := by
                intro hletter
                rw [Text.isLineEnd_of_matchesLetter hletter hafter] at hwanted
                contradiction
              simp [literal?, hletter]

/-! ## Separators -/

/-- The spaces that a space of a separator takes beyond the first one. -/
def spacesBehind (separator text : List Char) : List Char :=
  if separator.head? = some ' ' then [] else text.takeWhile (· = ' ')

/-- The spaces behind a space are the start of a text. -/
theorem spacesBehind_append (separator text : List Char) :
    spacesBehind separator text ++ text.drop (spacesBehind separator text).length = text := by
  unfold spacesBehind
  split
  · rfl
  · exact List.prefix_iff_eq_append.mp (List.takeWhile_prefix _)

/-- The spaces behind a space are spaces. -/
theorem spacesBehind_eq_replicate (separator text : List Char) :
    spacesBehind separator text = List.replicate (spacesBehind separator text).length ' ' := by
  refine List.eq_replicate_iff.mpr ⟨rfl, fun c hc => ?_⟩
  unfold spacesBehind at hc
  split at hc
  · contradiction
  · simpa using List.mem_takeWhile_imp hc

/-- A space of a separator takes a space and those behind it. -/
theorem separator?_space (matchCase : Bool) (separator text : List Char) :
    separator? matchCase (' ' :: separator) (' ' :: text) =
      (separator? matchCase separator (text.drop (spacesBehind separator text).length)).map
        fun (taken, rest) => (' ' :: spacesBehind separator text ++ taken, rest) := rfl

/-- A space of a separator takes nothing but a space. -/
theorem separator?_space_of_ne {c : Char} (hc : c ≠ ' ') :
    separator? matchCase (' ' :: separator) (c :: text) = none := by
  simp [separator?, hc]

/-- Any other letter of a separator takes what stands for it. -/
theorem separator?_letter {wanted : Char} (hwanted : wanted ≠ ' ') (c : Char) :
    separator? matchCase (wanted :: separator) (c :: text) =
      if Text.matchesLetter matchCase wanted c then
        (separator? matchCase separator text).map fun (taken, rest) => (c :: taken, rest)
      else none := by
  simp [separator?, hwanted]

/-- What a separator takes stands for it. -/
theorem stands_of_separator? (h : separator? matchCase separator text = some (taken, rest)) :
    text = taken ++ rest ∧ Stands matchCase separator taken := by
  induction separator generalizing text taken with
  | nil =>
      obtain ⟨rfl, rfl⟩ := Prod.mk.inj (Option.some.inj h)
      exact ⟨rfl, .nil⟩
  | cons wanted separator ih =>
      cases text with
      | nil => contradiction
      | cons c text =>
          by_cases hspace : wanted = ' '
          · subst hspace
            by_cases hc : c = ' '
            · subst hc
              rw [separator?_space] at h
              obtain ⟨⟨found, rest'⟩, hfound, hpair⟩ := Option.map_eq_some_iff.mp h
              obtain ⟨rfl, rfl⟩ := Prod.mk.inj hpair
              obtain ⟨hbehind, hstands⟩ := ih hfound
              have htext := spacesBehind_append separator text
              rw [hbehind] at htext
              refine ⟨by simp [htext], ?_⟩
              rw [spacesBehind_eq_replicate separator text]
              exact .spaces _ hstands
            · rw [separator?_space_of_ne hc] at h
              contradiction
          · rw [separator?_letter hspace] at h
            split at h
            · next hletter =>
                obtain ⟨⟨found, rest'⟩, hfound, hpair⟩ := Option.map_eq_some_iff.mp h
                obtain ⟨rfl, rfl⟩ := Prod.mk.inj hpair
                obtain ⟨rfl, hstands⟩ := ih hfound
                exact ⟨rfl, .letter hspace hletter hstands⟩
            · contradiction

/-- A space of a separator may stand for more spaces than it does. -/
theorem Stands.more (h : Stands matchCase (' ' :: separator) taken) (count : Nat) :
    Stands matchCase (' ' :: separator) (List.replicate count ' ' ++ taken) := by
  cases h with
  | letter hwanted => exact absurd rfl hwanted
  | spaces more hrest =>
      rw [← List.append_assoc, List.replicate_append_replicate, ← Nat.add_assoc]
      exact .spaces _ hrest

/-- What stands for a separator begins with no space unless the separator does. -/
theorem Stands.head_ne (h : Stands matchCase separator taken)
    (hseparator : separator.head? ≠ some ' ') : taken.head? ≠ some ' ' := by
  cases h with
  | nil => simp
  | letter hwanted hletter hrest =>
      intro hhead
      obtain rfl := Option.some.inj hhead
      exact hwanted (Text.eq_space_of_matchesLetter hletter)
  | spaces more hrest => exact absurd rfl hseparator

/-- The start of a text that stands for a separator is found. -/
theorem separator?_isSome (h : Stands matchCase separator taken) (rest : List Char) :
    (separator? matchCase separator (taken ++ rest)).isSome := by
  induction separator generalizing taken rest with
  | nil => rfl
  | cons wanted separator ih =>
      cases h with
      | @letter _ c _ text hwanted hletter hrest =>
          rw [List.cons_append, separator?_letter hwanted, if_pos hletter, Option.isSome_map]
          exact ih hrest rest
      | @spaces _ text more hrest =>
          rw [List.replicate_succ, List.cons_append, List.cons_append, separator?_space,
            Option.isSome_map, List.append_assoc]
          by_cases hhead : separator.head? = some ' '
          · -- The next space of the separator takes the spaces that are left.
            obtain ⟨others, rfl⟩ := List.head?_eq_some_iff.mp hhead
            simp only [spacesBehind, List.head?_cons, if_true, List.length_nil, List.drop_zero]
            rw [← List.append_assoc]
            exact ih (hrest.more more) rest
          · cases separator with
            | nil => rfl
            | cons next others =>
                have htext : text.head? ≠ some ' ' := hrest.head_ne hhead
                have hne : text ≠ [] := by
                  rintro rfl
                  cases hrest
                obtain ⟨c, text, rfl⟩ := List.exists_cons_of_ne_nil hne
                have hc : c ≠ ' ' := fun hc => htext (by rw [hc]; rfl)
                have hrun : spacesBehind (next :: others)
                    (List.replicate more ' ' ++ (c :: text ++ rest)) = List.replicate more ' ' := by
                  unfold spacesBehind
                  rw [if_neg hhead, List.takeWhile_append_of_pos (by simp)]
                  simp [hc]
                rw [hrun, List.drop_left']
                · exact ih hrest rest
                · rfl

/-- What stands behind the end of a line makes no difference to the spaces in it. -/
theorem spacesBehind_append_line (separator line : List Char) (hafter : atLineEnd after = true) :
    spacesBehind separator (line ++ after) = spacesBehind separator line := by
  have hspace : ∀ c, Text.isLineEnd c = true → decide (c = ' ') = false := by
    rintro c hc
    rw [decide_eq_false_iff_not]
    rintro rfl
    contradiction
  unfold spacesBehind
  rw [takeWhile_append_line hspace hafter]

/-- A separator that starts within a line does not stand at its end. -/
theorem separator?_lineEnd {wanted : Char} (hwanted : Text.isLineEnd wanted = false)
    (separator : List Char) (hafter : atLineEnd after = true) :
    separator? matchCase (wanted :: separator) after = none := by
  cases after with
  | nil => rfl
  | cons c after =>
      by_cases hspace : wanted = ' '
      · subst hspace
        refine separator?_space_of_ne ?_
        rintro rfl
        simp [atLineEnd, Text.isLineEnd] at hafter
      · have hletter : Text.matchesLetter matchCase wanted c ≠ true := by
          intro hletter
          rw [Text.isLineEnd_of_matchesLetter hletter hafter] at hwanted
          contradiction
        rw [separator?_letter hspace, if_neg hletter]

/-- What stands behind the end of a line makes no difference to a separator. -/
theorem separator?_append (hseparator : OneLine separator) (hafter : atLineEnd after = true) :
    separator? matchCase separator (line ++ after) =
      (separator? matchCase separator line).map fun (taken, rest) => (taken, rest ++ after) := by
  induction separator generalizing line with
  | nil => rfl
  | cons wanted separator ih =>
      have hwanted : Text.isLineEnd wanted = false := hseparator wanted List.mem_cons_self
      have hrest : OneLine separator := fun c hc => hseparator c (List.mem_cons_of_mem _ hc)
      cases line with
      | nil =>
          rw [List.nil_append, separator?_lineEnd hwanted separator hafter,
            separator?_lineEnd hwanted separator rfl]
          rfl
      | cons c line =>
          rw [List.cons_append]
          by_cases hspace : wanted = ' '
          · subst hspace
            by_cases hc : c = ' '
            · subst hc
              have hle : (spacesBehind separator line).length ≤ line.length := by
                have := congrArg List.length (spacesBehind_append separator line)
                rw [List.length_append] at this
                omega
              rw [separator?_space, separator?_space, spacesBehind_append_line _ _ hafter,
                List.drop_append_of_le_length hle, ih hrest, Option.map_map, Option.map_map]
              rfl
            · rw [separator?_space_of_ne hc, separator?_space_of_ne hc]
              rfl
          · rw [separator?_letter hspace, separator?_letter hspace, ih hrest]
            by_cases hletter : Text.matchesLetter matchCase wanted c = true
            · rw [if_pos hletter, if_pos hletter, Option.map_map, Option.map_map]
              rfl
            · rw [if_neg hletter, if_neg hletter]
              rfl

end CommentIndex.Matcher
