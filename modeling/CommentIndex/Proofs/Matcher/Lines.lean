import CommentIndex.Proofs.Matcher.Order
import CommentIndex.Proofs.Matcher.Preference

/-!
# Hits line by line

No hit goes over the end of a line, so long as no literal does. What stands behind a line therefore
makes no difference to the hits in it (`hitAt?_append`), and the hits of a text are those of its
lines: the main statement, `mem_hits_line`, takes the hits of one line out of those of the text.
-/

namespace CommentIndex.Matcher

variable {matcher : Matcher} {line after : List Char}

/-- A line of a text, without its end, between what stands before and behind it. -/
structure IsLine (text before line after : List Char) : Prop where
  eq : text = before ++ (line ++ after)
  inside : OneLine line
  starts : ∀ c ∈ before.getLast?, Text.isLineEnd c = true
  ends : atLineEnd after = true

/-- No literal of the matcher goes over the end of a line, and no mark is empty. -/
structure InLine (matcher : Matcher) : Prop where
  marks : ∀ literal ∈ matcher.marks, OneLine literal ∧ literal ≠ []
  tokens : ∀ literal ∈ matcher.tokens, OneLine literal
  separators : ∀ literal ∈ matcher.separators, OneLine literal

/-! ## One place -/

/-- Alternatives that all lead to the same thing lead to the same first one. -/
theorem findSome?_congr {α β : Type} {keys : List α} {f g : α → Option β}
    (h : ∀ key ∈ keys, f key = g key) : keys.findSome? f = keys.findSome? g := by
  induction keys with
  | nil => rfl
  | cons key keys ih =>
      rw [List.findSome?_cons, List.findSome?_cons, h key List.mem_cons_self,
        ih fun other hother => h other (List.mem_cons_of_mem _ hother)]

/-- The rest behind a closing bracket, if the text starts with one. -/
def closed? : List Char → Option (List Char)
  | ']' :: rest => some rest
  | _ => none

/-- A block is what stands between its brackets. -/
theorem block?_eq (c : Char) (text : List Char) :
    block? (c :: text) =
      if c = '[' then
        let inner := text.takeWhile fun c => c ≠ ']' && !Text.isLineEnd c
        (closed? (text.drop inner.length)).map fun rest => (inner, rest)
      else none := by
  unfold block? closed?
  by_cases hc : c = '['
  · subst hc
    simp only [if_true]
    rcases text.drop (text.takeWhile fun c => c ≠ ']' && !Text.isLineEnd c).length with
      - | ⟨d, behind⟩
    · rfl
    · by_cases hd : d = ']'
      · subst hd
        rfl
      · simp [hd]
  · simp [hc]

/-- What stands behind the end of a line makes no difference to a closing bracket. -/
theorem closed?_append (hafter : atLineEnd after = true) :
    closed? (line ++ after) = (closed? line).map (· ++ after) := by
  cases line with
  | nil =>
      cases after with
      | nil => rfl
      | cons c rest =>
          have hc : c ≠ ']' := by
            rintro rfl
            contradiction
          simp [closed?, hc]
  | cons c line => by_cases hc : c = ']' <;> simp [closed?, hc]

/-- What stands behind the end of a line makes no difference to a block. -/
theorem block?_append (hafter : atLineEnd after = true) :
    block? (line ++ after) = (block? line).map fun (inner, rest) => (inner, rest ++ after) := by
  cases line with
  | nil =>
      cases after with
      | nil => rfl
      | cons c rest =>
          have hc : c ≠ '[' := by
            rintro rfl
            contradiction
          rw [List.nil_append, block?_eq, if_neg hc]
          rfl
  | cons c line =>
      have hstop : ∀ c, Text.isLineEnd c = true →
          (decide (c ≠ ']') && !Text.isLineEnd c) = false := by
        intro c hc
        simp [hc]
      have hle := (List.takeWhile_prefix (l := line)
        fun c => decide (c ≠ ']') && !Text.isLineEnd c).length_le
      rw [List.cons_append, block?_eq, block?_eq]
      split
      · simp only [takeWhile_append_line hstop hafter, List.drop_append_of_le_length hle,
          closed?_append hafter, Option.map_map]
        rfl
      · rfl

/-- What stands behind the end of a line makes no difference to an ending. -/
theorem ending?_append (hmatcher : matcher.InLine) (hafter : atLineEnd after = true) :
    matcher.ending? (line ++ after) = matcher.ending? line := by
  have hseparators : (matcher.separators.findSome? fun literal =>
        separator? matcher.matchCase literal (line ++ after)) =
      (matcher.separators.findSome? fun literal =>
        separator? matcher.matchCase literal line).map
          fun (separator, rest) => (separator, rest ++ after) := by
    rw [List.map_findSome?]
    refine findSome?_congr fun literal hliteral => ?_
    exact separator?_append (hmatcher.separators literal hliteral) hafter
  have hend : atLineEnd (line ++ after) = atLineEnd line := by
    cases line with
    | nil => exact hafter
    | cons c line => rfl
  unfold ending?
  rw [hseparators, hend]
  cases matcher.separators.findSome? fun literal => separator? matcher.matchCase literal line with
  | none => rfl
  | some found =>
      have hstop : ∀ c, Text.isLineEnd c = true → (!Text.isLineEnd c) = false := by simp
      simp only [Option.map_some, takeWhile_append_line hstop hafter]

/-- What stands behind the end of a line makes no difference to a tail. -/
theorem tail?_append (hmatcher : matcher.InLine) (hafter : atLineEnd after = true) :
    matcher.tail? (line ++ after) = matcher.tail? line := by
  rw [tail?_eq, tail?_eq, ending?_append hmatcher hafter]
  unfold blockAndEnding?
  rw [block?_append hafter]
  cases block? line with
  | none => rfl
  | some found => simp only [Option.map_some, Option.bind_some, ending?_append hmatcher hafter]

/-- What stands behind the end of a line makes no difference to what follows the blanks. -/
theorem hitWith?_append (hmatcher : matcher.InLine) (hafter : atLineEnd after = true)
    (offset : Nat) (mark gap : List Char) :
    hitWith? matcher offset mark gap (line ++ after) = hitWith? matcher offset mark gap line := by
  refine findSome?_congr fun literal hliteral => ?_
  rw [literal?_append (hmatcher.tokens literal hliteral) hafter]
  cases literal? matcher.matchCase literal line with
  | none => rfl
  | some found => simp only [Option.map_some, Option.bind_some, tail?_append hmatcher hafter]

/-- What stands behind the end of a line makes no difference to what follows a mark. -/
theorem hitBehind?_append (hmatcher : matcher.InLine) (hafter : atLineEnd after = true)
    (offset : Nat) (mark : List Char) :
    hitBehind? matcher offset mark (line ++ after) = hitBehind? matcher offset mark line := by
  have hblank : ∀ c, Text.isLineEnd c = true → Text.isSpaceOrTab c = false := by
    intro c hc
    have hcases : c = '\r' ∨ c = '\n' := by simpa [Text.isLineEnd] using hc
    rcases hcases with rfl | rfl <;> rfl
  unfold hitBehind?
  rw [takeWhile_append_line hblank hafter]
  refine findSome?_congr fun count hcount => ?_
  have hle : count ≤ line.length := by
    have := (List.takeWhile_prefix (l := line) Text.isSpaceOrTab).length_le
    rw [List.mem_reverse, List.mem_range] at hcount
    omega
  rw [List.drop_append_of_le_length hle, hitWith?_append hmatcher hafter]

/-- What stands behind the end of a line makes no difference to a hit in it. -/
theorem hitAt?_append (hmatcher : matcher.InLine) (hafter : atLineEnd after = true)
    (offset : Nat) : matcher.hitAt? offset (line ++ after) = matcher.hitAt? offset line := by
  rw [hitAt?_eq, hitAt?_eq]
  refine findSome?_congr fun literal hliteral => ?_
  rw [literal?_append (hmatcher.marks literal hliteral).1 hafter]
  cases literal? matcher.matchCase literal line with
  | none => rfl
  | some found =>
      simp only [Option.map_some, Option.bind_some, hitBehind?_append hmatcher hafter]

/-- There is no hit at the end of a line. -/
theorem hitAt?_lineEnd (hmatcher : matcher.InLine) (hafter : atLineEnd after = true)
    (offset : Nat) : matcher.hitAt? offset after = none := by
  rw [← List.nil_append after, hitAt?_append hmatcher hafter, hitAt?_eq]
  refine List.findSome?_eq_none_iff.mpr fun literal hliteral => ?_
  obtain ⟨c, others, rfl⟩ := List.exists_cons_of_ne_nil (hmatcher.marks literal hliteral).2
  rfl

/-! ## One line -/

/-- A place in a line and a reading of the line from there. -/
structure Layout where
  before : List Char
  reading : Reading

/-- The text of the line. -/
def Layout.text (layout : Layout) : List Char :=
  layout.before ++ layout.reading.text

/-- An early place comes before a late one, and then the readings count. -/
def Layout.rank (layout : Layout) : List Int :=
  -(layout.before.length : Int) :: layout.reading.rank

/-- The hit that a layout makes in a line at an offset. -/
def Layout.hit (offset : Nat) (layout : Layout) : Hit :=
  layout.reading.hit (offset + layout.before.length)

/-- The layout of the line that has one more character in front. -/
def Layout.behind (c : Char) (layout : Layout) : Layout :=
  ⟨c :: layout.before, layout.reading⟩

variable {grammar : Grammar}

/-- A hit has the text that is read. -/
theorem Reading.text_hit (offset : Nat) (reading : Reading) :
    (reading.hit offset).text = reading.text := by
  obtain ⟨mark, gap, token, block, ending⟩ := reading
  cases block <;> cases ending <;>
    simp [Reading.hit, Reading.text, Hit.text, Hit.tail, Tail.text, blockText, endingText,
      endingPieces, Ending.text]

/-- A hit goes to the end of the line. -/
theorem Layout.stop_hit (offset : Nat) (layout : Layout) :
    (layout.hit offset).stop = offset + layout.text.length := by
  rw [Hit.stop_eq, Layout.hit, Reading.text_hit, Layout.text, List.length_append]
  exact Nat.add_assoc ..

/-- One more character in front moves the hit. -/
theorem Layout.hit_behind (c : Char) (offset : Nat) (layout : Layout) :
    (layout.behind c).hit offset = layout.hit (offset + 1) := by
  simp only [Layout.hit, Layout.behind, List.length_cons]
  congr 1
  omega

/-- One more character in front leaves the order of two layouts. -/
theorem Layout.atMost_behind (c : Char) {first second : Layout}
    (h : AtMost first.rank second.rank) :
    AtMost (first.behind c).rank (second.behind c).rank := by
  simp only [Layout.rank, Layout.behind, List.length_cons, atMost_cons_iff] at h ⊢
  exact h.imp (by omega) (And.imp_left (by omega))

/-- A reading that fits has a mark. -/
theorem Grammar.Fits.text_ne_nil {reading : Reading} (h : grammar.Fits reading) :
    reading.text ≠ [] := by
  obtain ⟨literal, ⟨-, hne⟩, hspells⟩ := h.mark
  intro htext
  have hmark : reading.mark = [] := (List.append_eq_nil_iff.mp htext).1
  have hlength := hspells.length_eq
  rw [hmark] at hlength
  exact hne (String.toList_eq_nil_iff.mp (List.length_eq_zero_iff.mp hlength.symm))

/-- There are no hits in what is skipped. -/
theorem hitsFrom_eq_nil (matcher : Matcher) {skip : Nat} (offset : Nat)
    (hskip : line.length ≤ skip) : matcher.hitsFrom skip offset line = [] := by
  induction line generalizing skip offset with
  | nil => rfl
  | cons c line ih =>
      cases skip with
      | zero => simp at hskip
      | succ skip => exact ih (offset + 1) (by simpa using hskip)

/-- There is at most one hit in a line, and it is the best of all its layouts. -/
theorem best_hitsFrom (htries : matcher.Tries grammar) (hline : OneLine line) (offset : Nat) :
    ∃ found : Option Hit, matcher.hitsFrom 0 offset line = found.toList ∧
      Best (fun layout => grammar.Fits layout.reading ∧ layout.text = line) Layout.rank
        (Layout.hit offset) found := by
  induction line generalizing offset with
  | nil =>
      refine ⟨none, rfl, ?_⟩
      rintro layout ⟨hfits, htext⟩
      exact hfits.text_ne_nil (List.append_eq_nil_iff.mp htext).2
  | cons c line ih =>
      have hhere := best_hitAt? htries hline offset
      unfold hitsFrom
      cases hfound : matcher.hitAt? offset (c :: line) with
      | none =>
          rw [hfound] at hhere
          have hrest : OneLine line := fun d hd => hline d (List.mem_cons_of_mem _ hd)
          obtain ⟨found, hhits, hbest⟩ := ih hrest (offset + 1)
          refine ⟨found.map id, by rw [Option.map_id]; exact hhits, ?_⟩
          refine hbest.map (Layout.behind c) ?_ ?_ ?_ ?_
          · rintro layout ⟨hfits, rfl⟩
            exact ⟨hfits, rfl⟩
          · rintro ⟨before, reading⟩ ⟨hfits, htext⟩
            cases before with
            | nil => exact absurd ⟨hfits, htext⟩ (hhere reading)
            | cons d before =>
                obtain ⟨rfl, hbehind⟩ := List.cons.inj htext
                exact ⟨⟨before, reading⟩, ⟨hfits, hbehind⟩, rfl⟩
          · exact fun layout _ => layout.hit_behind c offset
          · exact fun _ _ h => Layout.atMost_behind c h
      | some hit =>
          rw [hfound] at hhere
          obtain ⟨reading, ⟨hfits, htext⟩, rfl, hbest⟩ := hhere
          refine ⟨some (reading.hit offset), ?_, ⟨[], reading⟩, ⟨hfits, htext⟩, rfl, ?_⟩
          · have hskip : line.length ≤ (reading.hit offset).text.length - 1 := by
              rw [Reading.text_hit, htext]
              simp
            simp [hitsFrom_eq_nil matcher (offset + 1) hskip]
          · rintro ⟨before, other⟩ ⟨hother, hsame⟩
            refine atMost_cons_iff.mpr ?_
            cases before with
            | nil => exact .inr ⟨rfl, hbest other ⟨hother, hsame⟩⟩
            | cons d before =>
                left
                rw [List.length_cons, List.length_nil]
                omega

/-! ## The lines of a text -/

/-- Hits lie in their text. -/
theorem start_lt_of_mem_hitsFrom {skip offset : Nat} {text : List Char} {hit : Hit}
    (h : hit ∈ matcher.hitsFrom skip offset text) : hit.start < offset + text.length := by
  obtain ⟨before, rest, rfl, -, hrest, hfound⟩ := exists_hitAt?_of_mem_hitsFrom h
  have := List.length_pos_of_ne_nil hrest
  rw [start_of_hitAt? hfound, List.length_append]
  omega

/-- A place that no hit covers starts a hit or is passed over. -/
theorem hitsFrom_cons (matcher : Matcher) (offset : Nat) (c : Char) (rest : List Char) :
    matcher.hitsFrom 0 offset (c :: rest) =
      match matcher.hitAt? offset (c :: rest) with
      | some hit => hit :: matcher.hitsFrom (hit.text.length - 1) (offset + 1) rest
      | none => matcher.hitsFrom 0 (offset + 1) rest := rfl

/-- The end of a line is passed over. -/
theorem hitsFrom_lineEnd (hmatcher : matcher.InLine) {c : Char} (hc : Text.isLineEnd c = true)
    (offset : Nat) (text : List Char) :
    matcher.hitsFrom 0 offset (c :: text) = matcher.hitsFrom 0 (offset + 1) text := by
  have hend : atLineEnd (c :: text) = true := hc
  rw [hitsFrom_cons, hitAt?_lineEnd hmatcher hend]

/-- The hits in a line come before those behind it. -/
theorem hitsFrom_append (htries : matcher.Tries grammar) (hmatcher : matcher.InLine)
    (hline : OneLine line) (hafter : atLineEnd after = true) {skip : Nat} (offset : Nat)
    (hskip : skip ≤ line.length) :
    matcher.hitsFrom skip offset (line ++ after) =
      matcher.hitsFrom skip offset line ++ matcher.hitsFrom 0 (offset + line.length) after := by
  induction line generalizing skip offset with
  | nil =>
      obtain rfl : skip = 0 := Nat.le_zero.mp hskip
      rfl
  | cons c line ih =>
      have hrest : OneLine line := fun d hd => hline d (List.mem_cons_of_mem _ hd)
      have hoffset : offset + (c :: line).length = offset + 1 + line.length := by
        rw [List.length_cons]
        omega
      rw [hoffset]
      cases skip with
      | succ skip => exact ih hrest (offset + 1) (Nat.le_of_succ_le_succ hskip)
      | zero =>
          have hhere : matcher.hitAt? offset (c :: line ++ after) =
              matcher.hitAt? offset (c :: line) := hitAt?_append hmatcher hafter offset
          rw [List.cons_append] at hhere ⊢
          rw [hitsFrom_cons, hitsFrom_cons, hhere]
          cases hfound : matcher.hitAt? offset (c :: line) with
          | none => exact ih hrest (offset + 1) (Nat.zero_le _)
          | some hit =>
              have hbest := best_hitAt? htries hline offset
              rw [hfound] at hbest
              obtain ⟨reading, ⟨-, htext⟩, rfl, -⟩ := hbest
              have hlength : (reading.hit offset).text.length - 1 ≤ line.length := by
                rw [Reading.text_hit, htext]
                simp
              simp only [List.cons_append, ih hrest (offset + 1) hlength]

/-- The hits in what ends a line come before those behind it. -/
theorem hitsFrom_append_rest (htries : matcher.Tries grammar) (hmatcher : matcher.InLine)
    (line before : List Char) (hline : OneLine line)
    (hends : ∀ c ∈ (line ++ before).getLast?, Text.isLineEnd c = true) (offset : Nat)
    (rest : List Char) :
    matcher.hitsFrom 0 offset (line ++ before ++ rest) =
      matcher.hitsFrom 0 offset (line ++ before) ++
        matcher.hitsFrom 0 (offset + (line ++ before).length) rest := by
  -- The induction reads the text up to the end of its first line, which `line` holds.
  induction before generalizing line offset with
  | nil =>
      have hnil : line = [] := by
        by_contra hne
        have hlast := hends (line.getLast hne)
          (by rw [List.append_nil, List.getLast?_eq_some_getLast hne]; rfl)
        rw [hline _ (List.getLast_mem hne)] at hlast
        contradiction
      subst hnil
      rfl
  | cons c before ih =>
      by_cases hc : Text.isLineEnd c = true
      · have hrest : ∀ d ∈ ([] ++ before).getLast?, Text.isLineEnd d = true := by
          intro d hd
          refine hends d ?_
          cases before with
          | nil => contradiction
          | cons e before => simpa [List.getLast?_append] using hd
        have hstep := ih [] (fun _ h => absurd h List.not_mem_nil) hrest (offset + line.length + 1)
        have hend : ∀ text, atLineEnd (c :: text) = true := fun _ => hc
        rw [List.append_assoc, List.cons_append,
          hitsFrom_append htries hmatcher hline (hend _) offset (Nat.zero_le _),
          hitsFrom_append htries hmatcher hline (hend _) offset (Nat.zero_le _),
          hitsFrom_lineEnd hmatcher hc, hitsFrom_lineEnd hmatcher hc, List.append_assoc]
        rw [List.nil_append] at hstep
        rw [hstep]
        congr 3
        simp
        omega
      · have hlonger : OneLine (line ++ [c]) := by
          intro d hd
          rcases List.mem_append.mp hd with hd | hd
          · exact hline d hd
          · obtain rfl := List.mem_singleton.mp hd
            exact Bool.not_eq_true _ ▸ hc
        have happend : line ++ c :: before = line ++ [c] ++ before := by simp
        rw [happend] at hends ⊢
        exact ih (line ++ [c]) hlonger hends offset

/-- The hits of a text that ends in a line end come before those behind it. -/
theorem hits_append_rest (htries : matcher.Tries grammar) (hmatcher : matcher.InLine)
    {before : List Char} (hends : ∀ c ∈ before.getLast?, Text.isLineEnd c = true)
    (rest : List Char) :
    matcher.hits (before ++ rest) =
      matcher.hits before ++ matcher.hitsFrom 0 before.length rest := by
  have h := hitsFrom_append_rest htries hmatcher [] before
    (fun _ hmem => absurd hmem List.not_mem_nil) hends 0 rest
  simpa only [hits, List.nil_append, Nat.zero_add] using h

end CommentIndex.Matcher
