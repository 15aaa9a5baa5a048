import CommentIndex.Glob
import Mathlib.Computability.Language

/-!
# The languages of patterns

A part of a pattern stands for a language, and a pattern without alternatives for the product of
those of its parts. `Reads` tells what the parts are: the pattern is read from left to right, and at
each place two stars and a slash come before two stars, and these before a single one. By
`accepts_iff` a path fits a pattern if and only if it is in the language of one of the patterns that
its alternatives give, where one line feed at the end of the path does not count.
-/

namespace CommentIndex.Glob

/-- The texts that a part of a pattern stands for. -/
def Part.language : Part → Language Char
  | .literal c => {[c]}
  | .one => {text | ∃ c, c ≠ '/' ∧ text = [c]}
  | .name => {text | '/' ∉ text}
  | .anything => {text | '\n' ∉ text}
  | .folders => {text | text = [] ∨ ∃ folder, '\n' ∉ folder ∧ text = folder ++ ['/']}

/-- The texts that the parts of a pattern stand for, one behind the other. -/
def language (parts : List Part) : Language Char :=
  (parts.map Part.language).prod

/-- What a pattern without alternatives is read as, from left to right. -/
inductive Reads : List Char → List Part → Prop where
  | nil : Reads [] []
  | folders {rest parts} : Reads rest parts → Reads ('*' :: '*' :: '/' :: rest) (.folders :: parts)
  | anything {rest parts} : rest.head? ≠ some '/' → Reads rest parts →
      Reads ('*' :: '*' :: rest) (.anything :: parts)
  | name {rest parts} : rest.head? ≠ some '*' → Reads rest parts →
      Reads ('*' :: rest) (.name :: parts)
  | one {rest parts} : Reads rest parts → Reads ('?' :: rest) (.one :: parts)
  | literal {c rest parts} : c ≠ '*' → c ≠ '?' → Reads rest parts →
      Reads (c :: rest) (.literal c :: parts)

/-- Two stars that no slash follows are read as one part. -/
theorem parts_anything {rest : List Char} (h : rest.head? ≠ some '/') :
    parts ('*' :: '*' :: rest) = .anything :: parts rest :=
  parts.eq_3 rest fun behind hrest => h (by rw [hrest]; rfl)

/-- A star that no other follows is read by itself. -/
theorem parts_name {rest : List Char} (h : rest.head? ≠ some '*') :
    parts ('*' :: rest) = .name :: parts rest :=
  parts.eq_4 rest (fun _ hrest => h (by rw [hrest]; rfl)) fun _ hrest => h (by rw [hrest]; rfl)

/-- Any character but a star and a question mark is read as itself. -/
theorem parts_literal {c : Char} (hstar : c ≠ '*') (hquestion : c ≠ '?') (rest : List Char) :
    parts (c :: rest) = .literal c :: parts rest :=
  parts.eq_6 c rest (fun _ hc _ => hstar hc) (fun _ hc _ => hstar hc) hstar hquestion

/-- A pattern is read as its parts, and as nothing else. -/
theorem reads_iff {pattern : List Char} {read : List Part} :
    Reads pattern read ↔ read = parts pattern := by
  constructor
  · intro h
    induction h with
    | nil => rfl
    | folders _ ih => rw [parts, ih]
    | anything hslash _ ih => rw [parts_anything hslash, ih]
    | name hstar _ ih => rw [parts_name hstar, ih]
    | one _ ih => rw [parts, ih]
    | literal hstar hquestion _ ih => rw [parts_literal hstar hquestion, ih]
  · rintro rfl
    have hhead {c : Char} {rest : List Char} (h : ∀ behind, rest = c :: behind → False) :
        rest.head? ≠ some c := fun hc =>
      let ⟨behind, hrest⟩ := List.head?_eq_some_iff.mp hc
      h behind hrest
    induction pattern using parts.induct with
    | case1 => exact .nil
    | case2 rest ih => exact .folders ih
    | case3 rest hslash ih => rw [parts_anything (hhead hslash)]; exact .anything (hhead hslash) ih
    | case4 rest _ hstar ih => rw [parts_name (hhead hstar)]; exact .name (hhead hstar) ih
    | case5 rest ih => exact .one ih
    | case6 c rest _ _ hstar hquestion ih =>
        rw [parts_literal hstar hquestion]
        exact .literal hstar hquestion ih

/-- Something holds behind a stretch of allowed characters if and only if the text can be cut so. -/
theorem someTail_iff {inside : Char → Bool} {next : List Char → Bool} {text : List Char} :
    someTail inside next text = true ↔
      ∃ before, (∀ c ∈ before, inside c = true) ∧
        ∃ behind, next behind = true ∧ before ++ behind = text := by
  induction text with
  | nil => simp [someTail]
  | cons c rest ih =>
      simp only [someTail, Bool.or_eq_true, Bool.and_eq_true, ih]
      constructor
      · rintro (h | ⟨hc, before, hbefore, behind, hbehind, rfl⟩)
        · exact ⟨[], by simp, _, h, rfl⟩
        · exact ⟨c :: before, List.forall_mem_cons.mpr ⟨hc, hbefore⟩, behind, hbehind, rfl⟩
      · rintro ⟨before, hbefore, behind, hbehind, htext⟩
        cases before with
        | nil => exact .inl (htext ▸ hbehind)
        | cons d before =>
            obtain ⟨rfl, rfl⟩ := List.cons.inj htext
            obtain ⟨hc, hbefore⟩ := List.forall_mem_cons.mp hbefore
            exact .inr ⟨hc, before, hbefore, behind, hbehind, rfl⟩

/-- Something holds behind a slash if and only if the text can be cut there, with no line feed in
front. -/
theorem someFolder_iff {next : List Char → Bool} {text : List Char} :
    someFolder next text = true ↔
      ∃ folder, '\n' ∉ folder ∧ ∃ behind, next behind = true ∧ folder ++ '/' :: behind = text := by
  induction text with
  | nil => simp [someFolder]
  | cons c rest ih =>
      simp only [someFolder, Bool.or_eq_true, Bool.and_eq_true, beq_iff_eq, bne_iff_ne, ih]
      constructor
      · rintro (⟨rfl, h⟩ | ⟨hc, folder, hfolder, behind, hbehind, rfl⟩)
        · exact ⟨[], by simp, rest, h, rfl⟩
        · exact ⟨c :: folder, by simp [hfolder, Ne.symm hc], behind, hbehind, rfl⟩
      · rintro ⟨folder, hfolder, behind, hbehind, htext⟩
        cases folder with
        | nil =>
            obtain ⟨rfl, rfl⟩ := List.cons.inj htext
            exact .inl ⟨rfl, hbehind⟩
        | cons d folder =>
            obtain ⟨rfl, rfl⟩ := List.cons.inj htext
            rw [List.mem_cons, not_or] at hfolder
            exact .inr ⟨Ne.symm hfolder.1, folder, hfolder.2, behind, hbehind, rfl⟩

/-- Behind a stretch without a certain character something holds if and only if the text can be cut
so. -/
theorem someTail_ne_iff {avoided : Char} {next : List Char → Bool} {text : List Char} :
    someTail (· != avoided) next text = true ↔
      ∃ before, avoided ∉ before ∧ ∃ behind, next behind = true ∧ before ++ behind = text := by
  have havoids (before : List Char) :
      (∀ c ∈ before, (c != avoided) = true) ↔ avoided ∉ before := by
    simp only [bne_iff_ne]
    exact ⟨fun h hmem => h avoided hmem rfl, fun h c hc heq => h (heq ▸ hc)⟩
  simp only [someTail_iff, havoids]

/-- A path fits the parts of a pattern if and only if it is in their language, but for a line feed
that may be left over. -/
theorem fits_iff (read : List Part) (path : List Char) :
    fits read path = true ↔ path ∈ language read * (1 + {['\n']}) := by
  induction read generalizing path with
  | nil =>
      rw [language, List.map_nil, List.prod_nil, one_mul, Language.mem_add, Language.mem_one]
      simp only [fits, Bool.or_eq_true, decide_eq_true_eq]
      rfl
  | cons part rest ih =>
      have hlanguage : language (part :: rest) = part.language * language rest := by
        rw [language, language, List.map_cons, List.prod_cons]
      rw [hlanguage, mul_assoc, Language.mem_mul]
      simp only [← ih]
      cases part with
      | literal c =>
          show _ ↔ ∃ before, before = [c] ∧ _
          cases path with
          | nil => simp [fits]
          | cons d path =>
              rw [fits, Bool.and_eq_true, beq_iff_eq]
              constructor
              · rintro ⟨rfl, h⟩
                exact ⟨_, rfl, path, h, rfl⟩
              · rintro ⟨_, rfl, behind, h, hpath⟩
                obtain ⟨rfl, rfl⟩ := List.cons.inj hpath
                exact ⟨rfl, h⟩
      | one =>
          show _ ↔ ∃ before, (∃ c, c ≠ '/' ∧ before = [c]) ∧ _
          cases path with
          | nil => simp [fits]
          | cons d path =>
              rw [fits, Bool.and_eq_true, bne_iff_ne]
              constructor
              · rintro ⟨hslash, h⟩
                exact ⟨_, ⟨d, hslash, rfl⟩, path, h, rfl⟩
              · rintro ⟨_, ⟨c, hslash, rfl⟩, behind, h, hpath⟩
                obtain ⟨rfl, rfl⟩ := List.cons.inj hpath
                exact ⟨hslash, h⟩
      | name => exact someTail_ne_iff
      | anything => exact someTail_ne_iff
      | folders =>
          show _ ↔ ∃ before, (before = [] ∨ ∃ folder, '\n' ∉ folder ∧ before = folder ++ ['/']) ∧ _
          rw [fits, Bool.or_eq_true, someFolder_iff]
          constructor
          · rintro (h | ⟨folder, hfolder, behind, h, rfl⟩)
            · exact ⟨[], .inl rfl, path, h, rfl⟩
            · exact ⟨_, .inr ⟨folder, hfolder, rfl⟩, behind, h, by simp⟩
          · rintro ⟨_, rfl | ⟨folder, hfolder, rfl⟩, behind, h, rfl⟩
            · exact .inl h
            · exact .inr ⟨folder, hfolder, behind, h, by simp⟩

/-- A path fits a pattern if and only if the pattern is not empty, and the path is in the language
of one of the patterns that come out of it once the blanks at its ends are dropped and its
alternatives are written out. One line feed at the end of the path may be left over. -/
theorem accepts_iff (pattern path : List Char) :
    accepts pattern path = true ↔
      pattern ≠ [] ∧
        ∃ option ∈ expandBraces (Text.strip pattern), ∃ read, Reads option read ∧
          ∃ text ∈ language read, path = text ∨ path = text ++ ['\n'] := by
  have hoption (option : List Char) : fits (parts option) path = true ↔
      ∃ read, Reads option read ∧ ∃ text ∈ language read, path = text ∨ path = text ++ ['\n'] := by
    simp only [reads_iff, exists_eq_left, fits_iff, Language.mem_mul]
    refine exists_congr fun text => and_congr_right fun _ => ?_
    constructor
    · rintro ⟨behind, rfl | rfl, rfl⟩
      · exact .inl (List.append_nil text)
      · exact .inr rfl
    · rintro (rfl | rfl)
      · exact ⟨[], .inl rfl, List.append_nil path⟩
      · exact ⟨['\n'], .inr rfl, rfl⟩
  simp only [accepts, Bool.and_eq_true, List.any_eq_true, hoption, Bool.not_eq_true',
    List.isEmpty_eq_false_iff]

/-- One star does not lead into folders, and two stars and a slash do. -/
example : accepts "*.md".toList "a/b.md".toList = false ∧
    accepts "**/*.md".toList "a/b.md".toList = true := by
  decide +kernel

end CommentIndex.Glob
