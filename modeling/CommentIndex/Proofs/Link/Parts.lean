import CommentIndex.Link
import CommentIndex.Proofs.Text.Numerals

/-!
# The parts of a link text

Of all ways to take a link text apart there is one in which it starts with dots and a slash, if
anything follows these, and ends in a parameter, if anything is in front of that. Neither mark of a
parameter can occur inside one, so no other path goes with a parameter: `splitPath_of_isParameter`.
`split?_parts` says when a text has parts and which these are, and that a path with a line or an id
behind it is taken apart where it was put together.
-/

namespace CommentIndex

namespace Text

/-- The codes of the blanks beyond ASCII. -/
def wideBlanks : List Nat :=
  [0x85, 0xA0, 0x1680, 0x2000, 0x2001, 0x2002, 0x2003, 0x2004, 0x2005, 0x2006, 0x2007, 0x2008,
   0x2009, 0x200A, 0x2028, 0x2029, 0x202F, 0x205F, 0x3000]

/-- None of these blanks is among the word characters. -/
theorem contains_wordRanges_wideBlanks : ∀ code ∈ wideBlanks, wordRanges.contains code = false := by
  decide +kernel

/-- A blank beyond ASCII is one of these. -/
theorem mem_wideBlanks {c : Char} (h : isBlank c = true) (hwide : 128 ≤ c.toNat) :
    c.toNat ∈ wideBlanks := by
  simp only [isBlank, Bool.or_eq_true, Bool.and_eq_true, decide_eq_true_eq, beq_iff_eq] at h
  simp only [wideBlanks, List.mem_cons, List.not_mem_nil, or_false]
  omega

/-- No blank of ASCII is among them either. -/
theorem isBlank_of_isWord_ascii : ∀ code < 128, isWord (Char.ofNat code) = true →
    isBlank (Char.ofNat code) = false := by
  decide +kernel

/-- A word character is no blank. -/
theorem isBlank_of_isWord {c : Char} (h : isWord c = true) : isBlank c = false := by
  by_cases hascii : c.toNat < 128
  · exact forall_ascii (p := fun c => isWord c = true → isBlank c = false)
      isBlank_of_isWord_ascii hascii h
  · by_contra hblank
    rw [Bool.not_eq_false] at hblank
    have hmem := mem_wideBlanks hblank (Nat.not_lt.mp hascii)
    rw [isWord, if_neg hascii, contains_wordRanges_wideBlanks _ hmem] at h
    contradiction

end Text

namespace LinkText

/-- Dots and a slash, in front of a path that starts from the folder of its document. -/
def IsRelative (dots : List Char) : Prop :=
  dots ∈ ["./".toList, "../".toList, ".\\".toList, "..\\".toList]

/-- What may follow a path: a colon and a line number, or a hash and an id. -/
inductive IsParameter : List Char → Prop
  | line {digits : List Char} (hne : digits ≠ [])
    (hdigits : ∀ c ∈ digits, Text.isDecimalDigit c = true) : IsParameter (':' :: digits)
  | id {name : List Char} (hne : name ≠ [])
    (hname : ∀ c ∈ name, Text.isWord c = true ∨ c = '-') : IsParameter ('#' :: name)

/-- The parts of a text, where a parameter is taken for one wherever there is one. -/
structure IsPartedAs (text : List Char) (link : LinkText) : Prop where
  whole : link.relative.getD [] ++ link.path ++ link.parameter = text
  path : link.path ≠ []
  relative : ∀ dots, link.relative = some dots ↔ IsRelative dots ∧ ∃ rest ≠ [], text = dots ++ rest
  parameter : link.parameter ≠ [] ↔ ∃ path parameter, path ≠ [] ∧ IsParameter parameter ∧
    link.path ++ link.parameter = path ++ parameter
  unique : ∀ path parameter, path ≠ [] → IsParameter parameter →
    link.path ++ link.parameter = path ++ parameter →
      link.path = path ∧ link.parameter = parameter

variable {text path parameter : List Char}

/-! ## Paths and parameters -/

/-- What is taken for a parameter is one. -/
theorem isParameter_iff : isParameter text = true ↔ IsParameter text := by
  constructor
  · intro h
    unfold isParameter at h
    split at h
    · simp only [Bool.and_eq_true, Bool.not_eq_true', List.isEmpty_eq_false_iff,
        List.all_eq_true] at h
      exact .line h.1 h.2
    · simp only [Bool.and_eq_true, Bool.not_eq_true', List.isEmpty_eq_false_iff,
        List.all_eq_true, Bool.or_eq_true, beq_iff_eq] at h
      exact .id h.1 h.2
    · contradiction
  · intro h
    cases h with
    | line hne hdigits => simpa [isParameter, hne] using hdigits
    | id hne hname => simpa [isParameter, hne] using hname

/-- A parameter is not nothing. -/
theorem IsParameter.ne_nil (h : IsParameter parameter) : parameter ≠ [] := by
  cases h with
  | line | id => exact List.cons_ne_nil _ _

/-- A parameter begins with a mark that does not come again in any parameter. -/
theorem IsParameter.exists_mark (h : IsParameter parameter) :
    ∃ mark rest, parameter = mark :: rest ∧
      ∀ other more, IsParameter (other :: more) → mark ∉ more := by
  have hmarks {mark : Char} (hmark : mark = ':' ∨ mark = '#') (other : Char) (more : List Char)
      (hother : IsParameter (other :: more)) : mark ∉ more := by
    intro hmem
    cases hother with
    | line _ hdigits => rcases hmark with rfl | rfl <;> exact absurd (hdigits _ hmem) (by decide)
    | id _ hname => rcases hmark with rfl | rfl <;> exact absurd (hname _ hmem) (by decide)
  cases h with
  | line => exact ⟨_, _, rfl, hmarks (.inl rfl)⟩
  | id => exact ⟨_, _, rfl, hmarks (.inr rfl)⟩

/-- A path with a parameter is split between them. -/
theorem splitPath_of_isParameter (hpath : path ≠ []) (h : IsParameter parameter) :
    splitPath (path ++ parameter) = (path, parameter) := by
  induction path with
  | nil => contradiction
  | cons c rest ih =>
      rw [List.cons_append, splitPath]
      cases rest with
      | nil => rw [List.nil_append, isParameter_iff.mpr h, Bool.or_true, if_pos rfl]
      | cons d rest =>
          -- A longer parameter would hold the mark of this one.
          obtain ⟨mark, behind, rfl, hmark⟩ := h.exists_mark
          have hlonger : isParameter (d :: rest ++ mark :: behind) = false := by
            rw [← Bool.not_eq_true, isParameter_iff]
            exact fun hlonger => hmark _ _ hlonger (List.mem_append_right _ List.mem_cons_self)
          rw [hlonger, ih (List.cons_ne_nil _ _)]
          rfl

/-- Splitting loses nothing. -/
theorem splitPath_append (text : List Char) : (splitPath text).1 ++ (splitPath text).2 = text := by
  induction text with
  | nil => rfl
  | cons c rest ih =>
      unfold splitPath
      split
      · rfl
      · exact congrArg (c :: ·) ih

/-- What is split off is a parameter, if it is anything. -/
theorem isParameter_splitPath (h : (splitPath text).2 ≠ []) : IsParameter (splitPath text).2 := by
  induction text with
  | nil => exact absurd rfl h
  | cons c rest ih =>
      unfold splitPath at h ⊢
      split
      · next hrest =>
          rw [if_pos hrest] at h
          rw [Bool.or_eq_true, List.isEmpty_iff, isParameter_iff] at hrest
          exact hrest.resolve_left h
      · next hrest =>
          rw [if_neg hrest] at h
          exact ih h

/-- Something is left for the path. -/
theorem splitPath_ne_nil (h : text ≠ []) : (splitPath text).1 ≠ [] := by
  cases text with
  | nil => contradiction
  | cons c rest =>
      unfold splitPath
      split <;> exact List.cons_ne_nil _ _

/-! ## Dots and slashes -/

/-- Dots and a slash are taken off a text if anything follows them. -/
theorem relative?_eq_some_iff {dots rest : List Char} :
    relative? text = some (dots, rest) ↔ IsRelative dots ∧ rest ≠ [] ∧ text = dots ++ rest := by
  constructor
  · intro h
    unfold relative? at h
    split at h
    · split at h
      · next hslash =>
          obtain ⟨rfl, rfl⟩ := Prod.mk.inj (Option.some.inj h)
          rcases (by simpa using hslash : _ = '/' ∨ _ = '\\') with rfl | rfl <;>
            exact ⟨by simp [IsRelative], List.cons_ne_nil _ _, rfl⟩
      · split at h
        · next hslash =>
            obtain ⟨rfl, rfl⟩ := Prod.mk.inj (Option.some.inj h)
            simp only [Bool.and_eq_true, Bool.or_eq_true, beq_iff_eq, Bool.not_eq_true',
              List.isEmpty_eq_false_iff] at hslash
            obtain ⟨⟨rfl, rfl | rfl⟩, hne⟩ := hslash <;>
              exact ⟨by simp [IsRelative], hne, rfl⟩
        · contradiction
    · contradiction
  · rintro ⟨hdots, hne, rfl⟩
    obtain ⟨c, rest, rfl⟩ := List.exists_cons_of_ne_nil hne
    simp only [IsRelative, List.mem_cons, List.not_mem_nil, or_false] at hdots
    rcases hdots with rfl | rfl | rfl | rfl <;> simp [relative?]

/-- The parts of a text of one line. -/
theorem split?_of_relative?_eq_some {dots rest : List Char} (hne : Text.strip text ≠ [])
    (hline : '\n' ∉ Text.strip text) (h : relative? (Text.strip text) = some (dots, rest)) :
    split? text = some ⟨some dots, (splitPath rest).1, (splitPath rest).2⟩ := by
  simp [split?, hne, hline, h]

/-- The parts of such a text without dots and a slash in front. -/
theorem split?_of_relative?_eq_none (hne : Text.strip text ≠ []) (hline : '\n' ∉ Text.strip text)
    (h : relative? (Text.strip text) = none) :
    split? text =
      some ⟨none, (splitPath (Text.strip text)).1, (splitPath (Text.strip text)).2⟩ := by
  simp [split?, hne, hline, h]

/-- A text has no parts if and only if nothing is left of it without the blanks around it, or it
goes over several lines. -/
theorem split?_eq_none_iff :
    split? text = none ↔ Text.strip text = [] ∨ '\n' ∈ Text.strip text := by
  by_cases hne : Text.strip text = []
  · simp [split?, hne]
  · by_cases hline : '\n' ∈ Text.strip text
    · simp [split?, hline]
    · cases hrelative : relative? (Text.strip text) with
      | none => simp [split?_of_relative?_eq_none hne hline hrelative, hne, hline]
      | some parts => simp [split?_of_relative?_eq_some hne hline hrelative, hne, hline]

/-- Behind whatever is in front of the path, the path and the parameter are told apart in the only
way that gives a parameter. -/
theorem isPartedAs_splitPath {relative : Option (List Char)} {rest : List Char} (hne : rest ≠ [])
    (hwhole : relative.getD [] ++ rest = text)
    (hrelative : ∀ dots, relative = some dots ↔
      IsRelative dots ∧ ∃ rest ≠ [], text = dots ++ rest) :
    IsPartedAs text ⟨relative, (splitPath rest).1, (splitPath rest).2⟩ := by
  have hunique (path parameter : List Char) (hpath : path ≠ []) (hparameter : IsParameter parameter)
      (heq : rest = path ++ parameter) :
      (splitPath rest).1 = path ∧ (splitPath rest).2 = parameter := by
    rw [heq, splitPath_of_isParameter hpath hparameter]
    exact ⟨rfl, rfl⟩
  constructor
  case whole => rw [List.append_assoc, splitPath_append, hwhole]
  case path => exact splitPath_ne_nil hne
  case relative => exact hrelative
  case parameter =>
    constructor
    · intro h
      exact ⟨_, _, splitPath_ne_nil hne, isParameter_splitPath h, rfl⟩
    · rintro ⟨path, parameter, hpath, hparameter, heq⟩
      rw [splitPath_append] at heq
      rw [(hunique path parameter hpath hparameter heq).2]
      exact hparameter.ne_nil
  case unique =>
    intro path parameter hpath hparameter heq
    rw [splitPath_append] at heq
    exact hunique path parameter hpath hparameter heq

/-- What a text is split into are its parts. -/
theorem isPartedAs_of_split? {link : LinkText} (h : split? text = some link) :
    IsPartedAs (Text.strip text) link := by
  have hsome : ¬ (Text.strip text = [] ∨ '\n' ∈ Text.strip text) := by
    rw [← split?_eq_none_iff, h]
    exact Option.some_ne_none link
  obtain ⟨hne, hline⟩ := not_or.mp hsome
  cases hrelative : relative? (Text.strip text) with
  | none =>
      obtain rfl := Option.some.inj ((split?_of_relative?_eq_none hne hline hrelative).symm.trans h)
      refine isPartedAs_splitPath hne rfl fun dots =>
        iff_of_false (Option.some_ne_none dots).symm ?_
      rintro ⟨hdots, rest, hrest, heq⟩
      have hsome := relative?_eq_some_iff.mpr ⟨hdots, hrest, heq⟩
      rw [hrelative] at hsome
      contradiction
  | some parts =>
      obtain ⟨dots, rest⟩ := parts
      obtain rfl := Option.some.inj ((split?_of_relative?_eq_some hne hline hrelative).symm.trans h)
      obtain ⟨hdots, hrest, heq⟩ := relative?_eq_some_iff.mp hrelative
      refine isPartedAs_splitPath hrest heq.symm fun other => ⟨?_, ?_⟩
      · intro hsame
        obtain rfl := Option.some.inj hsame
        exact ⟨hdots, rest, hrest, heq⟩
      · rintro ⟨hother, more, hmore, heq'⟩
        have hsome := relative?_eq_some_iff.mpr ⟨hother, hmore, heq'⟩
        rw [hrelative] at hsome
        exact congrArg some (Prod.mk.inj (Option.some.inj hsome)).1

/-! ## Texts put together -/

/-- A path that stands by itself, and can have a parameter behind it. -/
structure IsPlainPath (path : List Char) : Prop where
  ne_nil : path ≠ []
  notRelative : ∀ dots, IsRelative dots → ¬ dots <+: path
  oneLine : '\n' ∉ path
  stripped : Text.strip path = path

/-- Dots and a slash do not reach into a parameter. -/
theorem IsPlainPath.relative?_append (h : IsPlainPath path) (hparameter : IsParameter parameter) :
    relative? (path ++ parameter) = none := by
  rw [Option.eq_none_iff_forall_ne_some]
  rintro ⟨dots, rest⟩ hsome
  obtain ⟨hdots, -, heq⟩ := relative?_eq_some_iff.mp hsome
  rcases List.append_eq_append_iff.mp heq with ⟨more, hmore, hrest⟩ | ⟨more, hmore, -⟩
  · cases more with
    | nil => exact h.notRelative dots hdots ⟨[], by rw [hmore, List.append_nil, List.append_nil]⟩
    | cons mark more =>
        have hmark : mark ∈ dots := hmore ▸ List.mem_append_right _ List.mem_cons_self
        have hneither : ':' ∉ dots ∧ '#' ∉ dots := by
          simp only [IsRelative, List.mem_cons, List.not_mem_nil, or_false] at hdots
          rcases hdots with rfl | rfl | rfl | rfl <;> decide
        rw [List.cons_append] at hrest
        cases hparameter with
        | line => exact hneither.1 ((List.cons.inj hrest).1 ▸ hmark)
        | id => exact hneither.2 ((List.cons.inj hrest).1 ▸ hmark)
  · exact h.notRelative dots hdots ⟨more, hmore.symm⟩

/-- A path with a parameter that holds no blank is taken apart where it was put together. -/
theorem IsPlainPath.split?_append (h : IsPlainPath path) (hparameter : IsParameter parameter)
    (hblank : ∀ c ∈ parameter, Text.isBlank c = false) :
    split? (path ++ parameter) = some ⟨none, path, parameter⟩ := by
  have hstripped : Text.strip (path ++ parameter) = path ++ parameter := by
    have hstart : Text.stripStart path = path := by
      rw [← h.stripped, Text.stripStart_strip]
    rw [Text.strip_append_of_eq path hparameter.ne_nil (Text.dropWhile_eq_self hblank)
      (Text.stripEndBy_eq_self hblank), hstart]
  have hne : Text.strip (path ++ parameter) ≠ [] := by
    rw [hstripped]
    exact List.append_ne_nil_of_left_ne_nil h.ne_nil _
  have hline : '\n' ∉ Text.strip (path ++ parameter) := by
    rw [hstripped, List.mem_append, not_or]
    exact ⟨h.oneLine, fun hmem => absurd (hblank _ hmem) (by decide)⟩
  have hrelative : relative? (Text.strip (path ++ parameter)) = none := by
    rw [hstripped]
    exact h.relative?_append hparameter
  rw [split?_of_relative?_eq_none hne hline hrelative, hstripped,
    splitPath_of_isParameter h.ne_nil hparameter]

/-- The line number that is written for a number is a parameter without blanks. -/
theorem isParameter_line (n : Nat) : IsParameter (':' :: (toString n).toList) ∧
    ∀ c ∈ ':' :: (toString n).toList, Text.isBlank c = false := by
  have hwritten : (toString n).toList = Nat.toDigits 10 n := Nat.toList_repr
  have hdigit {c : Char} (hc : c ∈ (toString n).toList) : c.isDigit = true :=
    Nat.isDigit_of_mem_toDigits (by decide) (by decide) (hwritten ▸ hc)
  refine ⟨.line (hwritten ▸ Nat.toDigits_ne_nil) fun c hc => ?_, fun c hc => ?_⟩
  · rw [Text.isDecimalDigit, Text.digitValue?_of_isDigit (hdigit hc)]
    rfl
  · rcases List.mem_cons.mp hc with rfl | hc
    · decide
    · exact Text.isBlank_of_isDigit (hdigit hc)

/-- An id behind a hash has no blanks. -/
theorem isBlank_of_mem_id {name : List Char}
    (hname : ∀ c ∈ name, Text.isWord c = true ∨ c = '-') :
    ∀ c ∈ '#' :: name, Text.isBlank c = false := by
  intro c hc
  rcases List.mem_cons.mp hc with rfl | hc
  · decide
  · rcases hname c hc with hword | rfl
    · exact Text.isBlank_of_isWord hword
    · decide

/-- A text has parts unless nothing is left of it without the blanks around it, or it goes over
several lines. The parts make up what is left. They begin with dots and a slash if these are there
and something follows them, the path is never empty, and there is a parameter exactly if the text
ends in one behind some path. A path without dots and a slash in front, blanks around it, or line
feeds comes back from a text with a line or an id behind it, and so does that. -/
theorem split?_parts :
    (∀ text, (split? text = none ↔ Text.strip text = [] ∨ '\n' ∈ Text.strip text) ∧
      ∀ link, split? text = some link → IsPartedAs (Text.strip text) link) ∧
    ∀ path, IsPlainPath path →
      (∀ n : Nat, split? (path ++ ':' :: (toString n).toList) =
        some ⟨none, path, ':' :: (toString n).toList⟩) ∧
      ∀ name, name ≠ [] → (∀ c ∈ name, Text.isWord c = true ∨ c = '-') →
        split? (path ++ '#' :: name) = some ⟨none, path, '#' :: name⟩ := by
  refine ⟨fun text => ⟨split?_eq_none_iff, fun link => isPartedAs_of_split?⟩,
    fun path hpath => ⟨fun n => ?_, fun name hne hname => ?_⟩⟩
  · obtain ⟨hparameter, hblank⟩ := isParameter_line n
    exact hpath.split?_append hparameter hblank
  · exact hpath.split?_append (.id hne hname) (isBlank_of_mem_id hname)

/-- Marks inside the path, with blanks around the text, and digits that are no part of an id. -/
theorem split?_parts_marks :
    IsPartedAs "../a:1#b:07".toList ⟨some "../".toList, "a:1#b".toList, ":07".toList⟩ ∧
      split? ("a:1#b".toList ++ ':' :: (toString 12).toList) =
        some ⟨none, "a:1#b".toList, ':' :: (toString 12).toList⟩ ∧
      split? ("a:1#b".toList ++ '#' :: "x-1".toList) =
        some ⟨none, "a:1#b".toList, "#x-1".toList⟩ := by
  have hplain : IsPlainPath "a:1#b".toList := by
    refine ⟨by decide, fun dots hdots => ?_, by decide, by decide +kernel⟩
    simp only [IsRelative, List.mem_cons, List.not_mem_nil, or_false] at hdots
    rcases hdots with rfl | rfl | rfl | rfl <;> decide
  have hstripped : Text.strip " ../a:1#b:07\t".toList = "../a:1#b:07".toList := by
    decide +kernel
  have hname : ∀ c ∈ ['x', '-', '1'], Text.isWord c = true ∨ c = '-' := by
    simp [Text.isWord]
  obtain ⟨hparts, hpaths⟩ := split?_parts
  obtain ⟨hlines, hids⟩ := hpaths _ hplain
  exact ⟨hstripped ▸ (hparts " ../a:1#b:07\t".toList).2 _ (by decide +kernel), hlines 12,
    hids ['x', '-', '1'] (by decide) hname⟩

/-- Dots and a slash with nothing but a parameter behind them are in front of a path that looks like
one. -/
example : split? "./:5".toList = some ⟨some "./".toList, ":5".toList, []⟩ := by decide +kernel

end LinkText

end CommentIndex
