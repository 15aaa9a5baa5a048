import CommentIndex.Proofs.Matcher.Lines
import Mathlib

/-!
# A matcher against its grammar

A compiled matcher whose literals keep to one line searches a text line by line. It finds something
in a line exactly when the line has a layout that fits the grammar, and then it finds the layout
that ranks first: `hits_line_by_line`.
-/

namespace CommentIndex.Matcher

/-- No literal of a grammar goes over the end of a line. -/
structure Grammar.IsOneLine (grammar : Grammar) : Prop where
  marks : ∀ mark ∈ grammar.marks, OneLine mark.toList
  separators : ∀ separator ∈ grammar.separators, OneLine separator.toList
  names : ∀ name ∈ grammar.registry.names, OneLine name.toList
  endTag : OneLine grammar.endTag.toList

/-- The hits of a text that start between two offsets. -/
def hitsBetween (matcher : Matcher) (text : List Char) (first last : Nat) : List Hit :=
  (matcher.hits text).filter fun hit => first ≤ hit.start ∧ hit.start ≤ last

variable {matcher : Matcher} {grammar : Grammar} {text before line after : List Char}

/-- The matcher of a grammar of one line keeps to one line. -/
theorem Grammar.IsOneLine.inLine (h : grammar.IsOneLine) (htries : matcher.Tries grammar) :
    matcher.InLine where
  marks := fun literal hliteral => by
    obtain ⟨mark, ⟨hmark, hne⟩, rfl⟩ := (htries.mem_marks literal).mp hliteral
    exact ⟨h.marks mark hmark, fun hnil => hne (String.toList_eq_nil_iff.mp hnil)⟩
  tokens := fun literal hliteral => by
    obtain ⟨token, htoken, rfl⟩ := (htries.mem_tokens literal).mp hliteral
    rcases htoken with ⟨hname, -⟩ | ⟨tag, htag, -, rfl⟩
    · exact h.names token hname
    · intro c hc
      rw [String.toList_append] at hc
      rcases List.mem_append.mp hc with hc | hc
      · exact h.endTag c hc
      · exact h.names tag.name (List.mem_map_of_mem htag) c hc
  separators := fun literal hliteral => by
    obtain ⟨separator, ⟨hseparator, -⟩, rfl⟩ := (htries.mem_separators literal).mp hliteral
    exact h.separators separator hseparator

/-- A line stays one when more stands before it. -/
theorem IsLine.cons {c : Char} (h : IsLine text before line after)
    (hc : before = [] → Text.isLineEnd c = true) : IsLine (c :: text) (c :: before) line after where
  eq := by rw [h.eq]; rfl
  inside := h.inside
  starts := by
    cases before with
    | nil => simpa using hc rfl
    | cons d before => simpa using h.starts
  ends := h.ends

/-- A first line stays one when it grows. -/
theorem IsLine.grow {c : Char} (h : IsLine text [] line after) (hc : Text.isLineEnd c = false) :
    IsLine (c :: text) [] (c :: line) after where
  eq := by rw [h.eq]; rfl
  inside := by
    rintro d (_ | ⟨_, hd⟩)
    · exact hc
    · exact h.inside d hd
  starts := by simp
  ends := h.ends

/-- An end of a line stands behind an empty line. -/
theorem IsLine.empty (hends : atLineEnd text = true) : IsLine text [] [] text where
  eq := rfl
  inside := fun _ h => absurd h List.not_mem_nil
  starts := by simp
  ends := hends

/-- Every place in a text lies in one of its lines. -/
theorem exists_isLine {place : Nat} (hplace : place ≤ text.length) :
    ∃ before line after, IsLine text before line after ∧ before.length ≤ place ∧
      place ≤ before.length + line.length := by
  induction text generalizing place with
  | nil => exact ⟨[], [], [], .empty rfl, by simp, by simpa using hplace⟩
  | cons c text ih =>
      rw [List.length_cons] at hplace
      cases place with
      | zero =>
          cases hc : Text.isLineEnd c with
          | true => exact ⟨[], [], c :: text, .empty hc, by simp, by simp⟩
          | false =>
              obtain ⟨before, line, after, h, hfirst, -⟩ := ih (Nat.zero_le _)
              obtain rfl := List.length_eq_zero_iff.mp (Nat.le_zero.mp hfirst)
              exact ⟨[], c :: line, after, h.grow hc, by simp, by simp⟩
      | succ place =>
          obtain ⟨before, line, after, h, hfirst, hlast⟩ := ih (Nat.le_of_succ_le_succ hplace)
          by_cases hgrow : before = [] ∧ Text.isLineEnd c = false
          · obtain ⟨rfl, hc⟩ := hgrow
            refine ⟨[], c :: line, after, h.grow hc, by simp, ?_⟩
            simp only [List.length_nil, List.length_cons] at hlast ⊢
            omega
          · have hc : before = [] → Text.isLineEnd c = true := fun hnil =>
              Bool.not_eq_false _ ▸ fun hc => hgrow ⟨hnil, hc⟩
            refine ⟨c :: before, line, after, h.cons hc, ?_, ?_⟩ <;>
              simp only [List.length_cons] <;> omega

/-- The hits that start in a line are those that are found in it alone. -/
theorem hitsBetween_isLine (htries : matcher.Tries grammar) (hmatcher : matcher.InLine)
    (h : IsLine text before line after) :
    matcher.hitsBetween text before.length (before.length + line.length) =
      matcher.hitsFrom 0 before.length line := by
  have hbefore := hits_append_rest htries hmatcher h.starts (line ++ after)
  unfold hits at hbefore
  have hline := hitsFrom_append htries hmatcher h.inside h.ends before.length (Nat.zero_le _)
  have hfirst : ∀ hit ∈ matcher.hitsFrom 0 0 before, hit.start < before.length := fun hit hmem => by
    simpa using start_lt_of_mem_hitsFrom hmem
  have hsecond : ∀ hit ∈ matcher.hitsFrom 0 before.length line,
      before.length ≤ hit.start ∧ hit.start < before.length + line.length := fun hit hmem =>
    ⟨by simpa using le_start_of_mem_hitsFrom hmem, start_lt_of_mem_hitsFrom hmem⟩
  -- No hit begins with the end of a line.
  have hthird : ∀ hit ∈ matcher.hitsFrom 0 (before.length + line.length) after,
      before.length + line.length < hit.start := by
    intro hit hmem
    cases after with
    | nil => contradiction
    | cons c after =>
        rw [hitsFrom_lineEnd hmatcher h.ends] at hmem
        have := le_start_of_mem_hitsFrom hmem
        omega
  unfold hitsBetween hits
  rw [h.eq, hbefore, hline, List.filter_append, List.filter_append,
    List.filter_eq_nil_iff.mpr, List.filter_eq_self.mpr, List.filter_eq_nil_iff.mpr]
  · simp
  · intro hit hmem
    have := hthird hit hmem
    simp
    omega
  · intro hit hmem
    have := hsecond hit hmem
    simp
    omega
  · intro hit hmem
    have := hfirst hit hmem
    simp
    omega

/-- A compiled matcher searches line by line. In each line of a text it finds the hit of the first
of the layouts that fit, up to the end of the line, and nothing if none fits; and it finds nothing
else. -/
theorem hits_line_by_line (h : grammar.compile = .ok matcher) (hgrammar : grammar.IsOneLine)
    (text : List Char) :
    (∀ hit ∈ matcher.hits text, ∃ before line after, IsLine text before line after ∧
      hit ∈ matcher.hitsBetween text before.length (before.length + line.length)) ∧
    ∀ before line after, IsLine text before line after → ∃ found : Option Hit,
      matcher.hitsBetween text before.length (before.length + line.length) = found.toList ∧
      Best (fun layout => grammar.Fits layout.reading ∧ layout.text = line) Layout.rank
        (Layout.hit before.length) found ∧
      ∀ hit ∈ found, hit.stop = before.length + line.length := by
  have htries := tries_of_compile h
  have hmatcher := hgrammar.inLine htries
  constructor
  · intro hit hmem
    have hlt := start_lt_of_mem_hitsFrom hmem
    rw [Nat.zero_add] at hlt
    obtain ⟨before, line, after, hline, hfirst, hlast⟩ := exists_isLine (Nat.le_of_lt hlt)
    refine ⟨before, line, after, hline, List.mem_filter.mpr ⟨hmem, ?_⟩⟩
    exact decide_eq_true ⟨hfirst, hlast⟩
  · intro before line after hline
    rw [hitsBetween_isLine htries hmatcher hline]
    obtain ⟨found, hhits, hbest⟩ := best_hitsFrom htries hline.inside before.length
    refine ⟨found, hhits, hbest, ?_⟩
    rintro hit ⟨⟩
    obtain ⟨layout, ⟨-, rfl⟩, rfl, -⟩ := hbest
    exact layout.stop_hit before.length

/-- The longer of two marks fits in a line, but nothing fits behind it. -/
theorem hits_line_by_line_shorter_mark :
    let grammar : Grammar :=
      { registry := Registry.ofTags [{ name := "O" }, { name := "Todo", behavior := .region }]
        separators := [":", " : "]
        marks := ["/", "", "/t"]
        endTag := "!"
        matchCase := false }
    let matcher : Matcher :=
      { marks := ["/t", "/"].map String.toList
        tokens := ["!Todo", "Todo", "O"].map String.toList
        separators := [" : ", ":"].map String.toList
        endTag := "!"
        matchCase := false }
    let line := "a /todo[x]  :  y".toList
    let text := '\n' :: line ++ "\r\n/todo]".toList
    grammar.compile = .ok matcher ∧ grammar.IsOneLine ∧
      IsLine text ['\n'] line "\r\n/todo]".toList ∧ ∃ hit, matcher.hits text = [hit] ∧
        hit.mark = ['/'] ∧ hit.token = "todo".toList ∧ hit.separator = "  :  ".toList ∧
        Best (fun layout => grammar.Fits layout.reading ∧ layout.text = line) Layout.rank
          (Layout.hit 1) (some hit) := by
  intro grammar matcher line text
  have hcompile : grammar.compile = .ok matcher := by cbv
  have hgrammar : grammar.IsOneLine :=
    ⟨by decide, by decide, by decide +kernel, by decide⟩
  have hline : IsLine text ['\n'] line "\r\n/todo]".toList :=
    { eq := by decide
      inside := by decide
      starts := by
        rintro c ⟨⟩
        decide
      ends := by decide }
  have hhits : (matcher.hits text).map (fun hit => (hit.mark, hit.token, hit.separator)) =
      [(['/'], "todo".toList, "  :  ".toList)] := by
    decide +kernel
  have hhere : matcher.hitsBetween text 1 17 = matcher.hits text := by decide +kernel
  obtain ⟨found, hfound, hbest, -⟩ :=
    (hits_line_by_line hcompile hgrammar text).2 _ _ _ hline
  change matcher.hitsBetween text 1 17 = _ at hfound
  rw [hhere] at hfound
  rw [hfound] at hhits ⊢
  cases found with
  | none => contradiction
  | some hit =>
      simp only [Option.toList_some, List.map_cons, List.map_nil, List.cons.injEq, and_true,
        Prod.mk.injEq] at hhits
      exact ⟨hcompile, hgrammar, hline, hit, rfl, hhits.1, hhits.2.1, hhits.2.2, hbest⟩

end CommentIndex.Matcher
