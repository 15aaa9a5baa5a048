import CommentIndex.Proofs.Json.Strings
import CommentIndex.Proofs.Text.Numerals

/-!
# JSON documents read back

`read?_pretty`: a document without doubles that is written with one member a line is read as the
document that it was written for. The lines of a document begin with blanks, which a reader skips,
and what follows a document in a text is no part of a number that the document may end in. By
induction on the document, a reader of a long text finds the document and what is behind it:
`readValue_prettyAt`. The reader needs no more steps than the document has characters.
-/

namespace CommentIndex.Json

variable {c : Char} {level fuel : Nat} {source rest : List Char}

/-! ## Blanks -/

/-- A line begins with blanks. -/
theorem isBlank_of_mem_indent (h : c ∈ (indent level).toList) : isBlank c = true := by
  rw [indent, String.toList_ofList, List.mem_cons] at h
  rcases h with rfl | h
  · decide
  · rw [List.eq_of_mem_replicate h]
    decide

/-- The start of a line is skipped. -/
theorem skipBlanks_indent (level : Nat) (rest : List Char) :
    skipBlanks ((indent level).toList ++ rest) = skipBlanks rest :=
  List.dropWhile_append_of_pos fun _ => isBlank_of_mem_indent

/-- Blanks in front of a value make no difference. -/
theorem readValue_congr (h : skipBlanks source = skipBlanks rest) :
    readValue fuel source = readValue fuel rest := by
  cases fuel with
  | zero => rfl
  | succ fuel => rw [readValue, readValue, h]

/-- Nor do they in front of items. -/
theorem readItems_congr (h : skipBlanks source = skipBlanks rest) :
    readItems fuel source = readItems fuel rest := by
  cases fuel with
  | zero => rfl
  | succ fuel => rw [readItems, readItems, readValue_congr h]

/-- Nor do they in front of a character. -/
theorem expect?_congr (h : skipBlanks source = skipBlanks rest) (wanted : Char) :
    expect? wanted source = expect? wanted rest := by
  rw [expect?, expect?, h]

/-- Nor do they in front of members. -/
theorem readMembers_congr (h : skipBlanks source = skipBlanks rest) :
    readMembers fuel source = readMembers fuel rest := by
  cases fuel with
  | zero => rfl
  | succ fuel => rw [readMembers, readMembers, expect?_congr h]

/-! ## Integers -/

/-- The digits of a number do not begin with a zero, unless the number is zero. -/
theorem head?_toDigits_ne_zero {n : Nat} (h : 0 < n) : (Nat.toDigits 10 n).head? ≠ some '0' := by
  induction n using Nat.strong_induction_on with
  | _ n ih =>
      by_cases hn : n < 10
      · rw [Nat.toDigits_of_lt_base hn]
        have hdigit : ∀ n < 10, 0 < n → Nat.digitChar n ≠ '0' := by decide
        exact fun hhead => hdigit n hn h (Option.some.inj hhead)
      · obtain ⟨first, digits, hdigits⟩ :=
          List.exists_cons_of_ne_nil (Nat.toDigits_ne_nil (b := 10) (n := n / 10))
        have hfirst := ih (n / 10) (by omega) (by omega)
        rw [hdigits] at hfirst
        rw [Nat.toDigits_of_base_le (by decide) (Nat.not_lt.mp hn), hdigits]
        exact hfirst

/-- A number is read as it is written. -/
theorem readNatural?_toDigits (n : Nat) : readNatural? (Nat.toDigits 10 n) = some n := by
  have hdigits : (Nat.toDigits 10 n).all Char.isDigit = true :=
    List.all_eq_true.mpr fun c => Nat.isDigit_of_mem_toDigits (by decide) (by decide)
  have hread := Nat.ofDigitChars_ten_toDigits (n := n)
  have hhead : ∀ next rest, Nat.toDigits 10 n ≠ '0' :: next :: rest := fun next rest heq => by
    rcases Nat.eq_zero_or_pos n with rfl | hpos
    · cases heq
    · exact head?_toDigits_ne_zero hpos (heq ▸ rfl)
  unfold readNatural?
  split
  · next heq => exact absurd heq Nat.toDigits_ne_nil
  · next heq => exact absurd heq (hhead _ _)
  · rw [if_pos hdigits, hread]

/-- An integer is read as it is written. -/
theorem readInteger?_toString (n : Int) : readInteger? (toString n).toList = some n := by
  have hread := readNatural?_toDigits n.natAbs
  rw [Text.toList_toString]
  split
  · next hneg =>
      rw [readInteger?, hread, Option.map_some, Option.some.injEq]
      omega
  · next hnonneg =>
      unfold readInteger?
      split
      · next heq =>
          have hminus : '-' ∈ Nat.toDigits 10 n.natAbs := heq ▸ List.mem_cons_self
          have hdigit := Nat.isDigit_of_mem_toDigits (by decide) (by decide) hminus
          exact absurd hdigit (by decide)
      · rw [hread, Option.map_some, Option.some.injEq, Int.ofNat_eq_natCast]
        omega

/-- A number ends in front of such a text. -/
def EndsNumber (rest : List Char) : Prop :=
  ∀ c ∈ rest.head?, isNumberChar c = false

/-- It does so in front of a character that no number has. -/
theorem endsNumber_cons (h : isNumberChar c = false) (rest : List Char) : EndsNumber (c :: rest) :=
  fun _ hc => Option.some.inj hc ▸ h

/-- An integer is written in characters of a number, and none of them tells a double. -/
theorem isNumberChar_of_isNumeral (h : Text.IsNumeral c) :
    isNumberChar c = true ∧ (c == '.' || c == 'e' || c == 'E') = false := by
  have hne {mark : Char} (hmark : mark ≠ '-' ∧ mark.isDigit = false) : (c == mark) = false :=
    beq_false_of_ne (h.ne hmark)
  constructor
  · rcases h with rfl | h
    · decide
    · simp [isNumberChar, h]
  · rw [hne (by decide), hne (by decide), hne (by decide)]
    rfl

/-- An integer is read in front of a text that does not go on with it. -/
theorem readNumber_toString (n : Int) (hrest : EndsNumber rest) :
    readNumber ((toString n).toList ++ rest) = some (.int n, rest) := by
  have hchars : ∀ c ∈ (toString n).toList,
      isNumberChar c = true ∧ (c == '.' || c == 'e' || c == 'E') = false := fun c hc =>
    isNumberChar_of_isNumeral (Text.isNumeral_of_mem_toString hc)
  have hend : rest.takeWhile isNumberChar = [] := by
    cases rest with
    | nil => rfl
    | cons c rest => rw [List.takeWhile_cons_of_neg (by simp [hrest c rfl])]
  have hdigits : ((toString n).toList ++ rest).takeWhile isNumberChar = (toString n).toList := by
    rw [List.takeWhile_append_of_pos fun c hc => (hchars c hc).1, hend, List.append_nil]
  have hint : (toString n).toList.any (fun c => c == '.' || c == 'e' || c == 'E') = false :=
    List.any_eq_false.mpr fun c hc => by simp [(hchars c hc).2]
  rw [readNumber, hdigits, hint, if_neg Bool.false_ne_true, readInteger?_toString, Option.map_some,
    Option.map_some, List.drop_left]

/-- Nothing but blanks in front of a mark goes on with a number. -/
theorem endsNumber_of_skipBlanks (h : skipBlanks source = c :: rest)
    (hmark : isNumberChar c = false) : EndsNumber source := by
  rintro first hfirst
  cases source with
  | nil => cases hfirst
  | cons d source =>
      obtain rfl := Option.some.inj hfirst
      by_cases hblank : isBlank d = true
      · simp only [isBlank, Bool.or_eq_true, beq_iff_eq, or_assoc] at hblank
        rcases hblank with rfl | rfl | rfl | rfl <;> decide
      · rw [skipBlanks, List.dropWhile_cons_of_neg hblank] at h
        rw [(List.cons.inj h).1, hmark]

/-! ## Documents -/

mutual

/-- Whether there is no double in a document. -/
def hasNoDouble : Json → Bool
  | .float _ => false
  | .list items => haveNoDouble items
  | .object members => membersHaveNoDouble members
  | _ => true
termination_by structural document => document

/-- Whether there is no double in documents. -/
def haveNoDouble : List Json → Bool
  | [] => true
  | item :: rest => hasNoDouble item && haveNoDouble rest
termination_by structural items => items

/-- Whether there is no double in the members of an object. -/
def membersHaveNoDouble : List (String × Json) → Bool
  | [] => true
  | (_, item) :: rest => hasNoDouble item && membersHaveNoDouble rest
termination_by structural members => members

end

/-- The characters of pieces, one a line. -/
def lines (level : Nat) (pieces : List String) : List Char :=
  Text.joinWith ("," ++ indent level).toList (pieces.map String.toList)

/-- One piece is a line. -/
theorem lines_singleton (level : Nat) (piece : String) : lines level [piece] = piece.toList := rfl

/-- Behind the first piece there are a comma and the lines of the others, if there are any. -/
theorem lines_cons (level : Nat) (first : String) {rest : List String} (h : rest ≠ []) :
    lines level (first :: rest) =
      first.toList ++ ',' :: ((indent level).toList ++ lines level rest) := by
  obtain ⟨second, rest, rfl⟩ := List.exists_cons_of_ne_nil h
  simp [lines, Text.joinWith]

section Block

variable {pieces : List String} {opening closing : String} {first last : Char}

/-- Members stand on lines of their own between brackets. -/
theorem toList_block_append (h : pieces ≠ []) (level : Nat) (hopening : opening.toList = [first])
    (hclosing : closing.toList = [last]) (rest : List Char) :
    (block level opening closing pieces).toList ++ rest =
      first :: ((indent (level + 1)).toList ++
        (lines (level + 1) pieces ++ ((indent level).toList ++ last :: rest))) := by
  simp [block, lines, Text.joinStrings, h, hopening, hclosing]

/-- They are shorter than the whole. -/
theorem length_lines_le (h : pieces ≠ []) (level : Nat) (hopening : opening.toList = [first])
    (hclosing : closing.toList = [last]) :
    (lines (level + 1) pieces).length + 2 ≤ (block level opening closing pieces).toList.length := by
  have hblock := congrArg List.length (toList_block_append h level hopening hclosing [])
  simp only [List.length_append, List.length_cons, List.append_nil] at hblock
  omega

end Block

/-- A digit or a minus starts a number. -/
theorem readValue_of_isNumeral (h : Text.IsNumeral c) :
    readValue (fuel + 1) (c :: rest) = readNumber (c :: rest) := by
  have hblank : isBlank c = false := by
    simp [isBlank, h.ne]
  have hquote : (c == Text.doubleQuote) = false := beq_false_of_ne (h.ne (by decide))
  rw [readValue, skipBlanks, List.dropWhile_cons_of_neg (by simp [hblank])]
  split
  iterate 5
    · next heq => exact absurd (List.cons.inj heq).1 (h.ne (by decide))
  · next heq =>
      obtain ⟨rfl, rfl⟩ := List.cons.inj heq
      rw [hquote, if_neg Bool.false_ne_true]
  · next heq => cases heq

/-- An integer is a value. -/
theorem readValue_toString (n : Int) (hrest : EndsNumber rest) :
    readValue (fuel + 1) ((toString n).toList ++ rest) = some (.int n, rest) := by
  have hread := readNumber_toString n hrest
  obtain ⟨first, digits, hdigits⟩ := List.exists_cons_of_ne_nil (Text.toString_ne_nil n)
  have hfirst : Text.IsNumeral first :=
    Text.isNumeral_of_mem_toString (n := n) (hdigits ▸ List.mem_cons_self)
  rw [hdigits] at hread ⊢
  rw [List.cons_append, readValue_of_isNumeral hfirst]
  exact hread

/-- A string is a value. -/
theorem readValue_string (content : String) (rest : List Char) :
    readValue (fuel + 1) ((string content).toList ++ rest) = some (.text content, rest) := by
  have hread := readString_string content rest
  rw [toList_string, List.cons_append, List.append_assoc, List.singleton_append]
  show (readString _).map _ = _
  rw [hread]
  rfl

/-- Nothing but blanks is in front of an expected character. -/
theorem skipBlanks_of_expect? {wanted : Char} (h : expect? wanted source = some rest) :
    skipBlanks source = wanted :: rest := by
  rw [expect?] at h
  split at h
  · next first behind hsource =>
      split at h
      · next hwanted => rw [hsource, beq_iff_eq.mp hwanted, Option.some.inj h]
      · cases h
  · cases h

/-- No item begins with a closing bracket. -/
theorem readItems_close (h : skipBlanks source = ']' :: rest) : readItems fuel source = none := by
  cases fuel with
  | zero => rfl
  | succ fuel =>
      have hnone : readValue fuel source = none := by
        cases fuel with
        | zero => rfl
        | succ fuel =>
            rw [readValue, h]
            rfl
      rw [readItems, hnone]
      rfl

/-- No member begins with a closing brace. -/
theorem readMembers_close (h : skipBlanks source = '\x7d' :: rest) :
    readMembers fuel source = none := by
  cases fuel with
  | zero => rfl
  | succ fuel =>
      rw [readMembers, expect?, h]
      rfl

/-- A bracket and items are a list. -/
theorem readValue_list {items : List Json} (h : readItems fuel source = some (items, rest)) :
    readValue (fuel + 1) ('[' :: source) = some (.list items, rest) := by
  have hclose : expect? ']' source = none := by
    cases hexpect : expect? ']' source with
    | none => rfl
    | some behind =>
        rw [readItems_close (skipBlanks_of_expect? hexpect)] at h
        cases h
  have hsource : skipBlanks ('[' :: source) = '[' :: source := rfl
  simp [readValue, hsource, hclose, h]

/-- A brace and members are an object. -/
theorem readValue_object {members : List (String × Json)}
    (h : readMembers fuel source = some (members, rest)) :
    readValue (fuel + 1) ('\x7b' :: source) = some (.object members, rest) := by
  have hclose : expect? '\x7d' source = none := by
    cases hexpect : expect? '\x7d' source with
    | none => rfl
    | some behind =>
        rw [readMembers_close (skipBlanks_of_expect? hexpect)] at h
        cases h
  have hsource : skipBlanks ('\x7b' :: source) = '\x7b' :: source := rfl
  simp [readValue, hsource, hclose, h]

section Members

variable {name : String} {item : Json} {items : List Json} {members : List (String × Json)}
  {behind : List Char}

/-- The closing bracket is behind the last item. -/
theorem readItems_last (hvalue : readValue fuel source = some (item, behind))
    (hbehind : skipBlanks behind = ']' :: rest) :
    readItems (fuel + 1) source = some ([item], rest) := by
  rw [readItems, hvalue, Option.bind_some]
  dsimp only
  rw [hbehind]
  rfl

/-- A comma and more items are behind any other item. -/
theorem readItems_more (hvalue : readValue fuel source = some (item, ',' :: behind))
    (hitems : readItems fuel behind = some (items, rest)) :
    readItems (fuel + 1) source = some (item :: items, rest) := by
  rw [readItems, hvalue, Option.bind_some]
  show (readItems fuel behind).map (fun read => (item :: read.1, read.2)) = _
  rw [hitems]
  rfl

/-- A name is read up to the value behind it. -/
theorem readMembers_name (name : String) (source : List Char) :
    (expect? Text.doubleQuote ((string name ++ ": ").toList ++ source)).bind readString =
      some (name, ':' :: ' ' :: source) := by
  rw [String.toList_append, toList_string, List.append_assoc, List.cons_append, List.append_assoc]
  exact readString_string name (':' :: ' ' :: source)

/-- The value of a member is read behind a colon. -/
theorem readMembers_value (hvalue : readValue fuel source = some (item, behind)) :
    (expect? ':' (':' :: ' ' :: source)).bind (readValue fuel) = some (item, behind) := by
  have hspace : skipBlanks (' ' :: source) = skipBlanks source := rfl
  exact (readValue_congr hspace).trans hvalue

/-- The closing brace is behind the last member. -/
theorem readMembers_last (hvalue : readValue fuel source = some (item, behind))
    (hbehind : skipBlanks behind = '\x7d' :: rest) :
    readMembers (fuel + 1) ((string name ++ ": ").toList ++ source) =
      some ([(name, item)], rest) := by
  rw [readMembers, readMembers_name, Option.bind_some]
  dsimp only
  rw [readMembers_value hvalue, Option.bind_some]
  dsimp only
  rw [hbehind]
  rfl

/-- A comma and more members are behind any other member. -/
theorem readMembers_more (hvalue : readValue fuel source = some (item, ',' :: behind))
    (hmembers : readMembers fuel behind = some (members, rest)) :
    readMembers (fuel + 1) ((string name ++ ": ").toList ++ source) =
      some ((name, item) :: members, rest) := by
  rw [readMembers, readMembers_name, Option.bind_some]
  dsimp only
  rw [readMembers_value hvalue, Option.bind_some]
  show (readMembers fuel behind).map (fun read => ((name, item) :: read.1, read.2)) = _
  rw [hmembers]
  rfl

end Members

/-- There is a piece for each item. -/
theorem prettyItems_ne_nil {items : List Json} (h : items ≠ []) (level : Nat) :
    prettyItems level items ≠ [] := by
  obtain ⟨first, items, rfl⟩ := List.exists_cons_of_ne_nil h
  exact List.cons_ne_nil _ _

/-- And one for each member. -/
theorem prettyMembers_ne_nil {members : List (String × Json)} (h : members ≠ []) (level : Nat) :
    prettyMembers level members ≠ [] := by
  obtain ⟨first, members, rfl⟩ := List.exists_cons_of_ne_nil h
  exact List.cons_ne_nil _ _

mutual

/-- A document without doubles is read in front of a text that does not go on with a number. -/
theorem readValue_prettyAt (document : Json) (hdocument : document.hasNoDouble = true)
    (level : Nat) {fuel : Nat} (hfuel : (prettyAt level document).toList.length < fuel)
    {rest : List Char} (hrest : EndsNumber rest) :
    readValue fuel ((prettyAt level document).toList ++ rest) = some (document, rest) := by
  obtain ⟨fuel, rfl⟩ := Nat.exists_eq_succ_of_ne_zero (Nat.ne_zero_of_lt hfuel)
  cases document with
  | null =>
      show readValue (fuel + 1) ("null".toList ++ rest) = _
      rfl
  | bool value =>
      cases value with
      | false =>
          show readValue (fuel + 1) ("false".toList ++ rest) = _
          rfl
      | true =>
          show readValue (fuel + 1) ("true".toList ++ rest) = _
          rfl
  | int value => exact readValue_toString value hrest
  | float value => cases hdocument
  | text value => exact readValue_string value rest
  | list items =>
      by_cases hitems : items = []
      · subst hitems
        show readValue (fuel + 1) ("[]".toList ++ rest) = _
        rfl
      · have hpieces := prettyItems_ne_nil hitems (level + 1)
        have hopening : "[".toList = ['['] := rfl
        have hclosing : "]".toList = [']'] := rfl
        have hlength := length_lines_le hpieces level hopening hclosing
        rw [prettyAt] at hfuel ⊢
        rw [toList_block_append hpieces level hopening hclosing]
        refine readValue_list ?_
        rw [readItems_congr (skipBlanks_indent (level + 1) _)]
        refine readItems_prettyItems items hitems hdocument (level + 1) (by omega) ?_
        rw [skipBlanks_indent]
        rfl
  | object members =>
      by_cases hmembers : members = []
      · subst hmembers
        show readValue (fuel + 1) ("\x7b\x7d".toList ++ rest) = _
        rfl
      · have hpieces := prettyMembers_ne_nil hmembers (level + 1)
        have hopening : "\x7b".toList = ['\x7b'] := rfl
        have hclosing : "\x7d".toList = ['\x7d'] := rfl
        have hlength := length_lines_le hpieces level hopening hclosing
        rw [prettyAt] at hfuel ⊢
        rw [toList_block_append hpieces level hopening hclosing]
        refine readValue_object ?_
        rw [readMembers_congr (skipBlanks_indent (level + 1) _)]
        refine readMembers_prettyMembers members hmembers hdocument (level + 1) (by omega) ?_
        rw [skipBlanks_indent]
        rfl
termination_by structural document

/-- Items without doubles are read up to their closing bracket. -/
theorem readItems_prettyItems (items : List Json) (hne : items ≠ [])
    (hitems : haveNoDouble items = true) (level : Nat) {fuel : Nat}
    (hfuel : (lines level (prettyItems level items)).length + 1 < fuel)
    {behind rest : List Char} (hbehind : skipBlanks behind = ']' :: rest) :
    readItems fuel (lines level (prettyItems level items) ++ behind) = some (items, rest) := by
  obtain ⟨fuel, rfl⟩ := Nat.exists_eq_succ_of_ne_zero (Nat.ne_zero_of_lt hfuel)
  cases items with
  | nil => contradiction
  | cons first items =>
      obtain ⟨hfirst, hitems⟩ := Bool.and_eq_true_iff.mp hitems
      rw [prettyItems] at hfuel ⊢
      by_cases hlast : items = []
      · subst hlast
        have hend := endsNumber_of_skipBlanks hbehind (by decide)
        rw [prettyItems, lines_singleton] at hfuel ⊢
        exact readItems_last (readValue_prettyAt first hfirst level (by omega) hend) hbehind
      · rw [lines_cons level _ (prettyItems_ne_nil hlast level)] at hfuel ⊢
        rw [List.append_assoc, List.cons_append, List.append_assoc]
        simp only [List.length_append, List.length_cons] at hfuel
        refine readItems_more
          (readValue_prettyAt first hfirst level (by omega) (endsNumber_cons (by decide) _)) ?_
        rw [readItems_congr (skipBlanks_indent level _)]
        exact readItems_prettyItems items hlast hitems level (by omega) hbehind
termination_by structural items

/-- Members without doubles are read up to their closing brace. -/
theorem readMembers_prettyMembers (members : List (String × Json)) (hne : members ≠ [])
    (hmembers : membersHaveNoDouble members = true) (level : Nat) {fuel : Nat}
    (hfuel : (lines level (prettyMembers level members)).length + 1 < fuel)
    {behind rest : List Char} (hbehind : skipBlanks behind = '\x7d' :: rest) :
    readMembers fuel (lines level (prettyMembers level members) ++ behind) =
      some (members, rest) := by
  obtain ⟨fuel, rfl⟩ := Nat.exists_eq_succ_of_ne_zero (Nat.ne_zero_of_lt hfuel)
  match members with
  | [] => contradiction
  | (name, item) :: members =>
      obtain ⟨hitem, hmembers⟩ := Bool.and_eq_true_iff.mp hmembers
      rw [prettyMembers] at hfuel ⊢
      by_cases hlast : members = []
      · subst hlast
        have hend := endsNumber_of_skipBlanks hbehind (by decide)
        rw [prettyMembers, lines_singleton, String.toList_append] at hfuel ⊢
        rw [List.append_assoc]
        simp only [List.length_append] at hfuel
        exact readMembers_last (readValue_prettyAt item hitem level (by omega) hend) hbehind
      · rw [lines_cons level _ (prettyMembers_ne_nil hlast level), String.toList_append] at hfuel ⊢
        rw [List.append_assoc, List.append_assoc, List.cons_append, List.append_assoc]
        simp only [List.length_append, List.length_cons] at hfuel
        refine readMembers_more
          (readValue_prettyAt item hitem level (by omega) (endsNumber_cons (by decide) _)) ?_
        rw [readMembers_congr (skipBlanks_indent level _)]
        exact readMembers_prettyMembers members hlast hmembers level (by omega) hbehind
termination_by structural members

end

/-- A document without doubles is read as it is written with one member a line. -/
theorem read?_pretty {document : Json} (h : document.hasNoDouble = true) :
    read? document.pretty = some document := by
  have hread := readValue_prettyAt document h 0 (Nat.lt_succ_self _)
    (show EndsNumber [] from fun _ hc => nomatch hc)
  rw [List.append_nil] at hread
  rw [read?, pretty, hread]
  rfl

end CommentIndex.Json
