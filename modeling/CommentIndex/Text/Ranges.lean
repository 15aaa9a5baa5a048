/-!
# Sets of code points

A Unicode property is written down as the sorted list of the ranges that have it.
`Ranges.contains` searches such a list from its low end.
-/

namespace CommentIndex.Text

/-- Code point ranges, both ends included, in ascending order. -/
abbrev Ranges := List (Nat × Nat)

/-- Whether some range holds `c`; the search stops at the first range that lies above it. -/
def Ranges.contains : Ranges → Nat → Bool
  | [], _ => false
  | (low, high) :: rest, c =>
    if c < low then false else if c ≤ high then true else Ranges.contains rest c

/-- What holds of all codes of ASCII holds of every character of ASCII. -/
theorem forall_ascii {p : Char → Prop} (h : ∀ code < 128, p (Char.ofNat code)) {c : Char}
    (hc : c.toNat < 128) : p c := by
  have hcode := h c.toNat hc
  rwa [Char.ofNat_toNat] at hcode

end CommentIndex.Text
