/-!
Sets of characters as lists of closed ranges of code points. White space is what has Unicode's property
`White_Space`, and trimming goes by it. Letter case is folded for ASCII letters alone.
-/
namespace Dynarec.Text

abbrev Ranges := List (Nat × Nat)

def Ranges.covers (ranges : Ranges) (c : Char) : Bool :=
  ranges.any fun (low, high) => low ≤ c.toNat && c.toNat ≤ high

/-- The code points with the property `White_Space`. -/
def blankRanges : Ranges :=
  [(0x09, 0x0d), (0x20, 0x20), (0x85, 0x85), (0xa0, 0xa0), (0x1680, 0x1680), (0x2000, 0x200a),
    (0x2028, 0x2029), (0x202f, 0x202f), (0x205f, 0x205f), (0x3000, 0x3000)]

def isBlank (c : Char) : Bool := blankRanges.covers c

def trim (text : List Char) : List Char :=
  ((text.dropWhile isBlank).reverse.dropWhile isBlank).reverse

/-- ASCII letters in lower case, every other character as it is. -/
def foldCase (text : List Char) : List Char := text.map Char.toLower

theorem isBlank_of_isWhitespace {c : Char} (white : c.isWhitespace = true) : isBlank c = true := by
  simp only [Char.isWhitespace, Bool.or_eq_true, decide_eq_true_eq] at white
  rcases white with ((rfl | rfl) | rfl) | rfl <;> decide

end Dynarec.Text
