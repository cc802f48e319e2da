/-!
Blank characters, the text that is left when they are taken from both ends, and words whose case
does not matter.
-/

namespace PetDuel.Text

/-- The code points with the Unicode property White_Space, as inclusive ranges. -/
def blankRanges : List (Nat × Nat) :=
  [(0x0009, 0x000D), (0x0020, 0x0020), (0x0085, 0x0085), (0x00A0, 0x00A0), (0x1680, 0x1680),
   (0x2000, 0x200A), (0x2028, 0x2029), (0x202F, 0x202F), (0x205F, 0x205F), (0x3000, 0x3000)]

def inRanges (ranges : List (Nat × Nat)) (n : Nat) : Bool :=
  ranges.any fun r => decide (r.1 ≤ n) && decide (n ≤ r.2)

def isBlank (c : Char) : Bool := inRanges blankRanges c.toNat

def trimEnd (cs : List Char) : List Char :=
  (cs.reverse.dropWhile isBlank).reverse

def trimList (cs : List Char) : List Char :=
  trimEnd (cs.dropWhile isBlank)

def trim (s : String) : String :=
  String.ofList (trimList s.toList)

@[simp] theorem toList_trim (s : String) : (trim s).toList = trimList s.toList := by
  simp [trim]

def isBlankText (s : String) : Bool :=
  s.toList.all isBlank

def lowered (cs : List Char) : List Char :=
  cs.map Char.toLower

/-- Whether two texts are equal up to the case of ASCII letters, the only ones with two cases
here. -/
def sameWord (s t : String) : Bool :=
  lowered s.toList == lowered t.toList

end PetDuel.Text
