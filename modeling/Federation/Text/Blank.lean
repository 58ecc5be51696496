/-!
Blank text: nothing but the characters that Unicode calls white space.
-/
namespace Federation.Text

/-- First and last code point of each run of white space. -/
def spaceRuns : List (Nat × Nat) := [
  (0x09, 0x0D), (0x20, 0x20), (0x85, 0x85), (0xA0, 0xA0), (0x1680, 0x1680), (0x2000, 0x200A),
  (0x2028, 0x2029), (0x202F, 0x202F), (0x205F, 0x205F), (0x3000, 0x3000)]

def isSpace (c : Char) : Bool :=
  spaceRuns.any fun run => run.1 ≤ c.toNat && c.toNat ≤ run.2

/-- Empty text is blank too. -/
def isBlank (s : String) : Bool := s.toList.all isSpace

theorem isBlank_empty : isBlank "" = true := by decide

theorem ne_empty_of_not_blank {s : String} (h : isBlank s = false) : s ≠ "" := by
  rintro rfl
  cases isBlank_empty.symm.trans h

end Federation.Text
