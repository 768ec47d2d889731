/-!
The characters that XML admits: anywhere in a document, at the front of a name, and inside one.
-/

namespace QueryNames.Xml

/-- No control characters but white space. -/
def isAllowed (c : Char) : Bool :=
  let n := c.toNat
  if n < 0x20 then n == 9 || n == 10 || n == 13 else n != 0xfffe && n != 0xffff

/-- White space between the parts of markup. -/
def isSpace (c : Char) : Bool := c == ' ' || c == '\t' || c == '\n' || c == '\r'

def startsName (c : Char) : Bool :=
  let n := c.toNat
  if n < 0x80 then c.isAlpha || c == '_' || c == ':'
  else
    (0xc0 ≤ n && n ≤ 0x2ff && n != 0xd7 && n != 0xf7) || (0x370 ≤ n && n ≤ 0x1fff && n != 0x37e) ||
      n == 0x200c || n == 0x200d || (0x2070 ≤ n && n ≤ 0x218f) || (0x2c00 ≤ n && n ≤ 0x2fef) ||
      (0x3001 ≤ n && n ≤ 0xd7ff) || (0xf900 ≤ n && n ≤ 0xfdcf) || (0xfdf0 ≤ n && n ≤ 0xfffd) ||
      (0x10000 ≤ n && n ≤ 0xeffff)

def continuesName (c : Char) : Bool :=
  let n := c.toNat
  startsName c || c.isDigit || c == '-' || c == '.' || n == 0xb7 || (0x300 ≤ n && n ≤ 0x36f) ||
    n == 0x203f || n == 0x2040

theorem isAllowed_of_isSpace {c : Char} (h : isSpace c = true) : isAllowed c = true := by
  simp only [isSpace, Bool.or_eq_true, beq_iff_eq] at h
  rcases h with ((rfl | rfl) | rfl) | rfl <;> decide

end QueryNames.Xml
