/-!
Quoted text: inside the quotes the closing character is written twice. Main statement: halving
undoes doubling.
-/

namespace QueryNames.Text

def double (q : Char) (text : List Char) : List Char :=
  text.flatMap fun c => if c = q then [q, q] else [c]

/-- Each pair of `q` becomes one, from the left. -/
def halve (q : Char) : List Char → List Char
  | a :: b :: r => if a = q ∧ b = q then q :: halve q r else a :: halve q (b :: r)
  | text => text

@[simp] theorem halve_nil (q : Char) : halve q [] = [] := by simp [halve]

@[simp] theorem halve_pair (q : Char) (r : List Char) : halve q (q :: q :: r) = q :: halve q r := by
  simp [halve]

theorem halve_cons_of_ne {q c : Char} (h : c ≠ q) (r : List Char) :
    halve q (c :: r) = c :: halve q r := by
  cases r <;> simp [halve, h]

@[simp] theorem halve_double (q : Char) (text : List Char) : halve q (double q text) = text := by
  induction text with
  | nil => simp [double]
  | cons c text ih =>
    by_cases h : c = q
    · subst h; simpa [double] using ih
    · simpa [double, h, halve_cons_of_ne h] using ih

/-- What stands between the first character `opening` and the last character `close`. -/
def between? (opening close : Char) (text : List Char) : Option (List Char) :=
  match text with
  | [] => none
  | c :: r => if c = opening ∧ r.getLast? = some close then some r.dropLast else none

@[simp] theorem between?_append (opening close : Char) (text : List Char) :
    between? opening close (opening :: text ++ [close]) = some text := by
  simp [between?]

end QueryNames.Text
