import QueryNames.Name

/-!
Dotted names in quotes. Main statement: such a name is split into the values that its parts were
written for, whatever these hold.
-/

namespace QueryNames

/-- A value in quotes. -/
def Quote.write (q : Quote) (value : String) : List Char :=
  q.opening :: Text.double q.closing value.toList ++ [q.closing]

/-- The dotted name of values, each in its quotes. -/
def dottedName (parts : List (Quote × String)) : String :=
  String.ofList (['.'].intercalate (parts.map fun part => part.1.write part.2))

theorem foldr_extendFirst (text part : List Char) (parts : List (List Char)) :
    text.foldr extendFirst (part :: parts) = (text ++ part) :: parts := by
  induction text with
  | nil => rfl
  | cons c text ih => rw [List.foldr_cons, ih, extendFirst, List.cons_append]

section Quoted

variable {q : Char}

theorem splitParts_pair (r : List Char) :
    splitParts (some q) (q :: q :: r) = extendFirst q (splitParts (some q) r) := by
  simp [splitParts]

theorem splitParts_other {c : Char} (other : c ≠ q) (r : List Char) :
    splitParts (some q) (c :: r) = extendFirst c (splitParts (some q) r) := by
  cases r <;> simp [splitParts, other, extendFirst]

theorem splitParts_close {r : List Char} (single : r.head? ≠ some q) :
    splitParts (some q) (q :: r) = splitParts none r := by
  cases r with
  | nil => simp [splitParts]
  | cons c r =>
      have other : c ≠ q := fun same => single (congrArg some same)
      simp [splitParts, other]

/-- A part ends at the first quote that is not doubled. -/
theorem splitParts_double (text : List Char) {rest : List Char} (single : rest.head? ≠ some q) :
    splitParts (some q) (Text.double q text ++ q :: rest) =
      text.foldr extendFirst (splitParts none rest) := by
  induction text with
  | nil => exact splitParts_close single
  | cons c text ih =>
    by_cases same : c = q
    · subst same
      simpa [Text.double, splitParts_pair] using congrArg (extendFirst c) ih
    · simpa [Text.double, same, splitParts_other] using congrArg (extendFirst c) ih

end Quoted

variable {q : Quote}

theorem splitParts_opening (delimits : q ≠ .single) (r : List Char) :
    splitParts none (q.opening :: r) = splitParts (some q.closing) r := by
  cases q with
  | bracket | double => simp [splitParts, Quote.opening, Quote.closing]
  | single => contradiction

theorem splitParts_write (delimits : q ≠ .single) (value : String) {rest : List Char}
    (single : rest.head? ≠ some q.closing) :
    splitParts none (q.write value ++ rest) =
      value.toList.foldr extendFirst (splitParts none rest) := by
  have inside := splitParts_double value.toList single
  rw [Quote.write, List.cons_append, List.cons_append, splitParts_opening delimits,
    List.append_assoc]
  exact inside

theorem splitParts_period (r : List Char) :
    splitParts none ('.' :: r) = [] :: splitParts none r := by
  simp [splitParts]

theorem splitParts_intercalate {parts : List (Quote × String)} (nonempty : parts ≠ [])
    (delimit : ∀ part ∈ parts, part.1 ≠ .single) :
    splitParts none (['.'].intercalate (parts.map fun part => part.1.write part.2)) =
      parts.map (·.2.toList) := by
  induction parts with
  | nil => contradiction
  | cons part parts ih =>
    obtain ⟨delimits, others⟩ := List.forall_mem_cons.mp delimit
    cases parts with
    | nil =>
        have last := @splitParts_write part.1 delimits part.2 [] (by simp)
        simpa [splitParts, foldr_extendFirst] using last
    | cons next parts =>
        have noQuote : '.' ≠ part.1.closing := by cases part.1 <;> decide
        simp only [List.map_cons, List.intercalate_cons_cons, List.append_assoc] at ih ⊢
        rw [List.singleton_append, splitParts_write delimits part.2 (by simpa using noQuote),
          splitParts_period, foldr_extendFirst, List.append_nil,
          ih (List.cons_ne_nil _ _) others]

/-- A name splits into the values of its parts. -/
theorem dottedParts_dottedName {parts : List (Quote × String)} (nonempty : parts ≠ [])
    (delimit : ∀ part ∈ parts, part.1 ≠ .single) :
    dottedParts (dottedName parts) = parts.map (·.2) := by
  rw [dottedParts, dottedName, String.toList_ofList, splitParts_intercalate nonempty delimit,
    List.map_map]
  simp

end QueryNames
