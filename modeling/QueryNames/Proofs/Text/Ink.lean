import Mathlib.Data.List.DropRight
import QueryNames.Proofs.Text.Identifier

/-!
The ink of a text is all of it but white space. Main statement: a piece that is not white space has
ink on its first line, and on its last one if anything follows it.
-/

namespace QueryNames

namespace Text

def ink (text : List Char) : List Char := text.filter (!isBlank ·)

/-- The line on which a text ends, as far as it lies in the text. -/
def lineBefore (text : List Char) : List Char := text.rtakeWhile (· != '\n')

/-- The line on which a text begins, as far as it lies in the text. -/
def lineBehind (text : List Char) : List Char := text.takeWhile (· != '\n')

variable {text front behind : List Char} {c d : Char}

@[simp] theorem ink_append (a b : List Char) : ink (a ++ b) = ink a ++ ink b :=
  List.filter_append ..

theorem ink_eq_nil : ink text = [] ↔ ∀ c ∈ text, isBlank c = true := by
  simp [ink, List.filter_eq_nil_iff]

theorem unblank_of_ink (all : ink text = text) : ∀ c ∈ text, isBlank c = false := by
  simpa [ink, List.filter_eq_self] using all

theorem ink_ne_nil (member : c ∈ text) (inked : isBlank c = false) : ink text ≠ [] := by
  intro nothing
  rw [ink_eq_nil.1 nothing c member] at inked
  cases inked

theorem ink_ne_nil_of_sublist (sublist : front.Sublist text) (inked : ink front ≠ []) :
    ink text ≠ [] := by
  intro nothing
  have fewer : (ink front).Sublist (ink text) := sublist.filter _
  rw [nothing] at fewer
  exact inked (List.sublist_nil.1 fewer)

theorem ne_lineFeed (inked : isBlank c = false) : (c != '\n') = true := by
  rw [bne_iff_ne]
  rintro rfl
  cases inked

theorem lineBefore_append (front : List Char) (noFeed : '\n' ∉ behind) :
    lineBefore (front ++ behind) = lineBefore front ++ behind := by
  induction behind using List.reverseRecOn with
  | nil => rw [List.append_nil, List.append_nil]
  | append_singleton behind c ih =>
      have others : '\n' ∉ behind := fun member => noFeed (List.mem_append_left _ member)
      have last : (c != '\n') = true := by
        rw [bne_iff_ne]
        rintro rfl
        exact noFeed (List.mem_append_right _ List.mem_cons_self)
      rw [← List.append_assoc, lineBefore, List.rtakeWhile_concat_pos (· != '\n') _ _ last,
        ← List.append_assoc, ← ih others, lineBefore]

theorem lineBehind_append (noFeed : '\n' ∉ front) (behind : List Char) :
    lineBehind (front ++ behind) = front ++ lineBehind behind := by
  apply List.takeWhile_append_of_pos
  intro c member
  rw [bne_iff_ne]
  rintro rfl
  exact noFeed member

theorem lineBefore_sublist (front text : List Char) :
    (lineBefore text).Sublist (lineBefore (front ++ text)) := by
  induction text using List.reverseRecOn with
  | nil => exact List.nil_sublist _
  | append_singleton text c ih =>
      rw [← List.append_assoc, lineBefore, lineBefore, List.rtakeWhile_concat,
        List.rtakeWhile_concat]
      split
      · exact ih.append (List.Sublist.refl _)
      · exact List.Sublist.refl _

theorem lineBehind_sublist (text behind : List Char) :
    (lineBehind text).Sublist (lineBehind (text ++ behind)) := by
  induction text with
  | nil => exact List.nil_sublist _
  | cons c text ih =>
      rw [List.cons_append, lineBehind, lineBehind, List.takeWhile_cons, List.takeWhile_cons]
      split
      · exact ih.cons_cons c
      · exact List.Sublist.refl _

theorem ink_lineBefore_concat (front : List Char) (inked : isBlank c = false) :
    ink (lineBefore (front ++ [c])) ≠ [] := by
  rw [lineBefore, List.rtakeWhile_concat_pos (· != '\n') _ _ (ne_lineFeed inked)]
  exact ink_ne_nil (List.mem_append_right _ List.mem_cons_self) inked

theorem ink_lineBefore_of_unblank (some_ : text ≠ []) (inked : ∀ c ∈ text, isBlank c = false) :
    ink (lineBefore text) ≠ [] := by
  obtain ⟨front, c, rfl⟩ := (List.eq_nil_or_concat' text).resolve_left some_
  exact ink_lineBefore_concat front (inked c (List.mem_append_right _ List.mem_cons_self))

theorem ink_lineBehind_cons (behind : List Char) (inked : isBlank c = false) :
    ink (lineBehind (c :: behind)) ≠ [] := by
  rw [lineBehind, List.takeWhile_cons_of_pos (p := (· != '\n')) (ne_lineFeed inked)]
  exact ink_ne_nil List.mem_cons_self inked

theorem isBlank_of_isDigit (digit : c.isDigit = true) : isBlank c = false :=
  isBlank_of_class (by decide) digit

theorem isBlank_of_isHexDigit (digit : isHexDigit c = true) : isBlank c = false :=
  isBlank_of_class (by decide) digit

end Text

namespace Piece

open Text

/-- What is followed by more has ink on its last line. -/
def Cut.EndsInked (cut : Cut) : Prop := cut.rest ≠ [] → ink (lineBefore cut.text) ≠ []

section Scanners

variable {c : Char} {r : List Char} {cut : Cut}

theorem ClosesComment.exists_concat {depth : Nat} {text : List Char}
    (closes : ClosesComment depth text) : ∃ front, text = front ++ ['/'] := by
  induction closes with
  | ends => exact ⟨['*'], rfl⟩
  | leaves inner ih | enters inner ih =>
      obtain ⟨front, rfl⟩ := ih
      exact ⟨_ :: _ :: front, rfl⟩
  | goesOn noEntry noEnd inner ih =>
      obtain ⟨front, rfl⟩ := ih
      exact ⟨_ :: front, rfl⟩

theorem comment?_endsInked (found : comment? c r = some cut) : cut.EndsInked := by
  intro more
  have fits := comment?_fits found
  have kind := comment?_kind found
  obtain ⟨kind_, text, rest⟩ := cut
  rcases kind with is | is | is <;> cases is
  · obtain ⟨body, rfl, inLine, -⟩ := fits
    have noFeed : '\n' ∉ '-' :: '-' :: body := by simp [inLine]
    rw [← List.nil_append (_ :: _ :: body), lineBefore_append [] noFeed]
    exact ink_ne_nil (c := '-') (List.mem_append_right _ List.mem_cons_self) rfl
  · obtain ⟨body, rfl, closes⟩ := fits
    obtain ⟨front, rfl⟩ := closes.exists_concat
    exact ink_lineBefore_concat ('/' :: '*' :: front) rfl
  · obtain ⟨body, -, nothing, -⟩ := fits
    exact absurd nothing more

/-- What is in quotes ends with the closing one. -/
theorem splitQuoted_endsInked {close : Char} (opening : List Char) {text rest : List Char}
    (inked : isBlank close = false) (split : splitQuoted close r = some (text, rest)) :
    ink (lineBefore (opening ++ text)) ≠ [] := by
  obtain ⟨value, rfl⟩ := double_of_splitQuoted split
  rw [← List.append_assoc]
  exact ink_lineBefore_concat _ inked

theorem quoted?_endsInked (found : quoted? c r = some cut) : cut.EndsInked := by
  apply quoted?_holds (P := Cut.EndsInked) _ _ found
  · intro q r _
    unfold delimited
    split
    · rename_i split
      intro _
      exact splitQuoted_endsInked [q.opening] (by cases q <;> rfl) split
    · exact fun more => absurd rfl more
  · intro marker _ r
    unfold string
    split
    · rename_i split
      intro _
      exact splitQuoted_endsInked _ rfl split
    · exact fun more => absurd rfl more

theorem splitFraction_unblank (cs : List Char) : ∀ d ∈ (splitFraction cs).1, isBlank d = false := by
  unfold splitFraction
  split
  · exact List.forall_mem_cons.2 ⟨rfl, fun d member =>
      isBlank_of_isDigit (List.all_eq_true.1 List.all_takeWhile d member)⟩
  · exact List.forall_mem_nil _

theorem splitExponent_unblank (cs : List Char) : ∀ d ∈ (splitExponent cs).1, isBlank d = false := by
  cases cs with
  | nil => exact List.forall_mem_nil _
  | cons e r =>
      have sign : ∀ d ∈ (splitSign r).1, isBlank d = false := by
        have signs : isBlank '+' = false ∧ isBlank '-' = false := ⟨rfl, rfl⟩
        unfold splitSign
        split <;> simp [signs]
      simp only [splitExponent]
      split
      · rename_i exponent
        have letter : isBlank e = false := by
          rcases exponent.1 with rfl | rfl <;> rfl
        exact List.forall_mem_cons.2 ⟨letter, List.forall_mem_append.2 ⟨sign, fun d member =>
          isBlank_of_isDigit (List.all_eq_true.1 List.all_takeWhile d member)⟩⟩
      · exact List.forall_mem_nil _

theorem number_unblank (cs : List Char) : ∀ d ∈ (number cs).text, isBlank d = false := by
  intro d member
  rcases List.mem_append.1 member with whole | exponent
  · rcases List.mem_append.1 whole with digits | fraction
    · exact isBlank_of_isDigit (List.all_eq_true.1 List.all_takeWhile d digits)
    · exact splitFraction_unblank _ d fraction
  · exact splitExponent_unblank _ d exponent

/-- A run of characters that are no blanks. -/
theorem run_unblank {kind : Kind} {begun rest : List Char} {p : Char → Bool}
    (opening : ∀ d ∈ begun, isBlank d = false) (inked : ∀ d, p d = true → isBlank d = false) :
    ∀ d ∈ (Cut.run kind begun p rest).text, isBlank d = false :=
  List.forall_mem_append.2 ⟨opening, fun d member =>
    inked d (List.all_eq_true.1 List.all_takeWhile d member)⟩

theorem number?_unblank (found : number? c r = some cut) : ∀ d ∈ cut.text, isBlank d = false := by
  unfold number? at found
  split at found
  · cases found
    exact run_unblank (unblank_of_ink rfl) fun _ => isBlank_of_isHexDigit
  · cases found
    exact run_unblank (unblank_of_ink rfl) fun _ => isBlank_of_isHexDigit
  · split at found <;> cases found
    exact number_unblank _

theorem variableName?_unblank (found : variableName? c r = some cut) :
    ∀ d ∈ cut.text, isBlank d = false := by
  have named {begun : List Char} (opening : ∀ d ∈ begun, isBlank d = false) (r : List Char) :
      ∀ d ∈ (named begun r).text, isBlank d = false := by
    unfold Piece.named
    split
    · exact run_unblank opening fun _ => isBlank_of_continuesWord
    · exact opening
  unfold variableName? at found
  split at found <;> cases found
  · exact named (unblank_of_ink rfl) _
  · exact named (unblank_of_ink rfl) _

theorem sign_unblank (inked : isBlank c = false) : ∀ d ∈ (sign c r).text, isBlank d = false := by
  have others : ∀ d ∈ ['=', '<', '>'], isBlank d = false := unblank_of_ink rfl
  unfold sign
  split <;> simp_all

/-- A separator takes nothing of a blank line, and else all up to the only semicolon. -/
theorem separatorTail?_cases {rest tail : List Char} (found : separatorTail? rest = some tail) :
    (tail = [] ∧ ink (lineBehind rest) = []) ∨
      ∃ blanks more, tail = blanks ++ [';'] ∧ lineBehind rest = tail ++ more ∧ ink blanks = [] ∧
        ink more = [] := by
  unfold separatorTail? at found
  dsimp only at found
  split at found
  · rename_i blank
    cases found
    refine .inl ⟨rfl, ink_eq_nil.2 fun c member => ?_⟩
    simpa using List.dropWhile_eq_nil_iff.1 blank c member
  · rename_i c more line
    split at found
    · rename_i alone
      obtain ⟨rfl, blanks⟩ := alone
      cases found
      refine .inr ⟨_, more, rfl, ?_, ink_eq_nil.2 fun c => List.mem_takeWhile_imp,
        ink_eq_nil.2 (List.all_eq_true.1 blanks)⟩
      rw [← List.append_cons, ← line, List.takeWhile_append_dropWhile]
      rfl
    · cases found

/-- A word has ink, and a separator ends with that or with its semicolon. -/
theorem word_endsInked {lineIsBlank : Bool} {text rest : List Char} (some_ : text ≠ [])
    (inked : ∀ d ∈ text, isBlank d = false) : (word lineIsBlank text rest).EndsInked := by
  intro _
  unfold word
  dsimp only
  split
  · rename_i tail found
    obtain ⟨-, found⟩ := Option.ite_none_right_eq_some.1 found
    rcases separatorTail?_cases found with ⟨rfl, -⟩ | ⟨blanks, more, rfl, -⟩
    · rw [List.append_nil]
      exact ink_lineBefore_of_unblank some_ inked
    · rw [← List.append_assoc]
      exact ink_lineBefore_concat _ rfl
  · split <;> exact ink_lineBefore_of_unblank some_ inked

end Scanners

theorem cut_endsInked (lineIsBlank : Bool) {c : Char} (r : List Char) (inked : isBlank c = false) :
    (cut lineIsBlank c r).EndsInked := by
  apply cut_holds (P := Cut.EndsInked)
  · intro cut found
    rw [blank?, inked] at found
    cases found
  · exact fun cut => comment?_endsInked
  · exact fun cut => quoted?_endsInked
  · intro cut found _
    exact ink_lineBefore_of_unblank (number?_splits found).text_ne_nil (number?_unblank found)
  · intro cut found _
    exact ink_lineBefore_of_unblank (variableName?_splits found).text_ne_nil
      (variableName?_unblank found)
  · intro starts
    apply word_endsInked (List.cons_ne_nil _ _)
    refine List.forall_mem_cons.2 ⟨inked, fun d member => ?_⟩
    exact isBlank_of_continuesWord (List.all_eq_true.1 List.all_takeWhile d member)
  · intro _
    exact ink_lineBefore_of_unblank (sign_splits c r).text_ne_nil (sign_unblank inked)

theorem isBlank_of_kind {lineIsBlank : Bool} {c : Char} {r : List Char}
    (other : (cut lineIsBlank c r).kind ≠ .blank) : isBlank c = false := by
  cases blank : isBlank c with
  | false => rfl
  | true => exact absurd (congrArg Cut.kind (cut_white blank)) other

/-- Ink where it begins, and where it ends. -/
theorem cut_inked {lineIsBlank : Bool} {c : Char} {r : List Char}
    (other : (cut lineIsBlank c r).kind ≠ .blank) :
    ink (lineBehind (cut lineIsBlank c r).text) ≠ [] ∧ (cut lineIsBlank c r).EndsInked := by
  have inked := isBlank_of_kind other
  apply And.intro _ (cut_endsInked lineIsBlank r inked)
  obtain ⟨some_, whole⟩ := cut_splits lineIsBlank c r
  obtain ⟨d, text, begins⟩ := List.exists_cons_of_ne_nil some_
  rw [begins] at whole ⊢
  obtain ⟨rfl, -⟩ := List.cons.inj whole
  exact ink_lineBehind_cons text inked

end Piece

end QueryNames
