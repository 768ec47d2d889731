import QueryNames.Proofs.Blame.Rules
import QueryNames.Proofs.Groups.Query

/-!
Where a skip to the next statement ends. Main statements: whole groups are passed over, and from
either end of a group that was read without a complaint a skip comes to the same place, or it runs
to the end of input.
-/

namespace QueryNames.Grammar

/-- A statement may begin here, or it ends. -/
def resumes (t : Token) : Bool := t.isPunctuation .semicolon || t.isKeyword .select

/-- The tokens that stand outside of all groups, if `depth` are open before the first. -/
def outside : (depth : Nat) → List Token → List Token
  | _, [] => []
  | depth, t :: ts =>
      if t.isPunctuation .leftParen then outside (depth + 1) ts
      else if t.isPunctuation .rightParen then outside (depth - 1) ts
      else if depth = 0 then t :: outside depth ts
      else outside depth ts

section Tokens

variable {t : Token} {ts : List Token} {depth left : Nat}

theorem outside_opening (opens : t.isPunctuation .leftParen = true) :
    outside depth (t :: ts) = outside (depth + 1) ts := by
  rw [outside, if_pos opens]

theorem outside_closing (closes : t.isPunctuation .rightParen = true) :
    outside (depth + 1) (t :: ts) = outside depth ts := by
  have other : t.isPunctuation .leftParen = false := by
    simp_all [Token.isPunctuation]
  rw [outside, other, if_neg Bool.false_ne_true, if_pos closes, Nat.add_sub_cancel]

theorem outside_plain (plain : t.isParen = false) :
    outside depth (t :: ts) = if depth = 0 then t :: outside depth ts else outside depth ts := by
  simp only [Token.isParen, Bool.or_eq_false_iff] at plain
  rw [outside, plain.1, plain.2, if_neg Bool.false_ne_true, if_neg Bool.false_ne_true]

/-- Along tokens that close no group but those that are open. -/
@[elab_as_elim]
theorem opened_induction {motive : (depth : Nat) → (ts : List Token) → opened depth ts = some left →
      Prop} (nil : motive left [] rfl)
    (opening : ∀ depth t ts opens found, motive (depth + 1) ts found →
      motive depth (t :: ts) ((opened_opening opens).trans found))
    (closing : ∀ outer t ts closes found, motive outer ts found →
      motive (outer + 1) (t :: ts) ((opened_closing closes).trans found))
    (plain : ∀ depth t ts noParen found, motive depth ts found →
      motive depth (t :: ts) ((opened_plain noParen).trans found))
    (depth : Nat) (ts : List Token) (found : opened depth ts = some left) :
    motive depth ts found := by
  induction ts generalizing depth with
  | nil =>
      obtain rfl : depth = left := Option.some.inj found
      exact nil
  | cons t ts ih =>
      by_cases opens : t.isPunctuation .leftParen = true
      · exact opening depth t ts opens _ (ih (depth + 1) ((opened_opening opens).symm.trans found))
      · by_cases closes : t.isPunctuation .rightParen = true
        · cases depth with
          | zero =>
              rw [opened_cons, openedBy, if_neg opens, if_pos closes] at found
              cases found
          | succ outer =>
              exact closing outer t ts closes _
                (ih outer ((opened_closing closes).symm.trans found))
        · have noParen : t.isParen = false := by simp [Token.isParen, opens, closes]
          exact plain depth t ts noParen _ (ih depth ((opened_plain noParen).symm.trans found))

/-- From inside of one more group the tokens close one more, or leave it open. -/
theorem opened_succ (found : opened depth ts = some left) :
    opened (depth + 1) ts = some (left + 1) := by
  induction depth, ts, found using opened_induction with
  | nil => rfl
  | opening _ _ _ opens _ ih => rwa [opened_opening opens]
  | closing _ _ _ closes _ ih => rwa [opened_closing closes]
  | plain _ _ _ noParen _ ih => rwa [opened_plain noParen]

theorem opened_add (found : opened depth ts = some left) (outer : Nat) :
    opened (depth + outer) ts = some (left + outer) := by
  induction outer with
  | zero => exact found
  | succ outer ih => exact opened_succ ih

/-- Inside of a group that is not closed nothing stands outside. -/
theorem outside_succ (found : opened depth ts = some left) : outside (depth + 1) ts = [] := by
  induction depth, ts, found using opened_induction with
  | nil => rfl
  | opening _ _ _ opens _ ih => rwa [outside_opening opens]
  | closing _ _ _ closes _ ih => rwa [outside_closing closes]
  | plain _ _ _ noParen _ ih => rwa [outside_plain noParen, if_neg (Nat.succ_ne_zero _)]

end Tokens

/-- Only the last token is an end of input. -/
theorem Ended.isEnd_eq_false {front ts : List Token} (ended : Ended (front ++ ts))
    (nonempty : ts ≠ []) : ∀ t ∈ front, t.isEnd = false := by
  induction front with
  | nil => nofun
  | cons t front ih =>
      have behind : front ++ ts ≠ [] := List.append_ne_nil_of_right_ne_nil front nonempty
      refine List.forall_mem_cons.2 ⟨?_, ih (ended.tail behind)⟩
      rw [List.cons_append] at ended
      generalize front ++ ts = rest at ended behind
      cases ended with
      | last => contradiction
      | next goesOn => simp [Token.isEnd, goesOn]

theorem Ended.exists_concat {ts : List Token} (ended : Ended ts) :
    ∃ front stop, ts = front ++ [stop] ∧ (∀ t ∈ front, t.isEnd = false) ∧ stop.isEnd = true := by
  induction ended with
  | @last stop ends => exact ⟨[], stop, rfl, nofun, Token.isEnd_iff.2 ends⟩
  | @next t ts goesOn _ ih =>
      obtain ⟨front, stop, rfl, inside, ends⟩ := ih
      have here : t.isEnd = false := by simp [Token.isEnd, goesOn]
      exact ⟨t :: front, stop, rfl, List.forall_mem_cons.2 ⟨here, inside⟩, ends⟩

namespace Cursor

variable {c d : Cursor} {front : List Token} {depth left : Nat}

theorem exists_behind {t : Token} (split : c.tokens = t :: front ++ d.tokens) :
    ∃ e : Cursor, e.tokens = front ++ d.tokens ∧ c = ⟨t, e.tokens⟩ := by
  obtain ⟨e, behind⟩ := exists_tokens (List.append_ne_nil_of_right_ne_nil front d.tokens_ne_nil)
  exact ⟨e, behind, eq_of_tokens (split.trans (congrArg (t :: ·) behind.symm))⟩

/-- A skip passes what it does not stop at. -/
theorem skipFrom_append {stop : Token → Bool} (split : c.tokens = front ++ d.tokens)
    (found : opened depth front = some left) (goesOn : ∀ t ∈ front, t.isEnd = false)
    (passes : ∀ t ∈ outside depth front, stop t = false) :
    skipFrom stop depth c.current c.ahead = skipFrom stop left d.current d.ahead := by
  induction depth, front, found using opened_induction generalizing c with
  | nil => rw [eq_of_tokens split]
  | opening _ _ _ opens _ ih =>
      obtain ⟨e, behind, rfl⟩ := exists_behind split
      rw [outside_opening opens] at passes
      rw [skipFrom_opening e (Token.isPunctuation_iff.1 opens)]
      exact ih behind (List.forall_mem_cons.1 goesOn).2 passes
  | closing _ _ _ closes _ ih =>
      obtain ⟨e, behind, rfl⟩ := exists_behind split
      rw [outside_closing closes] at passes
      rw [skipFrom_closing e (Token.isPunctuation_iff.1 closes)]
      exact ih behind (List.forall_mem_cons.1 goesOn).2 passes
  | plain depth t _ noParen _ ih =>
      obtain ⟨e, behind, rfl⟩ := exists_behind split
      obtain ⟨here, later⟩ := List.forall_mem_cons.1 goesOn
      have kind : t.kind ≠ .endOfInput := by simpa [Token.isEnd] using here
      have opens : t.kind ≠ .punctuation .leftParen := fun is => by
        simp [Token.isParen, Token.isPunctuation, is] at noParen
      have closes : t.kind ≠ .punctuation .rightParen := fun is => by
        simp [Token.isParen, Token.isPunctuation, is] at noParen
      rw [outside_plain noParen] at passes
      rw [skipFrom_other e kind opens closes]
      cases depth with
      | zero =>
          obtain ⟨stays, passes⟩ := List.forall_mem_cons.1 passes
          rw [stays, if_neg (by simp)]
          exact ih behind later passes
      | succ depth =>
          rw [if_neg (by simp)]
          exact ih behind later passes

/-- Out of a group that is never closed a skip runs to the end of input. -/
theorem skipFrom_unclosed {stop : Token → Bool} (ended : Ended c.tokens)
    (found : opened depth c.tokens = some left) :
    (skipFrom stop (depth + 1) c.current c.ahead).isAtEnd = true := by
  obtain ⟨front, last, split, inside, ends⟩ := ended.exists_concat
  obtain ⟨actual, begun⟩ : ∃ actual, opened depth front = some actual := by
    rw [split, opened_append] at found
    obtain ⟨actual, begun, -⟩ := Option.bind_eq_some_iff.1 found
    exact ⟨actual, begun⟩
  have passed : skipFrom stop (depth + 1) c.current c.ahead = skipFrom stop (actual + 1) last [] :=
    skipFrom_append (d := ⟨last, []⟩) split (opened_succ begun) inside
      (by rw [outside_succ begun]; nofun)
  rw [passed]
  exact ends

/-- All groups that are closed ahead are opened there. -/
def OwnsGroups (c : Cursor) : Prop := ∃ left, opened 0 c.tokens = some left

end Cursor

/-- From the first cursor a skip to the next statement comes where it comes from the second, or it
runs to the end of input. -/
structure Leads (c d : Cursor) : Prop where
  owns : d.OwnsGroups → c.OwnsGroups
  skips : d.OwnsGroups →
    c.skipUntil resumes = d.skipUntil resumes ∨ (c.skipUntil resumes).isAtEnd = true

namespace Leads

variable {c d e : Cursor}

theorem refl (c : Cursor) : Leads c c := ⟨id, fun _ => .inl rfl⟩

theorem trans (first : Leads c d) (second : Leads d e) : Leads c e where
  owns := first.owns ∘ second.owns
  skips owned := by
    rcases first.skips (second.owns owned) with same | ends
    · rw [same]
      exact second.skips owned
    · exact .inr ends

/-- Over a token at which no skip ends. -/
theorem step (ended : Ended c.tokens) (inside : c.isAtEnd = false)
    (plain : c.current.isParen = false) (passes : resumes c.current = false) :
    Leads c c.advance := by
  have split := Cursor.tokens_advance ended.closed inside
  refine ⟨?_, fun _ => .inl ?_⟩
  · rintro ⟨left, found⟩
    exact ⟨left, by rw [split, opened_plain plain, found]⟩
  · have passed (t : Token) (member : t ∈ outside 0 [c.current]) : resumes t = false := by
      rw [outside_plain plain, if_pos rfl] at member
      exact List.mem_singleton.1 member ▸ passes
    exact Cursor.skipFrom_append split (opened_plain plain)
      (fun t member => List.mem_singleton.1 member ▸ inside) passed

/-- A skip goes into a group. -/
theorem skipUntil_opening (ended : Ended c.tokens)
    (opens : c.current.isPunctuation .leftParen = true) :
    c.skipUntil resumes = Cursor.skipFrom resumes 1 c.advance.current c.advance.ahead := by
  have inside := Cursor.isAtEnd_of_isPunctuation opens
  have split : c.tokens = [c.current] ++ c.advance.tokens :=
    Cursor.tokens_advance ended.closed inside
  exact Cursor.skipFrom_append split (opened_opening opens)
    (fun t member => List.mem_singleton.1 member ▸ inside)
    (by rw [outside_opening opens]; nofun)

theorem opened_advance (ended : Ended c.tokens)
    (opens : c.current.isPunctuation .leftParen = true) {left : Nat}
    (found : opened 1 c.advance.tokens = some left) : c.OwnsGroups := by
  refine ⟨left, ?_⟩
  rw [Cursor.tokens_advance ended.closed (Cursor.isAtEnd_of_isPunctuation opens),
    opened_opening opens, found]

/-- What stands behind a group that is never closed does not matter. -/
theorem unclosed (ended : Ended c.tokens) (opens : c.current.isPunctuation .leftParen = true)
    {left : Nat} (found : opened 0 c.advance.tokens = some left) : Leads c d where
  owns _ := opened_advance ended opens (opened_succ found)
  skips _ := by
    rw [skipUntil_opening ended opens]
    exact .inr
      (Cursor.skipFrom_unclosed (ended.of_suffix (Cursor.advance_suffix c) (by simp)) found)

/-- Over a group with a parenthesis at its end. -/
theorem closed (ended : Ended c.tokens) (opens : c.current.isPunctuation .leftParen = true)
    {front : List Token} {within : Nat} (split : front ++ d.tokens = c.advance.tokens)
    (found : opened 0 front = some within)
    (closes : d.current.isPunctuation .rightParen = true) : Leads c d.advance := by
  have behind : Ended c.advance.tokens := ended.of_suffix (Cursor.advance_suffix c) (by simp)
  have inside : Ended d.tokens := behind.of_suffix ⟨front, split⟩ d.tokens_ne_nil
  have last := Cursor.tokens_advance inside.closed (Cursor.isAtEnd_of_isPunctuation closes)
  have closing : Cursor.skipFrom resumes (within + 1) d.current d.advance.tokens = _ :=
    Cursor.skipFrom_closing d.advance (Token.isPunctuation_iff.1 closes) within
  rw [← (List.cons.inj last).2] at closing
  have passed : c.skipUntil resumes =
      Cursor.skipFrom resumes within d.advance.current d.advance.ahead := by
    rw [skipUntil_opening ended opens, ← closing]
    apply Cursor.skipFrom_append split.symm (opened_succ found)
    · exact (split ▸ behind).isEnd_eq_false d.tokens_ne_nil
    · rw [outside_succ found]
      nofun
  refine ⟨fun ⟨left, owned⟩ => ?_, fun ⟨left, owned⟩ => ?_⟩
  · have rest : opened within d.advance.tokens = some (left + within) := by
      simpa using opened_add owned within
    apply opened_advance ended opens
    rw [← split, opened_append, opened_succ found, Option.bind_some, last, opened_closing closes,
      rest]
  · cases within with
    | zero => exact .inl passed
    | succ outer =>
        have deeper : opened outer d.advance.tokens = some (left + outer) := by
          simpa using opened_add owned outer
        rw [passed]
        exact .inr (Cursor.skipFrom_unclosed
          (inside.of_suffix (Cursor.advance_suffix d) (by simp)) deeper)

/-- Over a group that is read without a complaint. Where it has groups that are not counted, it is
not closed where it is read to end. -/
theorem group {p : Parser α} (counts : ∀ whole, p.Counts whole [] 0 0) (ended : Ended c.tokens)
    (opens : c.current.isPunctuation .leftParen = true) {a? : Option α}
    (run : p ⟨c.advance, []⟩ = (a?, ⟨d, []⟩))
    (closes : d.current.isPunctuation .rightParen = true) :
    Leads c d.advance := by
  have behind : Ended c.advance.tokens := ended.of_suffix (Cursor.advance_suffix c) (by simp)
  -- a group that was not counted was left open all the way, or up to the place where the run ends
  rcases Parser.Counts.opened_of_run counts behind run with
    ⟨left, found⟩ | ⟨front, left, split, found⟩
  · exact unclosed ended opens found
  · exact closed ended opens split found closes

end Leads

end QueryNames.Grammar
