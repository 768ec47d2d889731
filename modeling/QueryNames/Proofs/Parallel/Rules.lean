import QueryNames.Proofs.Grammar.Onward
import QueryNames.Proofs.Grammar.Total
import QueryNames.Proofs.Mark
import QueryNames.Proofs.Parallel.Border

/-!
Two runs side by side, over a text alone and over the same text in parentheses. Main statements: the
rules by which the same is found in both, and nothing is wrong with either, or something is wrong
with one of them, or the second has lost its parenthesis.
-/

namespace QueryNames.Grammar

open Token

/-- What remains of a result when only the names in it and their order count. -/
class Imprinting (α : Type) (β : outParam Type) where
  imprint : α → β

export Imprinting (imprint)

instance : Imprinting Bool Bool := ⟨id⟩
instance : Imprinting Unit Unit := ⟨id⟩
instance : Imprinting String Unit := ⟨fun _ => ()⟩
instance : Imprinting Location Unit := ⟨fun _ => ()⟩
instance : Imprinting BinaryOperator BinaryOperator := ⟨id⟩
instance : Imprinting UnaryOperator UnaryOperator := ⟨id⟩
instance : Imprinting SetOperator SetOperator := ⟨id⟩
instance : Imprinting JoinKind JoinKind := ⟨id⟩
instance : Imprinting Identifier String := ⟨(·.value)⟩
instance : Imprinting QualifiedName (List String) := ⟨QualifiedName.values⟩
instance [Imprinting α β] : Imprinting (Option α) (Option β) := ⟨Option.map imprint⟩
instance [Imprinting α β] : Imprinting (List α) (List β) := ⟨List.map imprint⟩
instance [Imprinting α β] [Imprinting γ δ] : Imprinting (α × γ) (β × δ) :=
  ⟨Prod.map imprint imprint⟩
instance : Imprinting Expression (List Mark) := ⟨(·.outline.marks)⟩
instance : Imprinting WhenBranch (List Mark) :=
  ⟨fun branch => branch.condition.outline.marks ++ branch.result.outline.marks⟩
instance : Imprinting OrderItem (List Mark) := ⟨(·.outline.marks)⟩
instance : Imprinting Window (List Mark) :=
  ⟨fun window => window.partitionBy.flatMap (·.outline.marks) ++
    window.orderBy.flatMap (·.outline.marks)⟩
instance : Imprinting TableSource (List Mark) := ⟨(·.outline.marks)⟩
instance : Imprinting SelectItem (List Mark) := ⟨(·.outline.marks)⟩
instance : Imprinting Top (List Mark) := ⟨(·.quantity.outline.marks)⟩
instance : Imprinting CommonTable (List Mark) := ⟨(·.outline.marks)⟩
instance : Imprinting Query (List Mark × List Mark × List Mark) :=
  ⟨fun query => (query.commonMarks, query.ownMarks, query.joinedMarks)⟩

theorem flatMap_imprint [Imprinting α (List β)] {as bs : List α}
    (same : imprint as = imprint bs) : as.flatMap imprint = bs.flatMap imprint := by
  rw [List.flatMap_def, List.flatMap_def]
  exact congrArg List.flatten same

/-- There is nothing in either, or something in both. -/
theorem option_of_imprint [Imprinting α β] {a? b? : Option α} (same : imprint a? = imprint b?) :
    a? = none ∧ b? = none ∨ ∃ a b, a? = some a ∧ b? = some b ∧ imprint a = imprint b := by
  cases a? with
  | none =>
      cases b? with
      | none => exact .inl ⟨rfl, rfl⟩
      | some b => cases same
  | some a =>
      cases b? with
      | none => cases same
      | some b => exact .inr ⟨a, b, rfl, rfl, Option.some.inj same⟩

theorem flatMap_toList [Imprinting α (List β)] {a? b? : Option α}
    (same : imprint a? = imprint b?) : a?.toList.flatMap imprint = b?.toList.flatMap imprint := by
  obtain ⟨rfl, rfl⟩ | ⟨a, b, rfl, rfl, alike⟩ := option_of_imprint same
  · rfl
  · simpa using alike

theorem imprint_toList [Imprinting α β] {a? b? : Option α} (same : imprint a? = imprint b?) :
    imprint a?.toList = imprint b?.toList := by
  obtain ⟨rfl, rfl⟩ | ⟨a, b, rfl, rfl, alike⟩ := option_of_imprint same
  · rfl
  · exact congrArg (· :: []) alike

/-- What is put in front of lists that are found, or not found in either. -/
theorem imprint_map_append [Imprinting α β] {as bs : List α} {as? bs? : Option (List α)}
    (first : imprint as = imprint bs) (others : imprint as? = imprint bs?) :
    imprint (as?.map (as ++ ·)) = imprint (bs?.map (bs ++ ·)) := by
  have append (as others : List α) : imprint (as ++ others) = imprint as ++ imprint others :=
    List.map_append
  obtain ⟨rfl, rfl⟩ | ⟨as', bs', rfl, rfl, rest⟩ := option_of_imprint others
  · rfl
  · refine congrArg some ?_
    rw [append, append, first, rest]

theorem isSome_of_imprint [Imprinting α β] {a? b? : Option α} (same : imprint a? = imprint b?) :
    a?.isSome = b?.isSome := by
  obtain ⟨rfl, rfl⟩ | ⟨a, b, rfl, rfl, -⟩ := option_of_imprint same
  · rfl
  · rfl

/-- At the end of input, where there is nowhere to go. -/
def Stopped (s : State) : Prop := s.cursor.ahead = [] ∧ s.cursor.current.kind = .endOfInput

theorem Parser.Advances.stopped {p : Parser α} (advances : Advances p) :
    Triple Stopped p (fun _ => Stopped) Stopped := by
  intro s stopped
  have same := (advances.onward s).stays stopped.1
  have result : Stopped (p s).2 := by rwa [Stopped, same]
  rcases run : p s with ⟨_ | a, s'⟩ <;> rw [run] at result <;> exact result

/-- There is a complaint, or the second run is at its last token, where no parenthesis closes. -/
def Spoilt (s s' : State) : Prop :=
  Complained s ∨ Complained s' ∨ s'.cursor.ahead = []

theorem Spoilt.onward {s s' t t' : State} (spoilt : Spoilt s s') (left : Onward s t)
    (right : Onward s' t') : Spoilt t t' := by
  rcases spoilt with complained | complained | last
  · exact .inl (complained.onward left)
  · exact .inr (.inl (complained.onward right))
  · exact .inr (.inr (by rw [right.stays last, last]))

variable {border : Border}

/-- From `c` and `d` two runs come to the same result side by side; the second has not moved where
the first could not. -/
structure Agree (border : Border) [Imprinting α β] (c d : Cursor)
    (r r' : Option α × State) : Prop where
  results : imprint r.1 = imprint r'.1
  quiet : r.2.reported = []
  quiet' : r'.2.reported = []
  near : Near border r.2.cursor r'.2.cursor
  stays : c.current.kind = .endOfInput → r'.2.cursor = d

namespace Agree

variable [Imprinting α β] {c d c' d' : Cursor} {r r' : Option α × State}

/-- Both runs give up, or what they find is the same as far as it counts. -/
theorem cases (agree : Agree border c d r r') :
    ∃ c' d', Near border c' d' ∧ (c.current.kind = .endOfInput → d' = d) ∧
      (r = (none, ⟨c', []⟩) ∧ r' = (none, ⟨d', []⟩) ∨
        ∃ a a', r = (some a, ⟨c', []⟩) ∧ r' = (some a', ⟨d', []⟩) ∧ imprint a = imprint a') := by
  obtain ⟨a?, c', reported⟩ := r
  obtain ⟨b?, d', reported'⟩ := r'
  obtain ⟨same, rfl : reported = [], rfl : reported' = [], near, stays⟩ := agree
  refine ⟨c', d', near, stays, ?_⟩
  obtain ⟨rfl, rfl⟩ | ⟨a, b, rfl, rfl, alike⟩ := option_of_imprint same
  · exact .inl ⟨rfl, rfl⟩
  · exact .inr ⟨a, b, rfl, rfl, alike⟩

/-- What two runs agree on behind two others. -/
theorem behind (agree : Agree border c' d' r r') (near : Near border c d)
    (moved : Onward ⟨c, []⟩ ⟨c', []⟩) (stays : c.current.kind = .endOfInput → d' = d) :
    Agree border c d r r' where
  results := agree.results
  quiet := agree.quiet
  quiet' := agree.quiet'
  near := agree.near
  stays ends := by
    have kept : c' = c := moved.stays (near.ahead_eq_nil ends)
    rw [agree.stays (kept ▸ ends), stays ends]

/-- The same runs with another result. -/
theorem result [Imprinting γ δ] {c? c?' : Option γ} (agree : Agree border c d r r')
    (same : imprint c? = imprint c?') : Agree border c d (c?, r.2) (c?', r'.2) :=
  ⟨same, agree.quiet, agree.quiet', agree.near, agree.stays⟩

end Agree

/-- Where the one run moves on, so does the other. -/
theorem Near.goesOn_iff {c d c' d' : Cursor} (near : Near border c d) (after : Near border c' d')
    (moved : Onward ⟨c, []⟩ ⟨c', []⟩) (stays : c.current.kind = .endOfInput → d' = d) :
    (State.mk c' []).remaining < (State.mk c []).remaining ↔
      (State.mk d' []).remaining < (State.mk d []).remaining :=
  near.progress after moved.remaining_le stays

namespace Parser

/-- From places side by side that are in `P`, either something is wrong with one of the runs or they
agree. -/
structure MatchesFrom (border : Border) [Imprinting α β] (P : Cursor → Cursor → Prop)
    (p p' : Parser α) : Prop where
  left : Advances p
  right : Advances p'
  runs : ∀ c d, Near border c d → P c d →
    Spoilt (p ⟨c, []⟩).2 (p' ⟨d, []⟩).2 ∨ Agree border c d (p ⟨c, []⟩) (p' ⟨d, []⟩)

abbrev Matches (border : Border) [Imprinting α β] (p p' : Parser α) : Prop :=
  MatchesFrom border (fun _ _ => True) p p'

/-- Results of which nothing is lost in what remains of them. -/
class Exact (α : Type) {β : outParam Type} [Imprinting α β] : Prop where
  eq_of_imprint : ∀ a b : α, imprint a = imprint b → a = b

instance : Exact Bool := ⟨fun _ _ => id⟩
instance : Exact Unit := ⟨fun _ _ => id⟩
instance : Exact BinaryOperator := ⟨fun _ _ => id⟩
instance : Exact UnaryOperator := ⟨fun _ _ => id⟩
instance : Exact SetOperator := ⟨fun _ _ => id⟩
instance : Exact JoinKind := ⟨fun _ _ => id⟩

instance [Imprinting α β] [Exact α] : Exact (Option α) where
  eq_of_imprint a? b? same := by
    obtain ⟨rfl, rfl⟩ | ⟨a, b, rfl, rfl, alike⟩ := option_of_imprint same
    · rfl
    · exact congrArg some (Exact.eq_of_imprint a b alike)

namespace MatchesFrom

variable [Imprinting α β] [Imprinting γ δ] {P : Cursor → Cursor → Prop}

theorem weaken {Q : Cursor → Cursor → Prop} {p p' : Parser α}
    (matches_ : MatchesFrom border Q p p') (before : ∀ c d, P c d → Q c d) :
    MatchesFrom border P p p' :=
  ⟨matches_.left, matches_.right, fun c d near start => matches_.runs c d near (before c d start)⟩

theorem always {p p' : Parser α} (matches_ : Matches border p p') : MatchesFrom border P p p' :=
  matches_.weaken fun _ _ _ => trivial

theorem pure {a b : α} (same : imprint a = imprint b) :
    MatchesFrom border P (pure a) (pure b) where
  left := .pure
  right := .pure
  runs _ _ near _ := .inr ⟨congrArg some same, rfl, rfl, near, fun _ => rfl⟩

theorem giveUp : MatchesFrom border P (giveUp : Parser α) giveUp where
  left := .giveUp
  right := .giveUp
  runs _ _ near _ := .inr ⟨rfl, rfl, rfl, near, fun _ => rfl⟩

theorem ofOption {a? b? : Option α} (same : imprint a? = imprint b?) :
    MatchesFrom border P (ofOption a?) (ofOption b?) := by
  obtain ⟨rfl, rfl⟩ | ⟨a, b, rfl, rfl, alike⟩ := option_of_imprint same
  · exact giveUp
  · exact pure alike

/-- With what is known of the place where the first parser ends. -/
theorem bindInto {A : Cursor → Prop} {Q : α → Cursor → Prop} {p p' : Parser α}
    {f f' : α → Parser γ} (first : MatchesFrom border P p p') (known : ∀ c d, P c d → A c)
    (after : Triple (fun s => A s.cursor) p (fun a s => Q a s.cursor) fun _ => True)
    (rest : ∀ a b, imprint a = imprint b →
      MatchesFrom border (fun c _ => Q a c) (f a) (f' b)) :
    MatchesFrom border P (p >>= f) (p' >>= f') where
  left := first.left.bind fun a => (rest a a rfl).left
  right := first.right.bind fun a => (rest a a rfl).right
  runs := by
    intro c d near start
    rcases first.runs c d near start with spoilt | agree
    · exact .inl (spoilt.onward (bind_onward (fun a => (rest a a rfl).left) _)
        (bind_onward (fun a => (rest a a rfl).right) _))
    · have ended := after ⟨c, []⟩ (known c d start)
      have moved := first.left.onward ⟨c, []⟩
      obtain ⟨c', d', near', stays, ⟨run, run'⟩ | ⟨a, b, run, run', same⟩⟩ := agree.cases
      · rw [bind_apply, bind_apply, run, run']
        exact .inr ⟨rfl, rfl, rfl, near', stays⟩
      · rw [run] at ended moved
        rw [bind_some run, bind_some run']
        rcases (rest a b same).runs c' d' near' ended with spoilt | agree
        · exact .inl spoilt
        · exact .inr (agree.behind near moved stays)

theorem bind {p p' : Parser α} {f f' : α → Parser γ} (first : MatchesFrom border P p p')
    (rest : ∀ a b, imprint a = imprint b → Matches border (f a) (f' b)) :
    MatchesFrom border P (p >>= f) (p' >>= f') := by
  refine first.bindInto (A := fun _ => True) (Q := fun _ _ => True) (fun _ _ _ => trivial) ?_ rest
  intro s _
  rcases p s with ⟨_ | a, s'⟩ <;> exact trivial

/-- What is found is the same as a whole. -/
theorem bindExact [Exact α] {p p' : Parser α} {f f' : α → Parser γ}
    (first : MatchesFrom border P p p') (rest : ∀ a, Matches border (f a) (f' a)) :
    MatchesFrom border P (p >>= f) (p' >>= f') := by
  refine first.bind fun a b same => ?_
  obtain rfl := Exact.eq_of_imprint a b same
  exact rest a

theorem bindOption {p p' : Parser (Option α)} {f f' : Option α → Parser γ}
    (first : MatchesFrom border P p p') (absent : Matches border (f none) (f' none))
    (present : ∀ a b, imprint a = imprint b → Matches border (f (some a)) (f' (some b))) :
    MatchesFrom border P (p >>= f) (p' >>= f') := by
  refine first.bind fun a? b? same => ?_
  obtain ⟨rfl, rfl⟩ | ⟨a, b, rfl, rfl, alike⟩ := option_of_imprint same
  · exact absent
  · exact present a b alike

theorem map {p p' : Parser α} {f f' : α → γ} (matches_ : MatchesFrom border P p p')
    (same : ∀ a b, imprint a = imprint b → imprint (f a) = imprint (f' b)) :
    MatchesFrom border P (f <$> p) (f' <$> p') := by
  rw [← bind_pure_comp, ← bind_pure_comp]
  exact matches_.bind fun a b alike => pure (same a b alike)

theorem attempt {p p' : Parser α} (matches_ : MatchesFrom border P p p') :
    MatchesFrom border P (attempt p) (attempt p') where
  left := matches_.left.attempt
  right := matches_.right.attempt
  runs c d near start := by
    rcases matches_.runs c d near start with spoilt | agree
    · exact .inl spoilt
    · exact .inr ⟨congrArg some agree.results, agree.quiet, agree.quiet', agree.near, agree.stays⟩

theorem onlyWhen {condition : Bool} {p p' : Parser α}
    (matches_ : condition = true → MatchesFrom border P p p') :
    MatchesFrom border P (onlyIf condition p) (onlyIf condition p') := by
  cases condition with
  | false => exact pure rfl
  | true => exact (matches_ rfl).attempt

theorem onlyIf {condition : Bool} {p p' : Parser α} (matches_ : MatchesFrom border P p p') :
    MatchesFrom border P (onlyIf condition p) (onlyIf condition p') := onlyWhen fun _ => matches_

theorem requiredIf {condition : Bool} {p p' : Parser α} (matches_ : MatchesFrom border P p p') :
    MatchesFrom border P (requiredIf condition p) (requiredIf condition p') := by
  cases condition with
  | false => exact pure rfl
  | true => exact matches_.map fun a b same => congrArg some same

/-- Where one of the runs always complains there is nothing to compare. -/
theorem ofLeft {p p' : Parser α} (left : Advances p) (right : Advances p')
    (complains : Triple (fun _ => True) p (fun _ => Complained) Complained) :
    MatchesFrom border P p p' :=
  ⟨left, right, fun _ _ _ _ => .inl (.inl (complains.ends trivial))⟩

theorem ofRight {p p' : Parser α} (left : Advances p) (right : Advances p')
    (complains : Triple (fun _ => True) p' (fun _ => Complained) Complained) :
    MatchesFrom border P p p' :=
  ⟨left, right, fun _ _ _ _ => .inl (.inr (.inl (complains.ends trivial)))⟩

/-! Looking. What was looked at is known of the two places until they are left. -/

theorem look {f : Cursor → ι} {g g' : ι → Parser γ}
    (agree : ∀ c d, Near border c d → P c d → f c = f d)
    (rest : ∀ a, MatchesFrom border (fun c d => P c d ∧ f c = a ∧ f d = a) (g a) (g' a)) :
    MatchesFrom border P (look f >>= g) (look f >>= g') where
  left := Advances.look.bind fun a => (rest a).left
  right := Advances.look.bind fun a => (rest a).right
  runs c d near start := by
    have result := (rest (f c)).runs c d near ⟨start, rfl, (agree c d near start).symm⟩
    rw [bind_apply, bind_apply]
    simpa [Parser.look, agree c d near start] using result

/-- Looking at what need not be the same under both. -/
theorem lookApart {f : Cursor → ι} {R : ι → ι → Prop} {g g' : ι → Parser γ} (refl : ∀ a, R a a)
    (related : ∀ c d, Near border c d → P c d → R (f c) (f d))
    (rest : ∀ a b, R a b → MatchesFrom border (fun c d => P c d ∧ f c = a ∧ f d = b) (g a) (g' b)) :
    MatchesFrom border P (Parser.look f >>= g) (Parser.look f >>= g') where
  left := Advances.look.bind fun a => (rest a a (refl a)).left
  right := Advances.look.bind fun a => (rest a a (refl a)).right
  runs c d near start :=
    (rest (f c) (f d) (related c d near start)).runs c d near ⟨start, rfl, rfl⟩

theorem current {g g' : Token → Parser γ}
    (rest : ∀ t u, Meets t u →
      MatchesFrom border (fun c d => P c d ∧ c.current = t ∧ d.current = u) (g t) (g' u)) :
    MatchesFrom border P (current >>= g) (current >>= g') :=
  lookApart Meets.refl (fun _ _ near _ => near.meets) rest

theorem place {g g' : Location → Parser γ} (rest : ∀ a b, MatchesFrom border P (g a) (g' b)) :
    MatchesFrom border P (place >>= g) (place >>= g') :=
  lookApart (R := fun _ _ => True) (fun _ => trivial) (fun _ _ _ _ => trivial)
    fun a b _ => (rest a b).weaken fun _ _ start => start.1

/-- Before the end of the shorter text the next tokens meet too. -/
theorem peek {g g' : Token → Parser γ} {Q : Prop}
    (known : Q → ∀ c d, P c d → c.current.kind ≠ .endOfInput)
    (rest : ∀ t u, (Q → Meets t u) →
      MatchesFrom border (fun c d => P c d ∧ c.peek 1 = t ∧ d.peek 1 = u) (g t) (g' u)) :
    MatchesFrom border P (peek 1 >>= g) (peek 1 >>= g') :=
  lookApart (R := fun t u => Q → Meets t u) (fun t _ => .refl t)
    (fun c d near start here => near.peek (known here c d start)) rest

theorem check {q : Token → Bool} {g g' : Bool → Parser γ} (blind : Blind q)
    (rest : ∀ a, MatchesFrom border
      (fun c d => P c d ∧ q c.current = a ∧ q d.current = a) (g a) (g' a)) :
    MatchesFrom border P (check q >>= g) (check q >>= g') :=
  look (fun _ _ near _ => blind _ _ near.meets) rest

/-! Moving. -/

theorem advance (goesOn : ∀ c d, P c d → c.current.kind ≠ .endOfInput) :
    MatchesFrom border P advance advance where
  left := .move Cursor.advance_suffix
  right := .move Cursor.advance_suffix
  runs c d near start :=
    .inr ⟨rfl, rfl, rfl, near.advance (goesOn c d start),
      fun ends => absurd ends (goesOn c d start)⟩

/-- What was seen one place ahead is known of the place stepped to. -/
theorem advanceInto {Q : Cursor → Cursor → Prop} {f f' : Unit → Parser γ}
    (goesOn : ∀ c d, P c d → c.current.kind ≠ .endOfInput)
    (into : ∀ c d, Near border c d → P c d → c.advance.current = c.peek 1 →
      d.advance.current = d.peek 1 → Q c.advance d.advance)
    (rest : MatchesFrom border Q (f ()) (f' ())) :
    MatchesFrom border P (Parser.advance >>= f) (Parser.advance >>= f') where
  left := Advances.bind (.move Cursor.advance_suffix) fun _ => rest.left
  right := Advances.bind (.move Cursor.advance_suffix) fun _ => rest.right
  runs := by
    intro c d near start
    have inside := goesOn c d start
    obtain ⟨left, right⟩ := near.advance_current inside
    rcases rest.runs c.advance d.advance (near.advance inside) (into c d near start left right) with
      spoilt | agree
    · exact .inl spoilt
    · exact .inr ⟨agree.results, agree.quiet, agree.quiet', agree.near,
        fun ends => absurd ends inside⟩

theorem acceptFrom {q q' : Token → Bool}
    (agree : ∀ c d, Near border c d → P c d → q c.current = q' d.current)
    (refuses : ∀ t : Token, t.kind = .endOfInput → q t = false) :
    MatchesFrom border P (Parser.accept q) (Parser.accept q') where
  left := .accept
  right := .accept
  runs := by
    intro c d near start
    have same := agree c d near start
    right
    cases found : q c.current with
    | false =>
        have run : Parser.accept q ⟨c, []⟩ = (some false, ⟨c, []⟩) := by
          simp [Parser.accept, found]
        have run' : Parser.accept q' ⟨d, []⟩ = (some false, ⟨d, []⟩) := by
          simp [Parser.accept, ← same, found]
        rw [run, run']
        exact ⟨rfl, rfl, rfl, near, fun _ => rfl⟩
    | true =>
        have run : Parser.accept q ⟨c, []⟩ = (some true, ⟨c.advance, []⟩) := by
          simp [Parser.accept, found]
        have run' : Parser.accept q' ⟨d, []⟩ = (some true, ⟨d.advance, []⟩) := by
          simp [Parser.accept, ← same, found]
        have goesOn : c.current.kind ≠ .endOfInput := by
          intro ends
          rw [refuses _ ends] at found
          contradiction
        rw [run, run']
        exact ⟨rfl, rfl, rfl, near.advance goesOn, fun ends => absurd ends goesOn⟩

theorem accept {q : Token → Bool} (blind : Blind q)
    (refuses : ∀ t : Token, t.kind = .endOfInput → q t = false) :
    MatchesFrom border P (accept q) (Parser.accept q) :=
  acceptFrom (fun _ _ near _ => blind _ _ near.meets) refuses

theorem acceptKeyword {k : Keyword} (union : k ≠ .union) (except : k ≠ .except)
    (intersect : k ≠ .intersect) :
    MatchesFrom border P (acceptKeyword k) (acceptKeyword k) :=
  accept (blind_isKeyword union except intersect) fun t ends => by simp [isKeyword, ends]

theorem acceptPunctuation {p : Punctuation} (other : p ≠ .rightParen) :
    MatchesFrom border P (acceptPunctuation p) (acceptPunctuation p) :=
  accept (blind_isPunctuation other) fun t ends => by simp [isPunctuation, ends]

theorem acceptWord {word : String} : MatchesFrom border P (acceptWord word) (acceptWord word) :=
  accept blind_isWord fun t ends => by simp [isWord, ends]

/-- What is not accepted is still there. -/
theorem ifAcceptFrom {q : Token → Bool} {yes yes' no no' : Parser γ}
    (agree : ∀ c d, Near border c d → P c d → q c.current = q d.current)
    (refuses : ∀ t : Token, t.kind = .endOfInput → q t = false)
    (accepted : Matches border yes yes') (refused : MatchesFrom border P no no') :
    MatchesFrom border P (Parser.accept q >>= fun found => if found = true then yes else no)
      (Parser.accept q >>= fun found => if found = true then yes' else no') where
  left := by
    refine Advances.accept.bind fun found => ?_
    cases found with
    | false => exact refused.left
    | true => exact accepted.left
  right := by
    refine Advances.accept.bind fun found => ?_
    cases found with
    | false => exact refused.right
    | true => exact accepted.right
  runs := by
    intro c d near start
    cases found : q c.current with
    | false =>
        have found' : q d.current = false := by rw [← agree c d near start, found]
        simpa [bind_apply, Parser.accept, found, found'] using refused.runs c d near start
    | true =>
        have both : MatchesFrom border P (Parser.accept q >>= fun found =>
            if found = true then yes else Parser.giveUp) (Parser.accept q >>= fun found =>
            if found = true then yes' else Parser.giveUp) := by
          refine (acceptFrom agree refuses).bindExact fun found => ?_
          cases found with
          | false => exact giveUp
          | true => exact accepted
        have found' : q d.current = true := by rw [← agree c d near start, found]
        simpa [bind_apply, Parser.accept, found, found'] using both.runs c d near start

theorem ifAccept {q : Token → Bool} {yes yes' no no' : Parser γ} (blind : Blind q)
    (refuses : ∀ t : Token, t.kind = .endOfInput → q t = false)
    (accepted : Matches border yes yes') (refused : MatchesFrom border P no no') :
    MatchesFrom border P (Parser.accept q >>= fun found => if found = true then yes else no)
      (Parser.accept q >>= fun found => if found = true then yes' else no') :=
  ifAcceptFrom (fun _ _ near _ => blind _ _ near.meets) refuses accepted refused

theorem ifKeyword {k : Keyword} {yes yes' no no' : Parser γ} (union : k ≠ .union)
    (except : k ≠ .except) (intersect : k ≠ .intersect) (accepted : Matches border yes yes')
    (refused : MatchesFrom border P no no') :
    MatchesFrom border P
      (Parser.acceptKeyword k >>= fun found => if found = true then yes else no)
      (Parser.acceptKeyword k >>= fun found => if found = true then yes' else no') :=
  ifAccept (blind_isKeyword union except intersect) (fun t ends => by simp [isKeyword, ends])
    accepted refused

theorem ifPunctuation {p : Punctuation} {yes yes' no no' : Parser γ} (other : p ≠ .rightParen)
    (accepted : Matches border yes yes') (refused : MatchesFrom border P no no') :
    MatchesFrom border P
      (Parser.acceptPunctuation p >>= fun found => if found = true then yes else no)
      (Parser.acceptPunctuation p >>= fun found => if found = true then yes' else no') :=
  ifAccept (blind_isPunctuation other) (fun t ends => by simp [isPunctuation, ends])
    accepted refused

theorem skipUntil {stop : Token → Bool} (halting : Halting stop) :
    MatchesFrom border P (skipUntil stop) (skipUntil stop) where
  left := .move (Cursor.skipUntil_suffix stop)
  right := .move (Cursor.skipUntil_suffix stop)
  runs := by
    intro c d near _
    by_cases lost : (d.skipUntil stop).ahead = []
    · exact .inl (.inr (.inr lost))
    · refine .inr ⟨rfl, rfl, rfl, ?_, fun ends => ?_⟩
      · exact (near.skipUntil halting).resolve_right lost
      · exact (near.skipUntil_stays halting ends).resolve_right lost

theorem skipGroup : MatchesFrom border P skipGroup skipGroup :=
  skipUntil halting_never

theorem skipParenthesized : MatchesFrom border P skipParenthesized skipParenthesized where
  left := .move Cursor.skipParenthesized_suffix
  right := .move Cursor.skipParenthesized_suffix
  runs := by
    intro c d near _
    rcases near.skipParenthesized with kept | lost
    · exact .inr ⟨rfl, rfl, rfl, kept, fun ends => near.skipParenthesized_stays ends⟩
    · exact .inl (.inr (.inr lost))

/-! Complaints and recovery. -/

theorem report {complaint complaint' : Complaint} :
    MatchesFrom border P (report complaint) (report complaint') :=
  ofLeft .report .report report_complains

theorem reportMissing {expected : Expected} :
    MatchesFrom border P (reportMissing expected) (reportMissing expected) :=
  current fun _ _ _ => report

theorem reportSurplus {expected : Expected} :
    MatchesFrom border P (reportSurplus expected) (reportSurplus expected) :=
  current fun _ _ _ => report

theorem missing {expected : Expected} :
    MatchesFrom border P (missing expected : Parser γ) (missing expected) :=
  reportMissing.bind fun _ _ _ => giveUp

theorem requireKeyword {k : Keyword} (union : k ≠ .union) (except : k ≠ .except)
    (intersect : k ≠ .intersect) :
    MatchesFrom border P (requireKeyword k) (requireKeyword k) := by
  refine (acceptKeyword union except intersect).bindExact fun found => ?_
  cases found with
  | false => exact missing
  | true => exact pure rfl

theorem requirePunctuation {p : Punctuation} (other : p ≠ .rightParen) :
    MatchesFrom border P (requirePunctuation p) (requirePunctuation p) := by
  refine (acceptPunctuation other).bindExact fun found => ?_
  cases found with
  | false => exact missing
  | true => exact pure rfl

theorem succeeds {p p' : Parser Unit} (matches_ : MatchesFrom border P p p') :
    MatchesFrom border P (succeeds p) (succeeds p') :=
  matches_.attempt.bindExact fun _ => pure rfl

/-- Where the shorter text has its end in place of the parenthesis there is a complaint. -/
theorem closeParen : MatchesFrom border P closeParen closeParen := by
  refine ⟨closeParen_advances, closeParen_advances, fun c d near _ => ?_⟩
  cases closes : c.current.isPunctuation .rightParen with
  | false => exact .inl (.inl (closeParen_complains.ends closes))
  | true =>
      have goesOn : c.current.kind ≠ .endOfInput := by
        intro ends
        simp [isPunctuation, ends] at closes
      have closes' : d.current.isPunctuation .rightParen = true := by
        rw [← closes, isPunctuation, isPunctuation, (near.inside goesOn).1]
      have run (e : Cursor) (closing : e.current.isPunctuation .rightParen = true) :
          Parser.closeParen ⟨e, []⟩ = (some (), ⟨e.advance, []⟩) := by
        simp [Parser.closeParen, bind_apply, Parser.acceptPunctuation, Parser.accept, closing,
          pure_apply]
      right
      rw [run c closes, run d closes']
      exact ⟨rfl, rfl, rfl, near.advance goesOn, fun ends => absurd ends goesOn⟩

/-- A group that may close at once. It is missed that it does not close where the shorter text has
its end. -/
theorem ifClosing {yes yes' no no' : Parser γ} (closed : Matches border yes yes')
    (unclosed : MatchesFrom border (fun c _ => c.current.kind ≠ .endOfInput) no no')
    (missed : Triple Stopped no (fun _ => Complained) Complained) :
    MatchesFrom border P
      (Parser.acceptPunctuation .rightParen >>= fun closes => if closes = true then yes else no)
      (Parser.acceptPunctuation .rightParen >>= fun closes =>
        if closes = true then yes' else no') where
  left := by
    refine Advances.accept.bind fun found => ?_
    cases found with
    | false => exact unclosed.left
    | true => exact closed.left
  right := by
    refine Advances.accept.bind fun found => ?_
    cases found with
    | false => exact unclosed.right
    | true => exact closed.right
  runs := by
    have refused (e : Cursor) (open_ : e.current.isPunctuation .rightParen = false) :
        Parser.acceptPunctuation .rightParen ⟨e, []⟩ = (some false, ⟨e, []⟩) := by
      simp [Parser.acceptPunctuation, Parser.accept, open_]
    have accepted (e : Cursor) (closes : e.current.isPunctuation .rightParen = true) :
        Parser.acceptPunctuation .rightParen ⟨e, []⟩ = (some true, ⟨e.advance, []⟩) := by
      simp [Parser.acceptPunctuation, Parser.accept, closes]
    intro c d near _
    rw [bind_apply, bind_apply]
    by_cases ends : c.current.kind = .endOfInput
    · left
      left
      rw [refused c (by simp [isPunctuation, ends])]
      exact missed.ends ⟨near.ahead_eq_nil ends, ends⟩
    · have same : d.current.isPunctuation .rightParen = c.current.isPunctuation .rightParen := by
        rw [isPunctuation, isPunctuation, (near.inside ends).1]
      cases closes : c.current.isPunctuation .rightParen with
      | false =>
          rw [refused c closes, refused d (same.trans closes)]
          exact unclosed.runs c d near ends
      | true =>
          rw [accepted c closes, accepted d (same.trans closes)]
          rcases closed.runs _ _ (near.advance ends) trivial with spoilt | agree
          · exact .inl spoilt
          · exact .inr ⟨agree.results, agree.quiet, agree.quiet', agree.near,
              fun stops => absurd stops ends⟩

theorem finishItem {ends : Token → Bool} {parsed : Bool} (halting : Halting ends) :
    MatchesFrom border P (finishItem ends parsed) (finishItem ends parsed) := by
  refine current fun t u meets => ?_
  rw [halting.blind t u meets]
  refine bind (onlyIf reportSurplus) fun _ _ _ => ?_
  exact (skipUntil halting).bind fun _ _ _ => acceptPunctuation nofun

theorem finishClause {parsed : Bool} :
    MatchesFrom border P (finishClause parsed) (finishClause parsed) := by
  refine current fun t u meets => ?_
  rw [blind_endsClause t u meets]
  exact (onlyIf reportSurplus).bind fun _ _ _ => skipUntil halting_endsClause

/-! Repetition. -/

theorem iterate {step step' : α → Parser (α × Bool)}
    (round : ∀ a b, imprint a = imprint b → Matches border (step a) (step' b)) (a b : α)
    (same : imprint a = imprint b) : Matches border (iterate step a) (iterate step' b) where
  left := .iterate (fun a => (round a a rfl).left) a
  right := .iterate (fun a => (round a a rfl).right) b
  runs := by
    intro c d near _
    have advances := fun a => (round a a rfl).left
    have advances' := fun a => (round a a rfl).right
    induction length : (State.mk c []).remaining using Nat.strongRecOn generalizing a b c d with
    | ind n ih =>
        rcases (round a b same).runs c d near trivial with spoilt | agree
        · exact .inl (spoilt.onward (iterate_onward advances a ⟨c, []⟩)
            (iterate_onward advances' b ⟨d, []⟩))
        · have moved := (advances a).onward ⟨c, []⟩
          obtain ⟨c', d', near', stays,
            ⟨run, run'⟩ | ⟨⟨a', more⟩, ⟨b', more'⟩, run, run', found⟩⟩ := agree.cases
          · rw [iterate_nothing run, iterate_nothing run']
            exact .inr ⟨rfl, rfl, rfl, near', stays⟩
          · obtain ⟨alike, rfl : more = more'⟩ := Prod.mk.inj found
            rw [run] at moved
            have both := near.goesOn_iff near' moved stays
            by_cases goesOn : more = true ∧ (State.mk c' []).remaining < (State.mk c []).remaining
            · rw [iterate_goesOn run goesOn, iterate_goesOn run' (goesOn.imp_right both.1)]
              rcases ih _ (length ▸ goesOn.2) a' b' alike c' d' near' rfl with spoilt | agree
              · exact .inl spoilt
              · exact .inr (agree.behind near moved stays)
            · rw [iterate_ends run goesOn,
                iterate_ends run' fun goesOn' => goesOn (goesOn'.imp_right both.2)]
              exact .inr ⟨congrArg some alike, rfl, rfl, near', stays⟩

/-- As long as every round of the first run keeps to `A`. -/
theorem collectFrom {A : Cursor → Prop} {step step' : Parser (Option α × Bool)}
    (round : MatchesFrom border (fun c _ => A c) step step')
    (keeps : Triple (fun s => A s.cursor) step (fun _ s => A s.cursor) fun _ => True) :
    MatchesFrom border (fun c _ => A c) (collect step) (collect step') where
  left := .collect round.left
  right := .collect round.right
  runs := by
    intro c d near start
    induction length : (State.mk c []).remaining using Nat.strongRecOn generalizing c d with
    | ind n ih =>
        rcases round.runs c d near start with spoilt | agree
        · exact .inl (spoilt.onward (collect_onward round.left ⟨c, []⟩)
            (collect_onward round.right ⟨d, []⟩))
        · have kept := keeps ⟨c, []⟩ start
          have moved := round.left.onward ⟨c, []⟩
          obtain ⟨c', d', near', stays,
            ⟨run, run'⟩ | ⟨⟨a?, more⟩, ⟨b?, more'⟩, run, run', found⟩⟩ := agree.cases
          · rw [collect_nothing run, collect_nothing run']
            exact .inr ⟨rfl, rfl, rfl, near', stays⟩
          · obtain ⟨alike, rfl : more = more'⟩ := Prod.mk.inj found
            have first := imprint_toList alike
            rw [run] at kept moved
            have both := near.goesOn_iff near' moved stays
            by_cases goesOn : more = true ∧ (State.mk c' []).remaining < (State.mk c []).remaining
            · rw [collect_goesOn run goesOn, collect_goesOn run' (goesOn.imp_right both.1)]
              rcases ih _ (length ▸ goesOn.2) c' d' near' kept rfl with spoilt | agree
              · exact .inl spoilt
              · exact .inr ((agree.behind near moved stays).result (imprint_map_append first
                  agree.results))
            · rw [collect_ends run goesOn,
                collect_ends run' fun goesOn' => goesOn (goesOn'.imp_right both.2)]
              exact .inr ⟨congrArg some first, rfl, rfl, near', stays⟩

theorem collect {step step' : Parser (Option α × Bool)} (round : Matches border step step') :
    Matches border (Parser.collect step) (Parser.collect step') := by
  refine collectFrom (A := fun _ => True) round fun s _ => ?_
  rcases step s with ⟨_ | a, s'⟩ <;> exact trivial

theorem chainLeft {operand operand' : Parser α} {operator operator' : Parser (Option ω)}
    [Imprinting ω ω] [Exact ω] {join : ω → α → α → α}
    (operands : Matches border operand operand') (operators : Matches border operator operator')
    (joins : ∀ op a b a' b', imprint a = imprint a' → imprint b = imprint b' →
      imprint (join op a b) = imprint (join op a' b')) :
    Matches border (chainLeft operand operator join) (chainLeft operand' operator' join) := by
  refine operands.bind fun first first' same => iterate (fun left left' alike => ?_) _ _ same
  refine operators.bindExact fun op? => ?_
  cases op? with
  | none => exact pure (Prod.ext alike rfl)
  | some op =>
      refine operands.attempt.bindOption (pure (Prod.ext alike rfl)) fun right right' same => ?_
      exact pure (Prod.ext (joins op left right left' right' alike same) rfl)

theorem commaList {ends : Token → Bool} {item item' : Parser α} (halting : Halting ends)
    (items : Matches border item item') :
    Matches border (commaList ends item) (commaList ends item') := by
  refine collect (items.attempt.bind fun item? item?' same => ?_)
  rw [isSome_of_imprint same]
  exact (finishItem halting).bindExact fun more => pure (Prod.ext same rfl)

end MatchesFrom

end Parser

end QueryNames.Grammar
