import QueryNames.Grammar.Script
import QueryNames.Proofs.Rendition.Text
import QueryNames.Proofs.Stepwise.Places

/-!
Runs on renditions. Main statement: a rule for each way of putting parsers together, so that a run
on the rendition of a state comes to the rendition of what the run on the state itself comes to.
-/

namespace QueryNames

/-- No two of the places in `P` become one. -/
def Rendition.Apart (f : Rendition) (P : Location → Prop) : Prop :=
  ∀ ⦃here there⦄, P here → P there → f.place here = f.place there → here = there

namespace Grammar

/-! Cursors. -/

namespace Cursor

variable (f : Rendition) (c : Cursor)

theorem current_render : (render f c).current = render f c.current := rfl

theorem tokens_render : (render f c).tokens = render f c.tokens := rfl

@[simp] theorem isAtEnd_render : (render f c).isAtEnd = c.isAtEnd := rfl

@[simp] theorem remaining_render : (render f c).remaining = c.remaining := List.length_map _

theorem peek_render (n : Nat) : (render f c).peek n = render f (c.peek n) := by
  have last (ahead : List Token) (t : Token) :
      (render f ahead).getLastD (render f t) = render f (ahead.getLastD t) := by
    induction ahead generalizing t with
    | nil => rfl
    | cons u ahead ih =>
        rw [render_cons, List.getLastD_cons, List.getLastD_cons, ih]
  simp only [peek, tokens_render]
  rw [show (render f c.tokens)[n]? = c.tokens[n]?.map (render f) from List.getElem?_map]
  cases c.tokens[n]? with
  | none => exact last c.ahead c.current
  | some t => rfl

theorem advance_render : (render f c).advance = render f c.advance := by
  obtain ⟨t, ahead⟩ := c
  unfold advance
  rw [isAtEnd_render]
  split
  · rfl
  · cases ahead <;> rfl

theorem skipFrom_render {stop : Token → Bool} (same : ∀ t, stop (render f t) = stop t)
    (depth : Nat) (t : Token) (ahead : List Token) :
    skipFrom stop depth (render f t) (render f ahead) = render f (skipFrom stop depth t ahead) := by
  induction ahead generalizing depth t with
  | nil => rfl
  | cons next ahead ih =>
      rw [render_cons]
      unfold skipFrom
      simp only [Token.isEnd_render, Token.isPunctuation_render, same]
      repeat' split
      all_goals first | exact ih _ next | rfl

theorem skipUntil_render {stop : Token → Bool} (same : ∀ t, stop (render f t) = stop t) :
    (render f c).skipUntil stop = render f (c.skipUntil stop) :=
  skipFrom_render f same 0 c.current c.ahead

theorem skipGroup_render : (render f c).skipGroup = render f c.skipGroup :=
  skipUntil_render f c fun _ => rfl

theorem skipParenthesized_render :
    (render f c).skipParenthesized = render f c.skipParenthesized := by
  simp only [skipParenthesized, current_render, Token.isPunctuation_render, advance_render,
    skipGroup_render]
  split
  · split <;> rfl
  · rfl

theorem opensQuery_render : (render f c).opensQuery = c.opensQuery := by
  rw [opensQuery, peek_render]
  rfl

theorem opensQueryDeep_render : (render f c).opensQueryDeep = c.opensQueryDeep := by
  have past (tokens : List Token) :
      ((render f tokens).dropWhile (·.isPunctuation .leftParen)).head?.any isSelectOrWith =
        (tokens.dropWhile (·.isPunctuation .leftParen)).head?.any isSelectOrWith := by
    induction tokens with
    | nil => rfl
    | cons t tokens ih =>
        rw [render_cons, List.dropWhile_cons, List.dropWhile_cons, Token.isPunctuation_render]
        split
        · exact ih
        · rfl
  rw [opensQueryDeep, tokens_render, past]
  rfl

theorem startsQuery_render : (render f c).startsQuery = c.startsQuery := by
  rw [startsQuery, opensQueryDeep_render, peek_render]
  rfl

theorem startsWithQualifiedStar_render : ∀ tokens : List Token,
    startsWithQualifiedStar (render f tokens) = startsWithQualifiedStar tokens
  | [] | [_] | [_, _] => rfl
  | name :: period :: t :: rest =>
      congrArg (fun more => name.kind == .identifier && period.isPunctuation .period &&
        (t.kind == .star || more)) (startsWithQualifiedStar_render (t :: rest))

end Cursor

namespace Parser

/-- The rendition of a run is the run on the rendition. The second parser is the first one, up to
the rendition of what it is given. -/
class Renders [Renderable α] (f : Rendition) (p q : Parser α) : Prop where
  run {P : Location → Prop} {s : State} (apart : f.Apart P) (within : s.Within P) :
    q (render f s) = render f (p s)

namespace Renders

variable {f : Rendition} [Renderable α] [Renderable β] [Renderable ω] {p q : Parser α}

theorem pure {a b : α} (same : render f a = b) : Renders f (Pure.pure a) (Pure.pure b) where
  run _ _ := same ▸ rfl

instance : Renders f (giveUp : Parser α) giveUp := ⟨fun _ _ => rfl⟩

instance (a? : Option α) : Renders f (ofOption a?) (ofOption (render f a?)) := by
  cases a? <;> exact ⟨fun _ _ => rfl⟩

theorem bind {g h : α → Parser β} (first : Renders f p q) [Stepwise p]
    (rest : ∀ a, Renders f (g a) (h (render f a))) : Renders f (p >>= g) (q >>= h) where
  run {_ s} apart within := by
    have behind := Stepwise.keeps (p := p) (lasting_within _) within
    rw [bind_apply, bind_apply, first.run apart within]
    rcases run : p s with ⟨_ | a, s'⟩ <;> rw [run] at behind
    · rfl
    · exact (rest a).run apart behind

/-- The same, for a parser that is known. -/
theorem next {g h : α → Parser β} [first : Renders f p q] [Stepwise p]
    (rest : ∀ a, Renders f (g a) (h (render f a))) : Renders f (p >>= g) (q >>= h) :=
  bind first rest

/-- The same, by cases on a result that may be absent. -/
theorem bindOption {p q : Parser (Option α)} {g h : Option α → Parser β} (first : Renders f p q)
    [Stepwise p] (absent : Renders f (g none) (h none))
    (present : ∀ a, Renders f (g (some a)) (h (some (render f a)))) :
    Renders f (p >>= g) (q >>= h) :=
  bind first fun a? => match a? with
    | none => absent
    | some a => present a

theorem map {g : α → β} (first : Renders f p q) [Stepwise p]
    (same : ∀ a, render f (g a) = g (render f a)) : Renders f (g <$> p) (g <$> q) :=
  bind first fun a => pure (same a)

theorem attempt (first : Renders f p q) : Renders f (Parser.attempt p) (Parser.attempt q) where
  run apart within := by
    unfold Parser.attempt
    rw [first.run apart within]
    rfl

theorem ite (condition : Prop) [Decidable condition] {p' q' : Parser α} (first : Renders f p q)
    (second : Renders f p' q') :
    Renders f (if condition then p else p') (if condition then q else q') := by
  split
  · exact first
  · exact second

theorem onlyIf (condition : Bool) (first : Renders f p q) :
    Renders f (Parser.onlyIf condition p) (Parser.onlyIf condition q) :=
  ite _ first.attempt (pure rfl)

theorem requiredIf (condition : Bool) (first : Renders f p q) [Stepwise p] :
    Renders f (Parser.requiredIf condition p) (Parser.requiredIf condition q) :=
  ite _ (first.map fun _ => rfl) (pure rfl)

/-! Looking and moving. -/

theorem look {g h : Cursor → α} (same : ∀ c, h (render f c) = render f (g c)) :
    Renders f (Parser.look g) (Parser.look h) where
  run {_ s} _ _ := by
    unfold Parser.look
    rw [show (render f s).cursor = render f s.cursor from rfl, same]
    rfl

theorem move {g : Cursor → Cursor} (same : ∀ c, g (render f c) = render f (g c)) :
    Renders f (Parser.move g) (Parser.move g) where
  run {_ s} _ _ := by
    unfold Parser.move
    rw [show (render f s).cursor = render f s.cursor from rfl, same]
    rfl

instance : Renders f current current := look fun _ => rfl

instance (n : Nat) : Renders f (peek n) (peek n) := look fun c => c.peek_render f n

instance : Renders f place place := look fun _ => rfl

instance : Renders f (Parser.look Cursor.isAtEnd) (Parser.look Cursor.isAtEnd) := look fun _ => rfl

instance : Renders f (Parser.look Cursor.opensQuery) (Parser.look Cursor.opensQuery) :=
  look (Cursor.opensQuery_render f)

instance : Renders f (Parser.look Cursor.opensQueryDeep) (Parser.look Cursor.opensQueryDeep) :=
  look (Cursor.opensQueryDeep_render f)

instance : Renders f (Parser.look Cursor.startsQuery) (Parser.look Cursor.startsQuery) :=
  look (Cursor.startsQuery_render f)

instance : Renders f advance advance := move (Cursor.advance_render f)

instance : Renders f skipGroup skipGroup := move (Cursor.skipGroup_render f)

instance : Renders f skipParenthesized skipParenthesized := move (Cursor.skipParenthesized_render f)

theorem skipUntil {stop : Token → Bool} (same : ∀ t, stop (render f t) = stop t) :
    Renders f (Parser.skipUntil stop) (Parser.skipUntil stop) :=
  move fun c => c.skipUntil_render f same

theorem check {test test' : Token → Bool} (same : ∀ t, test' (render f t) = test t) :
    Renders f (Parser.check test) (Parser.check test') :=
  look fun c => same c.current

theorem accept {test test' : Token → Bool} (same : ∀ t, test' (render f t) = test t) :
    Renders f (Parser.accept test) (Parser.accept test') where
  run {_ s} _ _ := by
    unfold Parser.accept
    rw [show (render f s).cursor = render f s.cursor from rfl, Cursor.current_render, same]
    split
    · rw [Cursor.advance_render]
      rfl
    · rfl

instance (k : Keyword) : Renders f (acceptKeyword k) (acceptKeyword k) := accept fun _ => rfl

instance (p : Punctuation) : Renders f (acceptPunctuation p) (acceptPunctuation p) :=
  accept fun _ => rfl

instance (word : String) : Renders f (acceptWord word) (acceptWord word) :=
  accept fun t => t.isWord_render f word

/-! Complaints. -/

theorem report {complaint complaint' : Complaint} (same : render f complaint = complaint') :
    Renders f (Parser.report complaint) (Parser.report complaint') where
  run {P s} apart within := by
    have here : P s.cursor.current.location := within.ahead _ List.mem_cons_self
    have again : ((render f s).reported.head?.any fun d =>
          d.isGrammatical && d.location == (render f s).cursor.current.location) =
        s.reported.head?.any fun d =>
          d.isGrammatical && d.location == s.cursor.current.location := by
      show ((s.reported.map (render f)).head?.any _) = _
      cases found : s.reported with
      | nil => rfl
      | cons d earlier =>
          have there : P d.location := within.reported d (by simp [found])
          have sort : (render f d).isGrammatical = d.isGrammatical := by
            obtain ⟨cause, place⟩ := d
            cases cause <;> rfl
          have place : (f.place d.location == f.place s.cursor.current.location) =
              (d.location == s.cursor.current.location) := by
            rw [Bool.eq_iff_iff, beq_iff_eq, beq_iff_eq]
            exact ⟨fun same => apart there here same, fun same => congrArg f.place same⟩
          show ((render f d).isGrammatical && f.place d.location == _) = _
          rw [sort]
          exact congrArg _ place
    unfold Parser.report
    simp only [again, ← same]
    split <;> rfl

instance (expected : Expected) : Renders f (reportMissing expected) (reportMissing expected) :=
  next fun t => report (congrArg (Complaint.missing expected) (t.found_render f).symm)

instance (expected : Expected) : Renders f (reportSurplus expected) (reportSurplus expected) :=
  next fun t => report (congrArg (Complaint.surplus · expected) (t.found_render f).symm)

instance (expected : Expected) : Renders f (missing expected : Parser α) (missing expected) :=
  next fun _ => inferInstance

instance (k : Keyword) : Renders f (requireKeyword k) (requireKeyword k) :=
  next fun _ => ite _ (pure rfl) inferInstance

instance (p : Punctuation) : Renders f (requirePunctuation p) (requirePunctuation p) :=
  next fun _ => ite _ (pure rfl) inferInstance

theorem succeeds {p q : Parser Unit} (first : Renders f p q) [Stepwise p] :
    Renders f (Parser.succeeds p) (Parser.succeeds q) :=
  first.attempt.bind fun a? => pure (isSome_render f a?).symm

/-! Repetition. -/

theorem of_run {P : Location → Prop} {s s' : State} {a? : Option α} (renders : Renders f p q)
    (apart : f.Apart P) (within : s.Within P) (run : p s = (a?, s')) :
    q (render f s) = (render f a?, render f s') := by
  rw [renders.run apart within, run]
  rfl

private theorem fewer (s s' : State) :
    (render f s').remaining < (render f s).remaining ↔ s'.remaining < s.remaining := by
  unfold State.remaining
  rw [show (render f s').cursor = render f s'.cursor from rfl,
    show (render f s).cursor = render f s.cursor from rfl, Cursor.remaining_render,
    Cursor.remaining_render]

theorem iterate {step step' : β → Parser (β × Bool)} [∀ b, Stepwise (step b)]
    (round : ∀ b, Renders f (step b) (step' (render f b))) (b : β) :
    Renders f (Parser.iterate step b) (Parser.iterate step' (render f b)) where
  run {P s} apart within := by
    fun_induction Parser.iterate step b s with
    | case1 b s s' run => exact iterate_nothing ((round b).of_run apart within run)
    | case2 b s b' more s' run onward ih =>
        rw [← fewer (f := f)] at onward
        rw [iterate_goesOn ((round b).of_run apart within run) onward]
        exact ih (Stepwise.of_run (lasting_within P) within run)
    | case3 b s b' more s' run ends =>
        rw [← fewer (f := f)] at ends
        exact iterate_ends ((round b).of_run apart within run) ends

theorem collect {step step' : Parser (Option α × Bool)} [Stepwise step]
    (round : Renders f step step') : Renders f (Parser.collect step) (Parser.collect step') where
  run {P s} apart within := by
    fun_induction Parser.collect step s with
    | case1 s s' run => exact collect_nothing (round.of_run apart within run)
    | case2 s a? more s' run onward s'' last ih
    | case3 s a? more s' run onward as s'' last ih =>
        have rest := ih (Stepwise.of_run (lasting_within P) within run)
        rw [last] at rest
        rw [← fewer (f := f)] at onward
        rw [collect_goesOn (round.of_run apart within run) onward, rest]
        cases a? <;> rfl
    | case4 s a? more s' run ends =>
        rw [← fewer (f := f)] at ends
        rw [collect_ends (round.of_run apart within run) ends]
        cases a? <;> rfl

section Chains

variable {operand operand' : Parser α} {operator operator' : Parser (Option ω)}
  [Stepwise operand] [Stepwise operator]

theorem chainRight {join : α → ω → α → α} (term : Renders f operand operand')
    (between : Renders f operator operator')
    (joins : ∀ a op b, join (render f a) (render f op) (render f b) = render f (join a op b)) :
    Renders f (Parser.chainRight operand operator join)
      (Parser.chainRight operand' operator' join) where
  run {P s} apart within := by
    fun_induction Parser.chainRight operand operator join s with
    | case1 s s' run => exact chainRight_nothing (term.of_run apart within run)
    | case2 s a s' run op s'' found onward b s''' last ih =>
        have next := Stepwise.of_run (lasting_within P) within run
        have rest := ih (Stepwise.of_run (lasting_within P) next found)
        rw [last] at rest
        rw [← fewer (f := f)] at onward
        rw [chainRight_more (term.of_run apart within run) (between.of_run apart next found) onward,
          rest, render_pair, render_pair, render_some, render_some, ← joins]
        rfl
    | case3 s a s' run op s'' found onward s''' last ih =>
        have next := Stepwise.of_run (lasting_within P) within run
        have rest := ih (Stepwise.of_run (lasting_within P) next found)
        rw [last] at rest
        rw [← fewer (f := f)] at onward
        rw [chainRight_more (term.of_run apart within run) (between.of_run apart next found) onward,
          rest]
        rfl
    | case4 s a s' run op s'' found ends =>
        have next := Stepwise.of_run (lasting_within P) within run
        rw [← fewer (f := f)] at ends
        exact chainRight_still (term.of_run apart within run) (between.of_run apart next found) ends
    | case5 s a s' run op? s'' noOperator found =>
        have next := Stepwise.of_run (lasting_within P) within run
        refine chainRight_stop (term.of_run apart within run) (between.of_run apart next found) ?_
        rcases op? with _ | _ | op
        · nofun
        · nofun
        · exact absurd rfl (noOperator op)

theorem chainLeft {join : ω → α → α → α} (term : Renders f operand operand')
    (between : Renders f operator operator')
    (joins : ∀ op a b, join (render f op) (render f a) (render f b) = render f (join op a b)) :
    Renders f (Parser.chainLeft operand operator join)
      (Parser.chainLeft operand' operator' join) := by
  have round (left : α) : Renders f (chainRound operand operator join left)
      (chainRound operand' operator' join (render f left)) := by
    apply between.bind
    rintro (_ | op)
    · exact pure rfl
    · apply term.attempt.bind
      rintro (_ | right)
      · exact pure rfl
      · exact pure (congrArg (·, true) (joins op left right).symm)
  rw [chainLeft_eq, chainLeft_eq]
  exact term.bind fun first => iterate round first

end Chains

/-! Recovery, names and data types. -/

instance : Renders f closeParen closeParen :=
  next fun _ => ite _ (pure rfl) (next fun _ => next fun _ => next fun _ => pure rfl)

section Ends

variable {ends : Token → Bool} (same : ∀ t, ends (render f t) = ends t)

include same

theorem finishItem (parsed : Bool) :
    Renders f (Parser.finishItem ends parsed) (Parser.finishItem ends parsed) := by
  refine next fun t => ?_
  rw [same]
  exact (onlyIf _ inferInstance).bind fun _ => (skipUntil same).bind fun _ => inferInstance

theorem commaList {item item' : Parser α} [Stepwise item] (each : Renders f item item') :
    Renders f (Parser.commaList ends item) (Parser.commaList ends item') := by
  refine collect (each.attempt.bind fun item? => ?_)
  rw [isSome_render]
  exact (finishItem same _).bind fun more => pure rfl

theorem tooDeep : Renders f (Parser.tooDeep ends : Parser α) (Parser.tooDeep ends) :=
  bind (report rfl) fun _ => (skipUntil same).bind fun _ => inferInstance

end Ends

theorem finishClause (parsed : Bool) :
    Renders f (Parser.finishClause parsed) (Parser.finishClause parsed) :=
  next fun _ => (onlyIf _ inferInstance).bind fun _ => skipUntil fun _ => rfl

instance : Renders f identifier identifier :=
  next fun t => ite _ (next fun _ => pure (Identifier.ofToken_render f t).symm) inferInstance

instance (expected : Expected) :
    Renders f (requireIdentifier expected) (requireIdentifier expected) :=
  bindOption (attempt inferInstance) inferInstance fun _ => pure rfl

instance : Renders f partBehind partBehind :=
  bindOption (attempt inferInstance) (next fun _ => pure rfl) fun _ => pure rfl

instance : Renders f namePart namePart := by
  rw [namePart_eq]
  refine next fun _ => ite _ (bind (check fun _ => rfl) fun _ => ?_) (pure rfl)
  exact ite _ (pure rfl) inferInstance

instance : Renders f qualifiedName qualifiedName := by
  rw [qualifiedName_eq]
  refine bindOption (attempt inferInstance) inferInstance fun first => ?_
  exact bind (collect inferInstance) fun others => pure rfl

instance : Renders f identifierList identifierList :=
  next fun _ => (commaList (fun _ => rfl) inferInstance).bind fun _ => next fun _ => pure rfl

instance : Renders f columnNames columnNames :=
  bind (check fun _ => rfl) fun _ => ite _ inferInstance (pure rfl)

instance : Renders f typeArgument typeArgument := by
  refine next fun t => ite _ (pure rfl) (next fun _ => pure ?_)
  have comma : render f ", " = ", " := render_signs f (by decide)
  rw [Token.isPunctuation_render, render_pair, render_some, apply_ite (render f), comma]
  rfl

instance : Renders f typeArguments typeArguments :=
  bind (collect inferInstance) fun parts => pure (render_join f parts)

instance : Renders f dataType dataType := by
  have period : render f "." = "." := render_signs f (by decide)
  have opening : render f "(" = "(" := render_signs f (by decide)
  have closing : render f ")" = ")" := render_signs f (by decide)
  refine next fun name => next fun more => ?_
  have base : ".".intercalate (render f name).values = render f (".".intercalate name.values) := by
    rw [QualifiedName.values_render, render_intercalate f period]
  simp only [base]
  refine ite _ (next fun arguments => next fun _ => pure ?_) (pure rfl)
  rw [render_text_append, render_text_append, render_text_append, opening, closing]

end Renders

end Parser

end Grammar

end QueryNames
