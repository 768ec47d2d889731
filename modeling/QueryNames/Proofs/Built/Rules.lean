import QueryNames.Proofs.Stepwise.Places

/-!
What holds of the results of a parser, given what holds of the tokens ahead of it. There is a rule
for each way in which parsers are put together.
-/

namespace QueryNames

/-- What the token gives a name, if it gives one, is allowed by `reads`. Two keywords are names of
functions as well. -/
structure Token.Legible (reads : Identifier → Prop) (t : Token) : Prop where
  identifier : t.kind = .identifier → reads (.ofToken t)
  called : t.kind = .keyword .left ∨ t.kind = .keyword .right → reads ⟨t.text, none, t.location⟩

theorem Token.legible_of_isEnd {reads : Identifier → Prop} {t : Token} (stop : t.isEnd) :
    t.Legible reads := by
  have kind : t.kind = .endOfInput := Token.isEnd_iff.1 stop
  constructor <;> simp [kind]

namespace Grammar

def State.Legible (reads : Identifier → Prop) (s : State) : Prop :=
  ∀ t ∈ s.cursor.tokens, t.Legible reads

theorem lasting_legible (reads : Identifier → Prop) : Lasting (State.Legible reads) :=
  lasting_ahead (Token.Legible reads)

namespace Parser

/-- With nothing but legible tokens ahead, what the parser finds is in `P`. -/
structure Finds (reads : Identifier → Prop) (P : α → Prop) (p : Parser α) : Prop where
  found {s s' : State} {a : α} : s.Legible reads → p s = (some a, s') → P a

namespace Finds

variable {reads : Identifier → Prop} {P : α → Prop} {Q : β → Prop}

theorem weaken {P' : α → Prop} {p : Parser α} (finds : Finds reads P p)
    (weaker : ∀ a, P a → P' a) : Finds reads P' p :=
  ⟨fun legible run => weaker _ (finds.found legible run)⟩

theorem pure {a : α} (holds : P a) : Finds reads P (pure a) := by
  constructor
  rintro s _ _ - ⟨⟩
  exact holds

theorem giveUp : Finds reads P giveUp := by
  constructor
  rintro s _ _ - ⟨⟩

theorem ofOption {a? : Option α} (holds : ∀ a ∈ a?, P a) : Finds reads P (ofOption a?) := by
  cases a? with
  | none => exact giveUp
  | some a => exact pure (holds a rfl)

theorem bind {p : Parser α} [Stepwise p] {f : α → Parser β} (first : Finds reads P p)
    (rest : ∀ a, P a → Finds reads Q (f a)) : Finds reads Q (p >>= f) := by
  constructor
  intro s s' b legible run
  rw [bind_apply] at run
  rcases step : p s with ⟨_ | a, s''⟩ <;> rw [step] at run
  · cases run
  · have holds := first.found legible step
    have behind := Stepwise.of_run (lasting_legible reads) legible step
    exact (rest a holds).found behind run

/-- Nothing has to hold of what is not used. -/
theorem next {p : Parser α} [Stepwise p] {f : α → Parser β}
    (rest : ∀ a, Finds reads Q (f a)) : Finds reads Q (p >>= f) :=
  bind (P := fun _ => True) ⟨fun _ _ => trivial⟩ fun a _ => rest a

theorem current : Finds reads (Token.Legible reads) current := by
  constructor
  rintro s _ _ legible ⟨⟩
  exact legible s.cursor.current List.mem_cons_self

theorem attempt {p : Parser α} (finds : Finds reads P p) :
    Finds reads (fun a? => ∀ a ∈ a?, P a) (attempt p) := by
  constructor
  rintro s _ _ legible ⟨⟩ a member
  have run : p s = (some a, (p s).2) := Prod.ext member rfl
  exact finds.found legible run

/-- Where a result is needed or may be missing, what follows is found in either case. -/
theorem attemptNext {p : Parser α} [Stepwise p] {f : Option α → Parser β}
    (first : Finds reads P p) (nothing : Finds reads Q (f none))
    (something : ∀ a, P a → Finds reads Q (f (some a))) :
    Finds reads Q (Parser.attempt p >>= f) := by
  apply bind first.attempt
  intro a? holds
  cases a? with
  | none => exact nothing
  | some a => exact something a (holds a rfl)

theorem onlyIf {condition : Bool} {p : Parser α} (finds : Finds reads P p) :
    Finds reads (fun a? => ∀ a ∈ a?, P a) (onlyIf condition p) := by
  cases condition with
  | false => exact pure nofun
  | true => exact finds.attempt

theorem requiredIf {condition : Bool} {p : Parser α} [Stepwise p] (finds : Finds reads P p) :
    Finds reads (fun a? => ∀ a ∈ a?, P a) (requiredIf condition p) := by
  cases condition with
  | false => exact pure nofun
  | true =>
      apply bind (f := fun a => Pure.pure (some a)) finds
      intro a holds
      apply pure
      rintro _ ⟨⟩
      exact holds

/-! Repetition. -/

theorem iterate {step : β → Parser (β × Bool)} [∀ b, Stepwise (step b)]
    (round : ∀ b, Q b → Finds reads (fun r => Q r.1) (step b)) {b : β} (start : Q b) :
    Finds reads Q (iterate step b) := by
  constructor
  intro s s' b' legible run
  fun_induction Parser.iterate step b s with
  | case1 => cases run
  | case2 b s b'' more s'' first _ ih =>
      have holds := (round b start).found legible first
      have behind := Stepwise.of_run (lasting_legible reads) legible first
      exact ih holds behind run
  | case3 b s b'' more s'' first _ =>
      cases run
      exact (round b start).found legible first

theorem collect {step : Parser (Option α × Bool)} [Stepwise step]
    (round : Finds reads (fun r => ∀ a ∈ r.1, P a) step) :
    Finds reads (fun as => ∀ a ∈ as, P a) (collect step) := by
  constructor
  intro s s' as legible run
  fun_induction Parser.collect step s generalizing s' as with
  | case1 => cases run
  | case2 => cases run
  | case3 s a? more s'' first _ rest s''' last ih =>
      cases run
      have here := round.found legible first
      have behind := Stepwise.of_run (lasting_legible reads) legible first
      intro a member
      rcases List.mem_append.1 member with member | member
      · exact here a (Option.mem_toList.1 member)
      · exact ih behind last a member
  | case4 s a? more s'' first _ =>
      cases run
      intro a member
      exact round.found legible first a (Option.mem_toList.1 member)

theorem chainRight {operand : Parser α} {operator : Parser (Option ω)} [Stepwise operand]
    [Stepwise operator] {join : α → ω → α → α} (operands : Finds reads P operand)
    (joins : ∀ a op b, P a → P b → P (join a op b)) :
    Finds reads P (chainRight operand operator join) := by
  constructor
  intro s s' c legible run
  fun_induction Parser.chainRight operand operator join s generalizing s' c with
  | case1 => cases run
  | case2 s a s₁ first op s₂ between _ b s₃ last ih =>
      cases run
      have behind := Stepwise.of_run (lasting_legible reads) legible first
      have right := ih (Stepwise.of_run (lasting_legible reads) behind between) last
      exact joins a op b (operands.found legible first) right
  | case3 s a s₁ first op s₂ between _ s₃ last _
  | case4 s a s₁ first op s₂ between _
  | case5 s a s₁ first op? s₂ _ between =>
      cases run
      exact operands.found legible first

theorem chainLeft {operand : Parser α} {operator : Parser (Option ω)} [Stepwise operand]
    [Stepwise operator] {join : ω → α → α → α} (operands : Finds reads P operand)
    (joins : ∀ op a b, P a → P b → P (join op a b)) :
    Finds reads P (chainLeft operand operator join) := by
  have round (left : α) (holds : P left) :
      Finds reads (fun r => P r.1) (chainRound operand operator join left) := by
    apply next
    intro op?
    cases op? with
    | none => exact pure holds
    | some op =>
        apply attemptNext operands
        · exact pure holds
        · intro right found
          exact pure (joins op left right holds found)
  rw [chainLeft_eq]
  apply bind operands
  intro first found
  exact iterate round found

/-! Recovery. -/

theorem missing {expected : Expected} : Finds reads P (missing expected) :=
  next fun _ => giveUp

theorem tooDeep {ends : Token → Bool} : Finds reads P (tooDeep ends) :=
  next fun _ => next fun _ => giveUp

theorem commaList {ends : Token → Bool} {item : Parser α} [Stepwise item]
    (items : Finds reads P item) : Finds reads (fun as => ∀ a ∈ as, P a) (commaList ends item) := by
  apply collect
  apply bind items.attempt
  intro item? found
  apply next
  intro more
  exact pure found

/-! Names. -/

theorem identifier : Finds reads reads identifier := by
  apply bind current
  intro t legible
  split
  · rename_i kind
    apply next
    intro _
    exact pure (legible.identifier (beq_iff_eq.1 kind))
  · exact giveUp

theorem requireIdentifier {expected : Expected} :
    Finds reads reads (requireIdentifier expected) := by
  apply attemptNext identifier
  · exact missing
  · intro name found
    exact pure found

theorem namePart : Finds reads (fun r => ∀ part ∈ r.1, reads part) Parser.namePart := by
  rw [namePart_eq]
  apply next
  intro _
  split
  · apply next
    intro _
    split
    · exact pure nofun
    · apply attemptNext identifier
      · exact next fun _ => pure nofun
      · rintro part found
        apply pure
        rintro _ ⟨⟩
        exact found
  · exact pure nofun

theorem qualifiedName :
    Finds reads (fun name => ∀ part ∈ name.parts, reads part) qualifiedName := by
  apply attemptNext identifier
  · exact missing
  · intro first found
    apply bind (collect namePart)
    intro others founds
    exact pure (List.forall_mem_cons.2 ⟨found, founds⟩)

theorem identifierList : Finds reads (fun names => ∀ name ∈ names, reads name) identifierList := by
  apply next
  intro _
  apply bind (commaList requireIdentifier)
  intro names found
  exact next fun _ => pure found

theorem columnNames : Finds reads (fun names => ∀ name ∈ names, reads name) columnNames := by
  apply next
  intro _
  split
  · exact identifierList
  · exact pure nofun

end Finds

end Parser

end Grammar

end QueryNames
