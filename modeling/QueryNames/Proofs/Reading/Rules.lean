import QueryNames.Proofs.Grammar.Cursor
import QueryNames.Proofs.Grammar.Triple
import QueryNames.Proofs.Mention

/-!
What a parser keeps of the identifiers that it passes. Main statement: the rules by which a result
names nothing but identifiers that were passed, each once and in their order; they hold on every
path, also where a parser gives up or passes tokens over.
-/

namespace QueryNames

def Token.identifier? (t : Token) : Option Identifier :=
  if t.kind = .identifier then some (.ofToken t) else none

namespace Grammar

/-- The run that began at `origin` has come to `s`, past identifiers among which are `ids`, in this
order. -/
structure Passed (origin : State) (ids : List Identifier) (s : State) : Prop where
  originClosed : Closed origin.cursor.tokens
  kept : origin.reported <:+ s.reported
  split : ∃ front, front ++ s.cursor.tokens = origin.cursor.tokens ∧
    ids.Sublist (front.filterMap Token.identifier?)

namespace Passed

variable {origin : State} {ids : List Identifier} {s : State}

theorem start (closed : Closed s.cursor.tokens) : Passed s [] s :=
  ⟨closed, List.suffix_rfl, [], rfl, List.nil_sublist _⟩

theorem suffix (passed : Passed origin ids s) : s.cursor.tokens <:+ origin.cursor.tokens := by
  obtain ⟨front, split, -⟩ := passed.split
  exact ⟨front, split⟩

theorem closed (passed : Passed origin ids s) : Closed s.cursor.tokens :=
  passed.originClosed.of_suffix passed.suffix s.cursor.tokens_ne_nil

theorem fewer (passed : Passed origin ids s) {fewer : List Identifier}
    (sublist : fewer.Sublist ids) : Passed origin fewer s := by
  obtain ⟨closed, kept, front, split, among⟩ := passed
  exact ⟨closed, kept, front, split, sublist.trans among⟩

theorem move (passed : Passed origin ids s) {c : Cursor} (suffix : c.tokens <:+ s.cursor.tokens) :
    Passed origin ids { s with cursor := c } := by
  obtain ⟨closed, kept, front, split, among⟩ := passed
  obtain ⟨between, rest⟩ := suffix
  refine ⟨closed, kept, front ++ between, ?_, ?_⟩
  · rw [List.append_assoc, rest, split]
  · rw [List.filterMap_append]
    exact among.trans (List.sublist_append_left _ _)

theorem report (passed : Passed origin ids s) {reported : List Diagnostic}
    (suffix : s.reported <:+ reported) :
    Passed origin ids { s with reported := reported } :=
  ⟨passed.originClosed, passed.kept.trans suffix, passed.split⟩

theorem identifier (passed : Passed origin ids s) (kind : s.cursor.current.kind = .identifier) :
    Passed origin (ids ++ [.ofToken s.cursor.current]) { s with cursor := s.cursor.advance } := by
  have step := Cursor.tokens_advance passed.closed (Cursor.isAtEnd_eq_false kind nofun)
  obtain ⟨closed, kept, front, split, among⟩ := passed
  refine ⟨closed, kept, front ++ [s.cursor.current], ?_, ?_⟩
  · rw [List.append_assoc, List.singleton_append, ← step, split]
  · rw [List.filterMap_append]
    refine among.append ?_
    simp [Token.identifier?, kind]

end Passed

/-- The identifiers that a result has from what was read. -/
class Naming (α : Type) where
  names : α → List Identifier

export Naming (names)

instance : Naming Identifier := ⟨fun i => [i]⟩
instance : Naming QualifiedName := ⟨QualifiedName.parts⟩
instance : Naming Bool := ⟨fun _ => []⟩
instance : Naming Unit := ⟨fun _ => []⟩
instance : Naming String := ⟨fun _ => []⟩
instance : Naming Token := ⟨fun _ => []⟩
instance : Naming Location := ⟨fun _ => []⟩
instance : Naming BinaryOperator := ⟨fun _ => []⟩
instance : Naming UnaryOperator := ⟨fun _ => []⟩
instance : Naming SetOperator := ⟨fun _ => []⟩
instance : Naming JoinKind := ⟨fun _ => []⟩
instance [Naming α] : Naming (Option α) := ⟨fun a? => a?.toList.flatMap names⟩
instance [Naming α] : Naming (List α) := ⟨fun as => as.flatMap names⟩
instance [Naming α] [Naming β] : Naming (α × β) := ⟨fun ab => names ab.1 ++ names ab.2⟩
instance : Naming Expression := ⟨fun e => e.outline.identifiers⟩
instance : Naming WhenBranch :=
  ⟨fun branch => branch.condition.outline.identifiers ++ branch.result.outline.identifiers⟩
instance : Naming OrderItem := ⟨fun item => item.outline.identifiers⟩
instance : Naming Window := ⟨fun window => names window.partitionBy ++ names window.orderBy⟩
instance : Naming TableSource := ⟨fun source => source.outline.identifiers⟩
instance : Naming SelectItem := ⟨fun item => item.outline.identifiers⟩
instance : Naming Top := ⟨fun top => top.quantity.outline.identifiers⟩
instance : Naming CommonTable := ⟨fun table => table.outline.identifiers⟩
instance : Naming Query := ⟨fun query => query.outline.identifiers⟩

namespace Parser

/-- Where identifiers `before` were passed already, the parser passes those of its result in the
place of them; where it gives up, it has still passed all that were there earlier. -/
def Reads [Naming α] (before : List Identifier) (p : Parser α) : Prop :=
  ∀ origin ids, Triple (Passed origin (ids ++ before)) p
    (fun a => Passed origin (ids ++ names a)) (Passed origin ids)

/-- The parser moves on; its result, of any kind, is not counted among the names. -/
def Passes (p : Parser α) : Prop :=
  ∀ origin ids, Triple (Passed origin ids) p (fun _ => Passed origin ids) (Passed origin ids)

theorem Passes.bind {p : Parser α} {f : α → Parser β} (first : Passes p)
    (rest : ∀ a, Passes (f a)) : Passes (p >>= f) :=
  fun origin ids => (first origin ids).bind fun a => rest a origin ids

theorem Passes.pure {a : α} : Passes (pure a) := fun _ _ => .pure fun _ passed => passed

namespace Reads

variable [Naming α] [Naming β] {before : List Identifier}

theorem pure {a : α} (sublist : (names a).Sublist before) : Reads before (pure a) :=
  fun _ _ => .pure fun _ passed => passed.fewer (sublist.append_left _)

theorem giveUp : Reads before (giveUp : Parser α) :=
  fun _ _ => .giveUp fun _ passed => passed.fewer (List.sublist_append_left _ _)

theorem bind {p : Parser α} {f : α → Parser β} (first : Reads [] p)
    (rest : ∀ a, Reads (before ++ names a) (f a)) : Reads before (p >>= f) := by
  intro origin ids
  refine Triple.bind (Q := fun a => Passed origin (ids ++ (before ++ names a))) ?_
    fun a => rest a origin ids
  refine (first origin (ids ++ before)).weaken ?_ ?_ ?_
  · intro s passed
    simpa using passed
  · intro a s passed
    simpa using passed
  · intro s passed
    exact passed.fewer (List.sublist_append_left _ _)

theorem passes {p : Parser α} (reads : Reads [] p) : Passes p := by
  intro origin ids
  refine (reads origin ids).weaken ?_ ?_ (fun _ => id)
  · intro s passed
    simpa using passed
  · intro a s passed
    exact passed.fewer (List.sublist_append_left _ _)

theorem passOver {p : Parser γ} {f : γ → Parser β} (first : Passes p)
    (rest : ∀ c, Reads before (f c)) : Reads before (p >>= f) := by
  intro origin ids
  refine Triple.bind ?_ fun c => rest c origin ids
  refine (first origin (ids ++ before)).weaken (fun _ => id) (fun _ _ => id) ?_
  intro s passed
  exact passed.fewer (List.sublist_append_left _ _)

/-- What was passed before goes into the result of the first parser. -/
theorem handOn {p : Parser α} {f : α → Parser β} (first : Reads before p)
    (rest : ∀ a, Reads (names a) (f a)) : Reads before (p >>= f) :=
  fun origin ids => (first origin ids).bind fun a => rest a origin ids

theorem map {f : α → β} {p : Parser α} (reads : Reads [] p)
    (fewer : ∀ a, (names (f a)).Sublist (names a)) : Reads [] (f <$> p) := by
  rw [← bind_pure_comp]
  exact reads.bind fun a => pure (fewer a)

/-- What was passed before may be left out of the result. -/
theorem forget {p : Parser α} (reads : Reads [] p) : Reads before p := by
  intro origin ids
  refine (reads origin ids).weaken ?_ (fun _ _ => id) (fun _ => id)
  intro s passed
  exact passed.fewer ((List.nil_sublist _).append_left ids)

theorem ofOption {a? : Option α} (sublist : (names a?).Sublist before) :
    Reads before (ofOption a?) := by
  cases a? with
  | none => exact giveUp
  | some a => exact pure (by simpa [names] using sublist)

theorem attempt {p : Parser α} (reads : Reads [] p) : Reads [] (attempt p) := by
  intro origin ids
  refine Triple.attempt ((reads origin ids).weaken (fun _ => id) ?_ ?_)
  · intro a s passed
    simpa [names] using passed
  · intro s passed
    simpa [names] using passed

theorem onlyIf {condition : Bool} {p : Parser α} (reads : Reads [] p) :
    Reads [] (onlyIf condition p) := by
  cases condition with
  | false => exact pure (by simp [names])
  | true => exact reads.attempt

theorem requiredIf {condition : Bool} {p : Parser α} (reads : Reads [] p) :
    Reads [] (requiredIf condition p) := by
  cases condition with
  | false => exact pure (by simp [names])
  | true => exact reads.map fun a => by simp [names]

theorem look {f : Cursor → α} (nameless : ∀ c, names (f c) = []) : Reads [] (look f) := by
  intro origin ids
  refine .look fun s passed => ?_
  rwa [nameless]

theorem move {f : Cursor → Cursor} (forward : ∀ c, (f c).tokens <:+ c.tokens) :
    Reads [] (move f) :=
  fun _ _ => .move fun s passed => passed.move (forward s.cursor)

theorem accept {q : Token → Bool} : Reads [] (accept q) :=
  fun _ _ => .accept (fun s passed _ => passed.move (Cursor.advance_suffix s.cursor))
    (fun _ passed _ => passed)

theorem report {complaint : Complaint} : Reads [] (report complaint) :=
  fun _ _ => .report fun _ _ passed => passed.report

theorem iterate {step : β → Parser (β × Bool)} (round : ∀ b, Reads (names b) (step b)) (b : β) :
    Reads (names b) (iterate step b) := by
  intro origin ids
  refine Triple.iterate (I := fun b => Passed origin (ids ++ names b)) (fun b => ?_) b
  refine (round b origin ids).weaken (fun _ => id) ?_ (fun _ => id)
  intro r s passed
  simpa [names] using passed

theorem collect {step : Parser (Option α × Bool)} (round : Reads [] step) :
    Reads [] (collect step) := by
  intro origin ids
  have rounds : Triple _ (Parser.collect step) _ _ := Triple.collect (E := Passed origin ids)
    (I := fun as => Passed origin (ids ++ names as)) (fun as => ?_) []
  · simpa [names] using rounds
  · refine (round origin (ids ++ names as)).weaken ?_ ?_ ?_
    · intro s passed
      simpa using passed
    · intro r s passed
      simpa [names] using passed
    · intro s passed
      exact passed.fewer (List.sublist_append_left _ _)

theorem chainRight {operand : Parser α} {operator : Parser (Option ω)} [Naming ω]
    {join : α → ω → α → α} (operands : Reads [] operand) (operators : Reads [] operator)
    (joins : ∀ a op b, (names (join a op b)).Sublist (names a ++ names b)) :
    Reads [] (chainRight operand operator join) := by
  intro origin ids
  have chain : Triple _ (Parser.chainRight operand operator join) _ _ := Triple.chainRight
    (I := Passed origin) (f := fun ids a => ids ++ names a) (fun ids => ?_) (fun ids => ?_)
    (fun ids a op b s passed => ?_) ids
  · simpa using chain
  · simpa using operands origin ids
  · exact operators.passes origin ids
  · exact passed.fewer (by simpa using (joins a op b).append_left ids)

theorem chainLeft {operand : Parser α} {operator : Parser (Option ω)} [Naming ω]
    {join : ω → α → α → α} (operands : Reads [] operand) (operators : Reads [] operator)
    (joins : ∀ op a b, (names (join op a b)).Sublist (names a ++ names b)) :
    Reads [] (chainLeft operand operator join) := by
  intro origin ids
  have chain : Triple _ (Parser.chainLeft operand operator join) _ _ := Triple.chainLeft
    (I := Passed origin) (f := fun ids a => ids ++ names a) (fun ids => ?_) (fun ids => ?_)
    (fun ids op a b s passed => ?_) (fun ids a s passed => ?_) ids
  · simpa using chain
  · simpa using operands origin ids
  · exact operators.passes origin ids
  · exact passed.fewer (by simpa using (joins op a b).append_left ids)
  · exact passed.fewer (List.sublist_append_left _ _)

end Reads

end Parser

end Grammar

end QueryNames
