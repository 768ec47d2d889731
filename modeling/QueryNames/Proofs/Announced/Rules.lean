import QueryNames.Proofs.Announced.Wake
import QueryNames.Proofs.Depth.Query
import QueryNames.Proofs.Grammar.Absent
import QueryNames.Proofs.Reading.Rules
import QueryNames.Proofs.Stepwise.Query

/-!
Parsers that read no announced name. Main statements: the rules by which a parser that begins at a
token that was not announced reads no other name, and comes to another token of that sort, or to one
of any sort.
-/

namespace QueryNames

/-- The identifier is that of a token that was not announced. -/
def Unannounced (tokens : List Token) (i : Identifier) : Prop :=
  ∃ front t behind, tokens = front ++ t :: behind ∧ t.kind = .identifier ∧
    (Wake.of front).takes t = false ∧ i = .ofToken t

def TokenKind.announces : TokenKind → Bool
  | .keyword k => k.announces
  | _ => false

namespace Grammar

variable {all seen : List Token}

/-- Neither a word that announces a name nor an end of input. -/
class Silent (t : Token) : Prop where
  announces : t.announces = false
  isEnd : t.isEnd = false

/-- Neither a name nor a period. -/
class NoName (t : Token) : Prop where
  identifier : t.kind ≠ .identifier
  period : t.kind ≠ .punctuation .period

/-- Only silent tokens pass the test. -/
class OnlySilent (q : Token → Bool) : Prop where
  silent (t : Token) : q t = true → Silent t

/-- No name and no period passes the test. -/
class NeverNames (q : Token → Bool) : Prop where
  noName (t : Token) : q t = true → NoName t

instance (t : { t : Token // Silent t }) : Silent t.val := t.property

theorem Silent.of_kind {t : Token} {k : TokenKind} (is : t.kind = k)
    (silent : k.announces = false) (goesOn : k ≠ .endOfInput) : Silent t := by
  subst is
  constructor
  · unfold Token.announces
    unfold TokenKind.announces at silent
    exact silent
  · simp [Token.isEnd, goesOn]

instance (k : Keyword) [unset : Unset k.announces] : OnlySilent (·.isKeyword k) where
  silent t is := by
    have kind : t.kind = .keyword k := Token.isKeyword_iff.1 is
    exact .of_kind kind unset.eq (by simp)

instance (p : Punctuation) : OnlySilent (·.isPunctuation p) where
  silent t is := by
    have kind : t.kind = .punctuation p := Token.isPunctuation_iff.1 is
    exact .of_kind kind rfl (by simp)

instance (word : String) : OnlySilent (·.isWord word) where
  silent _ is := .of_kind (Parser.KeepsFrom.kind_of_isWord is) rfl (by decide)

instance (q r : Token → Bool) [OnlySilent q] [OnlySilent r] : OnlySilent fun t => q t || r t where
  silent t is := (Bool.or_eq_true_iff.1 is).elim (OnlySilent.silent t) (OnlySilent.silent t)

instance (q r : Token → Bool) [OnlySilent q] : OnlySilent fun t => q t && r t where
  silent t is := OnlySilent.silent t (Bool.and_eq_true_iff.1 is).1

instance (k : Keyword) : NeverNames (·.isKeyword k) where
  noName t is := by
    have kind : t.kind = .keyword k := Token.isKeyword_iff.1 is
    constructor <;> simp [kind]

theorem neverNames_punctuation {p : Punctuation} (other : p ≠ .period) :
    NeverNames (·.isPunctuation p) where
  noName t is := by
    have kind : t.kind = .punctuation p := Token.isPunctuation_iff.1 is
    constructor <;> simp [kind, other]

instance : NeverNames (·.isPunctuation .comma) := neverNames_punctuation nofun

instance : NeverNames (·.isPunctuation .semicolon) := neverNames_punctuation nofun

instance : NeverNames (·.isPunctuation .leftParen) := neverNames_punctuation nofun

instance : NeverNames (·.isPunctuation .rightParen) := neverNames_punctuation nofun

instance (q r : Token → Bool) [NeverNames q] [NeverNames r] :
    NeverNames fun t => q t || r t where
  noName t is := (Bool.or_eq_true_iff.1 is).elim (NeverNames.noName t) (NeverNames.noName t)

instance (q r : Token → Bool) [NeverNames q] : NeverNames fun t => q t && r t where
  noName t is := NeverNames.noName t (Bool.and_eq_true_iff.1 is).1

instance : NeverNames fun _ => false := ⟨nofun⟩

instance : NeverNames endsClause where
  noName t ends := by
    constructor <;> intro kind <;> simp [endsClause, kind] at ends

instance : NeverNames endsItem :=
  inferInstanceAs (NeverNames fun t => t.isPunctuation .comma || endsClause t)

instance : NeverNames endsTable where
  noName t ends := by
    rcases Bool.or_eq_true_iff.1 ends with ends | ends
    · exact NeverNames.noName t ends
    · constructor <;> intro kind <;> simp [kind] at ends

/-! Places. -/

/-- Somewhere among the tokens. -/
structure Among (all : List Token) (c : Cursor) : Prop where
  closed : Closed all
  suffix : c.tokens <:+ all

/-- At a token of which the scan has come to know that it was not announced. -/
structure Free (all : List Token) (c : Cursor) : Prop where
  closed : Closed all
  untaken : ∃ front, front ++ c.tokens = all ∧ (Wake.of front).takes c.current = false

theorem lasting_among : Lasting fun s => Among all s.cursor where
  onward among onward := ⟨among.closed, onward.trans among.suffix⟩
  complained {s} complaint among := by
    unfold Parser.report
    dsimp only
    split <;> exact among

namespace Among

variable {c : Cursor}

theorem inside (among : Among all c) : Closed c.tokens :=
  among.closed.of_suffix among.suffix c.tokens_ne_nil

/-- Whatever was announced, it goes on with names and periods only. -/
theorem free (among : Among all c) [noName : NoName c.current] : Free all c := by
  obtain ⟨front, split⟩ := among.suffix
  exact ⟨among.closed, front, split, Wake.takes_eq_false noName.identifier noName.period⟩

theorem skipUntil (among : Among all c) (stop : Token → Bool) [never : NeverNames stop] :
    Free all (c.skipUntil stop) := by
  have skipped : Among all (c.skipUntil stop) :=
    ⟨among.closed, (Cursor.skipUntil_suffix stop c).trans among.suffix⟩
  have noName : NoName (c.skipUntil stop).current := by
    unfold Cursor.skipUntil
    rcases Cursor.skipFrom_halts stop 0 among.inside with ends | closes | stops
    · constructor <;> simp [Token.isEnd_iff.1 ends]
    · exact NeverNames.noName (q := (·.isPunctuation .rightParen)) _ closes
    · exact never.noName _ stops
  exact skipped.free

end Among

namespace Free

variable {c : Cursor}

theorem among (free : Free all c) : Among all c := by
  obtain ⟨closed, front, split, -⟩ := free
  exact ⟨closed, front, split⟩

theorem pass (free : Free all c) [silent : Silent c.current] : Free all c.advance := by
  have step := Cursor.tokens_advance free.among.inside silent.isEnd
  obtain ⟨closed, front, split, untaken⟩ := free
  refine ⟨closed, front ++ [c.current], ?_, ?_⟩
  · rw [List.append_assoc, List.singleton_append, ← step, split]
  · rw [Wake.of_concat, Wake.after_silent untaken silent.announces]
    rfl

theorem unannounced (free : Free all c) (kind : c.current.kind = .identifier) :
    Unannounced all (.ofToken c.current) := by
  obtain ⟨-, front, split, untaken⟩ := free
  exact ⟨front, c.current, c.ahead, split.symm, kind, untaken, rfl⟩

theorem skipParenthesized (free : Free all c) : Free all c.skipParenthesized := by
  simp only [Cursor.skipParenthesized]
  split
  · rename_i opens
    have : Silent c.current := OnlySilent.silent (q := (·.isPunctuation .leftParen)) _ opens
    have skipped : Free all c.advance.skipGroup := free.pass.among.skipUntil fun _ => false
    split
    · rename_i closes
      have : Silent c.advance.skipGroup.current :=
        OnlySilent.silent (q := (·.isPunctuation .rightParen)) _ closes
      exact skipped.pass
    · exact skipped
  · exact free

end Free

inductive Place where
  | free
  | anywhere

def Place.Holds (all : List Token) : Place → State → Prop
  | .free, s => Free all s.cursor
  | .anywhere, s => Among all s.cursor

/-- What is known at a place of the one sort is known at one of the other. -/
class Place.Within (place wider : Place) : Prop where
  holds {all : List Token} {s : State} : place.Holds all s → wider.Holds all s

theorem Place.Holds.among {place : Place} {s : State} (holds : place.Holds all s) :
    Among all s.cursor := by
  cases place with
  | free => exact Free.among holds
  | anywhere => exact holds

theorem Place.Holds.of_free {place : Place} {s : State} (free : Free all s.cursor) :
    place.Holds all s := by
  cases place with
  | free => exact free
  | anywhere => exact free.among

instance (place : Place) : place.Within place := ⟨id⟩

instance (place : Place) : Place.free.Within place := ⟨Place.Holds.of_free⟩

/-- The result names nothing that was announced. -/
class Spared (all : List Token) {α : Type} [Naming α] (a : α) : Prop where
  each : ∀ i ∈ names a, Unannounced all i

/-- Results of this type name nothing. -/
class Nameless (α : Type) [Naming α] : Prop where
  names_eq (a : α) : names a = []

instance (priority := low) [Naming α] [nameless : Nameless α] (a : α) : Spared all a where
  each := by simp [nameless.names_eq]

instance [Naming α] (a : { a : α // Spared all a }) : Spared all a.val := a.property

instance : Nameless Bool := ⟨fun _ => rfl⟩
instance : Nameless Unit := ⟨fun _ => rfl⟩
instance : Nameless String := ⟨fun _ => rfl⟩
instance : Nameless BinaryOperator := ⟨fun _ => rfl⟩
instance : Nameless UnaryOperator := ⟨fun _ => rfl⟩
instance : Nameless SetOperator := ⟨fun _ => rfl⟩

instance [Naming α] [nameless : Nameless α] : Nameless (Option α) where
  names_eq a? := by cases a? <;> simp [names, nameless.names_eq]

section Spared

variable [Naming α] [Naming β]

instance : Spared all (none : Option α) := ⟨by simp [names]⟩

instance (a : α) [spared : Spared all a] : Spared all (some a) where
  each := by simpa [names] using spared.each

theorem Spared.of_some {a : α} (spared : Spared all (some a)) : Spared all a where
  each := by simpa [names] using spared.each

instance : Spared all ([] : List α) := ⟨by simp [names]⟩

instance (a : α) (b : β) [left : Spared all a] [right : Spared all b] : Spared all (a, b) where
  each := by simpa [names, or_imp, forall_and] using And.intro left.each right.each

theorem Spared.fst {ab : α × β} (spared : Spared all ab) : Spared all ab.1 where
  each i member := spared.each i (by simp [names, member])

instance (ab : { ab : α × β // Spared all ab }) : Spared all ab.val.1 := ab.property.fst

instance (ab : { ab : α × β // Spared all ab }) : Spared all ab.val.2 where
  each i member := ab.property.each i (by simp [names, member])

theorem Spared.append {as bs : List α} (left : Spared all as) (right : Spared all bs) :
    Spared all (as ++ bs) where
  each := by
    have both := And.intro left.each right.each
    simp only [names, List.flatMap_append, List.mem_append, or_imp, forall_and] at both ⊢
    exact both

theorem Spared.toList {a? : Option α} (spared : Spared all a?) : Spared all a?.toList where
  each := by simpa [names] using spared.each

instance (a? : Option α) (a : α) [found : Spared all a?] [default : Spared all a] :
    Spared all (a?.getD a) := by
  cases a? with
  | none => exact default
  | some b => exact found.of_some

instance (f : α → β) : Spared all (Option.map f none) := inferInstanceAs (Spared all none)

instance (f : α → β) (a : α) [Spared all (f a)] : Spared all (Option.map f (some a)) :=
  inferInstanceAs (Spared all (some (f a)))

end Spared

namespace Parser

/-- From a place of one sort, with the tokens ahead that have been seen, the parser comes to one of
another sort, also where it gives up, and its result names nothing that was announced. -/
class Spares (all seen : List Token) (start : Place) (stop : outParam Place) [Naming α]
    (p : Parser α) : Prop where
  runs : Triple (fun s => start.Holds all s ∧ Seen seen s.cursor) p
    (fun a s => Spared all a ∧ stop.Holds all s) (stop.Holds all)

theorem passes_among (p : Parser α) [Stepwise p] :
    Triple (fun s => Among all s.cursor) p (fun _ s => Among all s.cursor)
      (fun s => Among all s.cursor) := by
  intro s start
  rcases run : p s with ⟨_ | a, s'⟩
  · exact Stepwise.of_run lasting_among start run
  · exact Stepwise.of_run lasting_among start run

namespace Spares

variable [Naming α] [Naming β] {place stop between : Place}

/-- Less is known of where the parser stops. -/
theorem loosen {p : Parser α} (spares : Spares all seen place stop p) :
    Spares all seen place .anywhere p where
  runs := spares.runs.weaken (fun _ => id) (fun _ _ found => ⟨found.1, found.2.among⟩)
    (fun _ => Place.Holds.among)

theorem of_among {p : Parser α} (spares : Spares all [] .anywhere stop p) :
    Spares all [] place stop p where
  runs := spares.runs.weaken (fun _ start => ⟨start.1.among, trivial⟩) (fun _ _ => id) (fun _ => id)

theorem behind {p : Parser α} (spares : Spares all [] place stop p) :
    Triple (place.Holds all) p (fun a s => Spared all a ∧ stop.Holds all s) (stop.Holds all) :=
  spares.runs.weaken (fun _ start => ⟨start, trivial⟩) (fun _ _ => id) (fun _ => id)

instance (priority := low) weaken (t : Token) (p : Parser α) [spares : Spares all [] place stop p] :
    Spares all (t :: seen) place stop p where
  runs := spares.runs.weaken (fun _ start => ⟨start.1, trivial⟩) (fun _ _ => id) (fun _ => id)

instance (priority := low) truncate (t u : Token) (p : Parser α)
    [spares : Spares all [t] place stop p] : Spares all (t :: u :: seen) place stop p where
  runs := spares.runs.weaken (fun _ start => ⟨start.1, start.2.1, fun _ => trivial⟩) (fun _ _ => id)
    (fun _ => id)

/-- What reads no names may pass anything. -/
instance (priority := low) anywhere [Nameless α] (p : Parser α) [Stepwise p] :
    Spares all [] .anywhere .anywhere p where
  runs := (passes_among p).weaken (fun _ => And.left) (fun _ _ among => ⟨inferInstance, among⟩)
    (fun _ => id)

/-- At a token that is neither a name nor a period nothing announced goes on. -/
theorem settle {t : Token} [noName : NoName t] {p : Parser α}
    (spares : Spares all (t :: seen) .free stop p) : Spares all (t :: seen) .anywhere stop p where
  runs := by
    rintro s ⟨among, rfl, ahead⟩
    exact spares.runs s ⟨Among.free among, rfl, ahead⟩

instance (a : α) [spared : Spared all a] : Spares all seen place place (pure a) where
  runs := .pure fun _ start => ⟨spared, start.1⟩

instance : Spares all seen place place (giveUp : Parser α) where
  runs := .giveUp fun _ => And.left

instance (a? : Option α) [spared : Spared all a?] : Spares all seen place place (ofOption a?) := by
  cases a? with
  | none => exact inferInstanceAs (Spares all seen place place giveUp)
  | some a =>
      have := spared.of_some
      exact inferInstanceAs (Spares all seen place place (pure a))

/-- Where the first parser gives up, it may be known less of the place than behind both. -/
instance bind (p : Parser α) (f : α → Parser β) [first : Spares all seen place between p]
    [rest : ∀ a : { a : α // Spared all a }, Spares all [] between stop (f a.val)]
    [within : between.Within stop] : Spares all seen place stop (p >>= f) where
  runs := by
    refine Triple.bind (first.runs.weaken (fun _ => id) (fun _ _ => id) fun _ => within.holds) ?_
    rintro a s ⟨spared, holds⟩
    exact (rest ⟨a, spared⟩).behind s holds

instance bindTotal (p : Parser α) [Total p] (f : α → Parser β)
    [first : Spares all seen place between p]
    [rest : ∀ a : { a : α // Spared all a }, Spares all [] between stop (f a.val)] :
    Spares all seen place stop (p >>= f) where
  runs := by
    refine Triple.bind (Total.triple first.runs) ?_
    rintro a s ⟨spared, holds⟩
    exact (rest ⟨a, spared⟩).behind s holds

/-- The same, for what follows by cases on the result. -/
theorem next {p : Parser α} {f : α → Parser β} [Spares all seen place between p]
    [between.Within stop] (rest : ∀ a, Spared all a → Spares all [] between stop (f a)) :
    Spares all seen place stop (p >>= f) :=
  have (a : { a : α // Spared all a }) := rest a.val a.property
  bind p f

/-- What is found need not be spared where its names are not used. -/
theorem passing {p : Parser γ} [Stepwise p] [Total p] {f : γ → Parser β}
    (rest : ∀ c, Spares all [] .anywhere stop (f c)) : Spares all [] place stop (p >>= f) where
  runs := by
    refine Triple.bind (Q := fun _ s => Among all s.cursor) ?_ fun c => (rest c).behind
    exact Total.triple ((passes_among p).weaken (fun _ start => start.1.among) (fun _ _ => id)
      (fun _ => id))

instance (p : Parser α) [spares : Spares all seen place stop p] :
    Spares all seen place stop (attempt p) where
  runs := .attempt (spares.runs.weaken (fun _ => id)
    (fun _ _ found => ⟨have := found.1; inferInstance, found.2⟩)
    (fun _ fails => ⟨inferInstance, fails⟩))

/-- What follows may go by cases on whether something was found. -/
instance (priority := high) attemptBind (p : Parser α) (f : Option α → Parser β)
    [first : Spares all seen place between p] [nothing : Spares all [] between stop (f none)]
    [something : ∀ a : { a : α // Spared all a }, Spares all [] between stop (f (some a.val))] :
    Spares all seen place stop (attempt p >>= f) where
  runs := by
    intro s start
    rw [bind_apply, attempt]
    rcases run : p s with ⟨_ | a, s'⟩
    · exact nothing.behind s' (first.runs.of_none start run)
    · obtain ⟨spared, holds⟩ := first.runs.of_result start run
      exact (something ⟨a, spared⟩).behind s' holds

instance (condition : Prop) [Decidable condition] (p q : Parser α)
    [Spares all seen place stop p] [Spares all seen place stop q] :
    Spares all seen place stop (if condition then p else q) := by
  split <;> infer_instance

instance (p q : Parser α) [Spares all seen place stop p] :
    Spares all seen place stop (if true = true then p else q) :=
  inferInstanceAs (Spares all seen place stop p)

instance (p q : Parser α) [Spares all seen place stop q] :
    Spares all seen place stop (if false = true then p else q) :=
  inferInstanceAs (Spares all seen place stop q)

instance (condition : Bool) (p : Parser α) [spares : Spares all seen .free stop p] :
    Spares all seen .free stop (onlyIf condition p) := by
  cases condition with
  | true => exact inferInstanceAs (Spares all seen .free stop (attempt p))
  | false => exact ⟨.pure fun _ start => ⟨inferInstance, Place.Within.holds start.1⟩⟩

instance (p : Parser α) : Spares all seen place place (onlyIf false p) :=
  inferInstanceAs (Spares all seen place place (pure none))

instance (condition : Bool) (p : Parser α) [Spares all seen .free .free p] :
    Spares all seen .free .free (requiredIf condition p) := by
  have some_ : Spares all seen .free .free (some <$> p) := bind p fun a => pure (some a)
  unfold requiredIf
  infer_instance

/-! Looking. -/

/-- What is seen is known until the cursor moves. -/
theorem looking {f : Cursor → γ} {g : γ → Parser β} (known : γ → List Token)
    (found : ∀ c, Seen seen c → Seen (known (f c)) c)
    (rest : ∀ c, Spares all (known c) place stop (g c)) :
    Spares all seen place stop (look f >>= g) where
  runs := fun s start => (rest (f s.cursor)).runs s ⟨start.1, found s.cursor start.2⟩

instance look (f : Cursor → γ) (g : γ → Parser β) [rest : ∀ c, Spares all seen place stop (g c)] :
    Spares all seen place stop (look f >>= g) :=
  looking (fun _ => seen) (fun _ => id) rest

instance place_ (g : Location → Parser β) [rest : ∀ c, Spares all seen place stop (g c)] :
    Spares all seen place stop (Parser.place >>= g) := look _ g

/-- The same, for what follows by cases on the token. -/
theorem token {g : Token → Parser β} (rest : ∀ t, Spares all [t] place stop (g t)) :
    Spares all [] place stop (current >>= g) :=
  looking (fun t => [t]) (fun _ _ => ⟨rfl, fun _ => trivial⟩) rest

instance (g : Token → Parser β) [rest : ∀ t, Spares all seen place stop (g t)] :
    Spares all seen place stop (current >>= g) := look _ g

/-- The same, for what follows by cases on the two tokens. -/
theorem following {t : Token} {g : Token → Parser β}
    (rest : ∀ u, Spares all [t, u] place stop (g u)) :
    Spares all [t] place stop (peek 1 >>= g) where
  runs := by
    rintro s ⟨holds, rfl, -⟩
    exact (rest _).runs s ⟨holds, seen_peek s.cursor⟩

instance (t : Token) (g : Token → Parser β) [rest : ∀ u, Spares all [t, u] place stop (g u)] :
    Spares all [t] place stop (peek 1 >>= g) := following rest

instance peek (g : Token → Parser β) [rest : ∀ t u, Spares all [t, u] place stop (g u)] :
    Spares all [] place stop (peek 1 >>= g) where
  runs s start := (rest s.cursor.current _).runs s ⟨start.1, seen_peek s.cursor⟩

/-- What is seen may tell the current token. -/
theorem telling {f : Cursor → Bool} {g : Bool → Parser β}
    (tells : ∀ c, f c = true → Silent c.current)
    (yes : ∀ t : { t : Token // Silent t }, Spares all [t.val] place stop (g true))
    (no : Spares all seen place stop (g false)) :
    Spares all seen place stop (Parser.look f >>= g) where
  runs s start := by
    rw [bind_apply]
    dsimp only [Parser.look]
    cases found : f s.cursor with
    | false => exact no.runs s start
    | true => exact (yes ⟨_, tells _ found⟩).runs s ⟨start.1, rfl, fun _ => trivial⟩

instance (priority := low) (q : Token → Bool) (g : Bool → Parser β)
    [rest : ∀ b, Spares all seen place stop (g b)] : Spares all seen place stop (check q >>= g) :=
  look _ g

instance check (q : Token → Bool) [OnlySilent q] (g : Bool → Parser β)
    [yes : ∀ t : { t : Token // Silent t }, Spares all [t.val] place stop (g true)]
    [no : Spares all seen place stop (g false)] : Spares all seen place stop (check q >>= g) :=
  telling (fun _ found => OnlySilent.silent _ found) yes no

theorem silent_of_opening {t : Token} (opens : t.isPunctuation .leftParen = true) : Silent t :=
  OnlySilent.silent (q := (·.isPunctuation .leftParen)) t opens

instance opensQuery (g : Bool → Parser β)
    [yes : ∀ t : { t : Token // Silent t }, Spares all [t.val] place stop (g true)]
    [no : Spares all seen place stop (g false)] :
    Spares all seen place stop (Parser.look Cursor.opensQuery >>= g) :=
  telling (fun _ opens => silent_of_opening (Bool.and_eq_true_iff.1 opens).1) yes no

instance opensQueryDeep (g : Bool → Parser β)
    [yes : ∀ t : { t : Token // Silent t }, Spares all [t.val] place stop (g true)]
    [no : Spares all seen place stop (g false)] :
    Spares all seen place stop (Parser.look Cursor.opensQueryDeep >>= g) :=
  telling (fun _ opens => silent_of_opening (Bool.and_eq_true_iff.1 opens).1) yes no

/-! Moving. -/

instance (t : Token) [silent : Silent t] : Spares all (t :: seen) .free .free advance where
  runs := by
    rintro s ⟨free, rfl, -⟩
    exact ⟨inferInstance, Free.pass free⟩

instance advance (t : Token) [silent : Silent t] (f : Unit → Parser β)
    [rest : Spares all seen .free stop (f ())] :
    Spares all (t :: seen) .free stop (advance >>= f) where
  runs := by
    rintro s ⟨free, rfl, ahead⟩
    exact rest.runs { s with cursor := s.cursor.advance } ⟨Free.pass free, ahead silent.isEnd⟩

/-- What is known ahead of a token that is not accepted stays known. -/
instance accept (t : Token) (q : Token → Bool) [only : OnlySilent q] (f : Bool → Parser β)
    [yes : Spares all seen .free stop (f true)] [no : Spares all (t :: seen) .free stop (f false)] :
    Spares all (t :: seen) .free stop (accept q >>= f) where
  runs := by
    rintro s ⟨free, rfl, ahead⟩
    rw [bind_apply, Parser.accept]
    cases found : q s.cursor.current with
    | false => exact no.runs s ⟨free, rfl, ahead⟩
    | true =>
        have silent := only.silent _ found
        exact yes.runs { s with cursor := s.cursor.advance } ⟨Free.pass free, ahead silent.isEnd⟩

instance (q : Token → Bool) [only : OnlySilent q] :
    Spares all [] .free .free (Parser.accept q) where
  runs := .accept
    (fun _ start found => have := only.silent _ found; ⟨inferInstance, Free.pass start.1⟩)
    (fun _ start _ => ⟨inferInstance, start.1⟩)

instance (complaint : Complaint) : Spares all seen place place (report complaint) where
  runs := .report fun s reported start _ => ⟨inferInstance, by cases place <;> exact start.1⟩

instance (stop : Token → Bool) [NeverNames stop] :
    Spares all [] place .free (skipUntil stop) where
  runs := .move fun _ start => ⟨inferInstance, start.1.among.skipUntil stop⟩

instance : Spares all [] place .free skipGroup :=
  inferInstanceAs (Spares all [] place .free (skipUntil fun _ => false))

instance : Spares all [] .free .free skipParenthesized where
  runs := .move fun _ start => ⟨inferInstance, Free.skipParenthesized start.1⟩

/-! Words, signs and complaints. -/

instance (k : Keyword) [OnlySilent (·.isKeyword k)] : Spares all [] .free .free (acceptKeyword k) :=
  inferInstanceAs (Spares all [] .free .free (Parser.accept _))

instance (t : Token) (k : Keyword) [OnlySilent (·.isKeyword k)] (f : Bool → Parser β)
    [Spares all seen .free stop (f true)] [Spares all (t :: seen) .free stop (f false)] :
    Spares all (t :: seen) .free stop (acceptKeyword k >>= f) := accept t _ f

instance (p : Punctuation) : Spares all [] .free .free (acceptPunctuation p) :=
  inferInstanceAs (Spares all [] .free .free (Parser.accept _))

instance (word : String) : Spares all [] .free .free (acceptWord word) :=
  inferInstanceAs (Spares all [] .free .free (Parser.accept _))

instance (expected : Expected) : Spares all seen place place (reportMissing expected) := by
  unfold reportMissing
  infer_instance

instance (expected : Expected) : Spares all seen place place (reportSurplus expected) := by
  unfold reportSurplus
  infer_instance

instance (expected : Expected) : Spares all seen place place (missing expected : Parser α) := by
  unfold missing
  infer_instance

instance (ends : Token → Bool) [NeverNames ends] :
    Spares all [] place .free (tooDeep ends : Parser α) := by
  unfold tooDeep
  infer_instance

instance (k : Keyword) [OnlySilent (·.isKeyword k)] :
    Spares all [] .free .free (requireKeyword k) := by
  unfold requireKeyword
  infer_instance

instance (p : Punctuation) : Spares all [] .free .free (requirePunctuation p) := by
  unfold requirePunctuation
  infer_instance

instance (p : Parser Unit) [Spares all seen .free .free p] :
    Spares all seen .free .free (succeeds p) := by
  unfold succeeds
  infer_instance

/-! Recovery. Wherever it begins, it ends at a token that was not announced. -/

/-- A sign that is found is not announced, nor is what stands behind it. -/
theorem acceptNoName (place : Place) {q : Token → Bool} [only : OnlySilent q]
    [never : NeverNames q] : Triple (place.Holds all) (Parser.accept q)
      (fun found s => if found = true then Free all s.cursor else place.Holds all s)
      (fun s => Among all s.cursor) := by
  refine .accept (fun s start found => ?_) (fun s start _ => start)
  have := only.silent _ found
  have := never.noName _ found
  exact start.among.free.pass

/-- Behind a sign that is required nothing was announced; without it the place stays. -/
theorem require_among {q : Token → Bool} [OnlySilent q] [NeverNames q] {expected : Expected} :
    Triple (fun s => Among all s.cursor)
      (do if ← Parser.accept q then pure () else missing expected)
      (fun _ s => Free all s.cursor) (fun s => Among all s.cursor) := by
  refine Triple.bind (acceptNoName .anywhere) ?_
  rintro (_ | _)
  · exact (passes_among (reportMissing expected)).bind fun _ => .giveUp fun _ => id
  · exact .pure fun _ => id

instance : Spares all [] place .free closeParen where
  runs := by
    have rest : Spares all [] place .free (do
        reportMissing (.punctuation .rightParen)
        skipGroup
        let _ ← acceptPunctuation .rightParen) := inferInstance
    refine Total.triple (Triple.bind ((acceptNoName place).weaken (fun _ => And.left)
      (fun _ _ => id) (fun _ => id)) ?_)
    rintro (_ | _)
    · exact rest.behind.weaken (fun _ => id) (fun _ _ => id) (fun _ => Free.among)
    · exact .pure fun _ free => ⟨inferInstance, free⟩

instance (ends : Token → Bool) [NeverNames ends] (parsed : Bool) :
    Spares all [] place .free (finishItem ends parsed) := by
  unfold finishItem
  cases place <;> infer_instance

instance (parsed : Bool) : Spares all [] place .free (finishClause parsed) := by
  unfold finishClause
  cases place <;> infer_instance

/-- Behind a comma nothing was announced, wherever else the item may end. -/
theorem finishItem_among (ends : Token → Bool) (parsed : Bool) :
    Triple (fun s => Among all s.cursor) (finishItem ends parsed)
      (fun more s => if more = true then Free all s.cursor else Among all s.cursor)
      (fun s => Among all s.cursor) :=
  .bind (passes_among _) fun _ => .bind (passes_among _) fun _ => .bind (passes_among _) fun _ =>
    acceptNoName .anywhere

/-! Repetition. -/

instance (step : β → Parser (β × Bool)) (b : β) [spared : Spared all b]
    [round : ∀ b : { b : β // Spared all b }, Spares all [] place place (step b.val)] :
    Spares all [] place place (iterate step b) where
  runs := by
    have rounds : Triple (fun s => Spared all b ∧ place.Holds all s) (iterate step b)
        (fun b s => Spared all b ∧ place.Holds all s) (place.Holds all) :=
      .iterate (I := fun b s => Spared all b ∧ place.Holds all s) (fun b => ?_) b
    · exact rounds.weaken (fun _ start => ⟨spared, start.1⟩) (fun _ _ => id) (fun _ => id)
    · rintro s ⟨spared, start⟩
      exact ((round ⟨b, spared⟩).behind.weaken (fun _ => id)
        (fun _ _ found => ⟨found.1.fst, found.2⟩) (fun _ => id)) s start

/-- The rounds that go on come back to where the first begins; the last one may end elsewhere. -/
theorem collecting {step : Parser (Option α × Bool)} [place.Within stop]
    (round : Triple (place.Holds all) step
      (fun r s => Spared all r.1 ∧ if r.2 = true then place.Holds all s else stop.Holds all s)
      (stop.Holds all)) : Spares all [] place stop (collect step) where
  runs := by
    intro s start
    rcases start with ⟨start, -⟩
    fun_induction Parser.collect step s with
    | case1 s s' run => exact round.of_none start run
    | case2 s a? more s' run goesOn s'' last ih =>
        have found := round.of_result start run
        simp only [goesOn.1, if_true] at found
        have ends := ih found.2
        rwa [last] at ends
    | case3 s a? more s' run goesOn as s'' last ih =>
        have found := round.of_result start run
        simp only [goesOn.1, if_true] at found
        have ends := ih found.2
        rw [last] at ends
        exact ⟨found.1.toList.append ends.1, ends.2⟩
    | case4 s a? more s' run stops =>
        have found := round.of_result start run
        refine ⟨found.1.toList, ?_⟩
        cases more with
        | true => exact Place.Within.holds found.2
        | false => exact found.2

instance (step : Parser (Option α × Bool)) [round : Spares all [] place place step] :
    Spares all [] place place (collect step) := by
  refine collecting (round.behind.weaken (fun _ => id) (fun r s found => ?_) (fun _ => id))
  exact ⟨found.1.fst, by split <;> exact found.2⟩

instance (ends : Token → Bool) [NeverNames ends] (item : Parser α)
    [Spares all [] .free stop item] : Spares all [] .free .free (commaList ends item) := by
  unfold commaList
  infer_instance

/-- Between two operands nothing stands but an operator. -/
instance (operand : Parser α) (operator : Parser (Option ω)) [Naming ω] (join : ω → α → α → α)
    [Spares all [] place place operand] [Spares all [] place place operator]
    [∀ op (a b : { a : α // Spared all a }), Spared all (join op a.val b.val)] :
    Spares all [] place place (chainLeft operand operator join) := by
  have round (left : { a : α // Spared all a }) :
      Spares all [] place place (chainRound operand operator join left.val) := by
    apply next
    intro op? _
    cases op? <;> infer_instance
  rw [chainLeft_eq]
  infer_instance

instance (operand : Parser α) (operator : Parser (Option ω)) [Naming ω] (join : α → ω → α → α)
    [first : Spares all [] place place operand] [between : Spares all [] place place operator]
    [joined : ∀ op (a b : { a : α // Spared all a }), Spared all (join a.val op b.val)] :
    Spares all [] place place (chainRight operand operator join) where
  runs := by
    rintro s ⟨start, -⟩
    fun_induction Parser.chainRight operand operator join s with
    | case1 s s' run => exact first.behind.of_none start run
    | case2 s a s' run op s'' gap _ b s''' last ih =>
        have left := first.behind.of_result start run
        have ends := ih (between.behind.of_result left.2 gap).2
        rw [last] at ends
        exact ⟨joined op ⟨a, left.1⟩ ⟨b, ends.1⟩, ends.2⟩
    | case3 s a s' run op s'' gap _ s''' last ih =>
        have left := first.behind.of_result start run
        have ends := ih (between.behind.of_result left.2 gap).2
        rw [last] at ends
        exact ⟨left.1, ends⟩
    | case4 s a s' run op s'' gap _ =>
        have left := first.behind.of_result start run
        exact ⟨left.1, (between.behind.of_result left.2 gap).2⟩
    | case5 s a s' run op? s'' _ gap =>
        have left := first.behind.of_result start run
        refine ⟨left.1, ?_⟩
        cases op? with
        | none => exact between.behind.of_none left.2 gap
        | some op => exact (between.behind.of_result left.2 gap).2

end Spares

end Parser

end Grammar

end QueryNames
