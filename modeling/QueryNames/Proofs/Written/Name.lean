import QueryNames.Batch
import QueryNames.Proofs.Grammar.Part
import QueryNames.Proofs.Written.Rules

/-!
Names as they are written. Main statement: a dotted name whose parts are delimited is read as those
parts. Whatever stands between its quotes, a delimited part is no word of the grammar.
-/

namespace QueryNames

theorem Text.isAlphabetic_of_toLower {c : Char} (lower : c.toLower.isAlpha = true) :
    isAlphabetic c = true := by
  have letter : c.isAlpha = true := by
    unfold Char.toLower at lower
    split at lower
    · rename_i upper
      unfold Char.isAlpha Char.isUpper
      simp only [Bool.or_eq_true, decide_eq_true_eq]
      exact .inl (by simpa using upper)
    · exact lower
  have ascii : c.toNat < 128 := by
    unfold Char.isAlpha Char.isUpper Char.isLower at letter
    simp only [Bool.or_eq_true, Bool.and_eq_true, decide_eq_true_eq] at letter
    rcases letter with ⟨-, small⟩ | ⟨-, small⟩
    · exact Nat.lt_of_le_of_lt (UInt32.le_iff_toNat_le.1 small) (by decide)
    · exact Nat.lt_of_le_of_lt (UInt32.le_iff_toNat_le.1 small) (by decide)
  rw [isAlphabetic, if_pos ascii, letter]

namespace Token

/-- An identifier in brackets or double quotes. -/
def isDelimited (t : Token) : Bool :=
  t.kind == .identifier && (Quote.ofName? t.text.toList).isSome

variable {t : Token}

theorem kind_of_isDelimited (delimited : t.isDelimited = true) : t.kind = .identifier := by
  simp only [isDelimited, Bool.and_eq_true, beq_iff_eq] at delimited
  exact delimited.1

theorem head_of_isDelimited (delimited : t.isDelimited = true) :
    t.text.toList.head? = some '[' ∨ t.text.toList.head? = some '"' := by
  simp only [isDelimited, Bool.and_eq_true, Quote.ofName?] at delimited
  obtain ⟨q, found⟩ := Option.isSome_iff_exists.1 delimited.2
  have quoted := List.find?_some found
  have known := List.mem_of_find?_eq_some found
  cases text : t.text.toList with
  | nil => simp [text, Text.between?] at quoted
  | cons c r =>
      have opens : c = q.opening := by
        refine Decidable.byContradiction fun other => ?_
        simp [text, Text.between?, other] at quoted
      simp only [List.mem_cons, List.not_mem_nil, or_false] at known
      rcases known with rfl | rfl
      · exact .inl (congrArg some opens)
      · exact .inr (congrArg some opens)

/-- No delimited name is a word that begins with a letter. -/
theorem isWord_of_isDelimited {word : String} {c : Char} {r : List Char}
    (delimited : t.isDelimited = true) (spelled : word.toList = c :: r)
    (letter : c.toLower.isAlpha = true) : t.isWord word = false := by
  rw [isWord, Bool.and_eq_false_iff]
  right
  cases text : t.text.toList with
  | nil => simp [Text.sameAsciiCase, spelled]
  | cons d r' =>
      have other : d.toLower ≠ c.toLower := by
        intro same
        rw [← same] at letter
        rcases head_of_isDelimited delimited with opens | opens <;>
        · rw [text] at opens
          obtain rfl := Option.some.inj opens
          revert letter
          decide
      simp [Text.sameAsciiCase, spelled, other]

theorem isPlainName_of_isDelimited (delimited : t.isDelimited = true) : t.isPlainName = false := by
  rw [isPlainName, Bool.and_eq_false_iff]
  right
  cases text : t.text.toList with
  | nil => rcases head_of_isDelimited delimited with opens | opens <;> simp [text] at opens
  | cons c r =>
      have plain : (Text.isAlphanumeric c || c == '_') = false := by
        rcases head_of_isDelimited delimited with opens | opens <;>
        · rw [text] at opens
          obtain rfl := Option.some.inj opens
          decide +kernel
      simp only [List.all_cons, plain, Bool.false_and]

theorem kind_of_isWord {word : String} (is : t.isWord word = true) : t.kind = .identifier := by
  simp only [isWord, Bool.and_eq_true, beq_iff_eq] at is
  exact is.1

/-- A word of letters is a plain name. -/
theorem isPlainName_of_isWord {word : String} (is : t.isWord word = true)
    (letters : (word.toList.map Char.toLower).all Char.isAlpha = true) : t.isPlainName = true := by
  have kind := kind_of_isWord is
  simp only [isWord, Bool.and_eq_true, Text.sameAsciiCase, beq_iff_eq] at is
  simp only [isPlainName, kind, beq_self_eq_true, Bool.true_and, List.all_eq_true]
  intro c member
  have lower : c.toLower.isAlpha = true := by
    apply List.all_eq_true.1 letters
    rw [← is.2]
    exact List.mem_map_of_mem member
  simp [Text.isAlphanumeric, Text.isAlphabetic_of_toLower lower]

end Token

namespace Grammar

/-- What stands behind the first part of a dotted name. A part may be left out between two
periods. -/
inductive WrittenParts : List Token → List Identifier → Prop
  | nil : WrittenParts [] []
  | part {period t ts others} (isPeriod : period.kind = .punctuation .period)
      (delimited : t.isDelimited = true) (rest : WrittenParts ts others) :
      WrittenParts (period :: t :: ts) (.ofToken t :: others)
  | omitted {period next ts others} (isPeriod : period.kind = .punctuation .period)
      (rest : WrittenParts (next :: ts) others) : WrittenParts (period :: next :: ts) others

inductive WrittenName : List Token → QualifiedName → Prop
  | parts {t ts others} (delimited : t.isDelimited = true) (rest : WrittenParts ts others) :
      WrittenName (t :: ts) ⟨.ofToken t, others⟩

theorem WrittenParts.period {t : Token} {ts : List Token} {others : List Identifier}
    (written : WrittenParts (t :: ts) others) : t.kind = .punctuation .period := by
  cases written with
  | part isPeriod => exact isPeriod
  | omitted isPeriod => exact isPeriod

theorem WrittenParts.whole {ts : List Token} {others : List Identifier}
    (written : WrittenParts ts others) : ∀ t ∈ ts, t.endsBatch = false := by
  induction written with
  | nil => nofun
  | part isPeriod delimited rest ih =>
      simpa [Token.endsBatch, Token.isSeparator, Token.isEnd, isPeriod,
        Token.kind_of_isDelimited delimited] using ih
  | omitted isPeriod rest ih =>
      simpa [Token.endsBatch, Token.isSeparator, Token.isEnd, isPeriod] using ih

namespace WrittenName

variable {ts : List Token} {name : QualifiedName}

theorem begins (written : WrittenName ts name) :
    ∃ t us, ts = t :: us ∧ t.isDelimited = true ∧ name.location = t.location := by
  cases written with
  | parts delimited rest => exact ⟨_, _, rfl, delimited, rfl⟩

theorem whole (written : WrittenName ts name) : ∀ t ∈ ts, t.endsBatch = false := by
  cases written with
  | parts delimited rest =>
      simpa [Token.endsBatch, Token.isSeparator, Token.isEnd,
        Token.kind_of_isDelimited delimited] using rest.whole

end WrittenName

namespace Parser

theorem namePart_yields {ts : List Token} {others : List Identifier}
    (written : WrittenParts ts others) :
    Yields (collect namePart) ts others (·.kind ≠ .punctuation .period) := by
  induction written with
  | nil =>
      intro s noPeriod
      refine collect_stop (a := none) ?_
      rw [namePart, State.prepend_nil, bind_some (acceptPunctuation_absent rfl noPeriod)]
      rfl
  | @part period t ts others isPeriod delimited rest ih =>
      intro s noPeriod
      have isName := Token.kind_of_isDelimited delimited
      have noPeriod' : (t.isPunctuation .period) = false := by simp [Token.isPunctuation, isName]
      have part : attempt identifier (s.prepend (t :: ts)) =
          (some (some (.ofToken t)), s.prepend ts) := by
        rw [attempt, identifier_prepend isName]
      have shorter : (s.prepend ts).remaining < (s.prepend (period :: t :: ts)).remaining := by
        simp only [State.remaining_prepend, List.length_cons]
        omega
      refine collect_more (?_ : _ = (some (some (.ofToken t), true), _)) shorter (ih s noPeriod)
      rw [namePart, bind_some (acceptPunctuation_prepend isPeriod), if_pos rfl, bind_check,
        State.current_prepend_cons, noPeriod', if_neg Bool.false_ne_true, bind_some part]
      rfl
  | @omitted period next ts others isPeriod rest ih =>
      intro s noPeriod
      have another : next.isPunctuation .period = true := by
        simp [Token.isPunctuation, rest.period]
      have shorter : (s.prepend (next :: ts)).remaining <
          (s.prepend (period :: next :: ts)).remaining := by
        simp only [State.remaining_prepend, List.length_cons]
        omega
      refine collect_more (?_ : _ = (some (none, true), _)) shorter (ih s noPeriod)
      rw [namePart, bind_some (acceptPunctuation_prepend isPeriod), if_pos rfl, bind_check,
        State.current_prepend_cons, another]
      rfl

theorem qualifiedName_yields {ts : List Token} {name : QualifiedName}
    (written : WrittenName ts name) :
    Yields qualifiedName ts name (·.kind ≠ .punctuation .period) := by
  intro s noPeriod
  cases written with
  | @parts t ts others delimited rest =>
      have first : attempt identifier (s.prepend (t :: ts)) =
          (some (some (.ofToken t)), s.prepend ts) := by
        rw [attempt, identifier_prepend (Token.kind_of_isDelimited delimited)]
      rw [qualifiedName, bind_some first]
      exact bind_some (namePart_yields rest s noPeriod)

end Parser

end Grammar

end QueryNames
