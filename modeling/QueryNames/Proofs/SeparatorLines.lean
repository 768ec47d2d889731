import QueryNames.Proofs.ExactPlaces
import QueryNames.Proofs.Text.Ink

/-!
Lines that hold GO. Main statement: a separator has its line for itself, but for white space, and a
name that is spelled like one has not.
-/

namespace QueryNames

namespace Text

/-- Nothing but white space, and at most one semicolon. -/
def AtMostSemicolon (text : List Char) : Prop := ink text = [] ∨ ink text = [';']

theorem ink_cons {c : Char} {text : List Char} (inked : isBlank c = false) :
    ink (c :: text) = c :: ink text := by
  simp [ink, inked]

theorem head?_go {word : List Char} (spelled : sameAsciiCase word ['g', 'o'] = true) :
    word.head?.any (fun c => c.toLower == 'g') = true := by
  cases word with
  | nil => cases spelled
  | cons c word =>
      have lowered := (List.cons.inj (eq_of_beq spelled)).1
      simpa using lowered

end Text

namespace Piece

open Text

theorem keepsLineBlank_iff {before : List Char} :
    keepsLineBlank true before = true ↔ ink (lineBefore before) = [] := by
  induction before using List.reverseRecOn with
  | nil => exact ⟨fun _ => rfl, fun _ => rfl⟩
  | append_singleton before c ih =>
      rw [keepsLineBlank_append, lineBefore, List.rtakeWhile_concat]
      by_cases feed : c = '\n'
      · subst feed
        simp [keepsLineBlank, ink]
      · have goesOn : (c != '\n') = true := by simpa using feed
        rw [if_pos goesOn, ← lineBefore, ink_append, List.append_eq_nil_iff, ← ih]
        simp [keepsLineBlank, feed, ink]

section Tail

variable {rest tail : List Char}

theorem separatorTail?_some (found : separatorTail? rest = some tail) :
    '\n' ∉ tail ∧ AtMostSemicolon tail ∧ ink (lineBehind (rest.drop tail.length)) = [] := by
  rcases separatorTail?_cases found with ⟨rfl, idle⟩ | ⟨blanks, more, ends, line, nothing, idle⟩
  · exact ⟨List.not_mem_nil, .inl rfl, idle⟩
  · have inLine : '\n' ∉ tail := by
      intro member
      have inside : '\n' ∈ lineBehind rest := line ▸ List.mem_append_left more member
      cases List.mem_takeWhile_imp inside
    have left : lineBehind (tail ++ rest.drop tail.length) = tail ++ more := by
      rw [separatorTail?_append found, line]
    rw [lineBehind_append inLine, List.append_cancel_left_eq] at left
    refine ⟨inLine, .inr ?_, by rw [left, idle]⟩
    rw [ends, ink_append, nothing]
    rfl

/-- What keeps a word from being a separator. -/
theorem separatorTail?_none (none_ : separatorTail? rest = none) :
    ¬ AtMostSemicolon (lineBehind rest) := by
  unfold separatorTail? at none_
  dsimp only at none_
  split at none_
  · cases none_
  · rename_i c more line
    have inked : isBlank c = false := by
      have stops := List.head?_dropWhile_not isBlank (rest.takeWhile (· != '\n'))
      simpa [line] using stops
    have idle : ink ((lineBehind rest).takeWhile isBlank) = [] :=
      ink_eq_nil.2 fun c => List.mem_takeWhile_imp
    have left : ink (lineBehind rest) = c :: ink more := by
      rw [← List.takeWhile_append_dropWhile (p := isBlank) (l := lineBehind rest), ink_append, idle,
        lineBehind, line, List.nil_append, ink_cons inked]
    split at none_
    · cases none_
    · rename_i shared
      rw [AtMostSemicolon, left]
      rintro (nothing | semicolon)
      · cases nothing
      · obtain ⟨rfl, nothing⟩ := List.cons.inj semicolon
        exact shared ⟨rfl, List.all_eq_true.2 (ink_eq_nil.1 nothing)⟩

end Tail

/-- What a separator, and a name spelled like one, says of the rest of its line. -/
structure Cut.Separates (lineIsBlank : Bool) (cut : Cut) : Prop where
  alone : cut.kind = .token .batchSeparator → lineIsBlank = true ∧
    ink (lineBehind cut.rest) = [] ∧ ∃ word tail, cut.text = word ++ tail ∧ '\n' ∉ cut.text ∧
      sameAsciiCase word ['g', 'o'] = true ∧ AtMostSemicolon tail
  shared : cut.kind = .token .identifier → sameAsciiCase cut.text ['g', 'o'] = true →
    lineIsBlank = true → ¬ AtMostSemicolon (lineBehind cut.rest)

theorem Cut.separates_of_kind {lineIsBlank : Bool} {cut : Cut}
    (noSeparator : cut.kind ≠ .token .batchSeparator) (noName : cut.kind ≠ .token .identifier) :
    cut.Separates lineIsBlank :=
  ⟨fun is => absurd is noSeparator, fun is => absurd is noName⟩

theorem word_separates (lineIsBlank : Bool) (text rest : List Char) :
    (word lineIsBlank text rest).Separates lineIsBlank := by
  unfold word
  dsimp only
  split
  · rename_i tail found
    obtain ⟨separates, found⟩ := Option.ite_none_right_eq_some.1 found
    obtain ⟨blank, spelled⟩ := Bool.and_eq_true_iff.1 separates
    obtain ⟨inLine, few, idle⟩ := separatorTail?_some found
    refine ⟨fun _ => ⟨blank, idle, text, tail, rfl, ?_, spelled, few⟩, nofun⟩
    rw [List.mem_append, not_or]
    exact ⟨not_mem_of_sameAsciiCase spelled (by decide), inLine⟩
  · rename_i found
    split
    · exact Cut.separates_of_kind nofun nofun
    · refine ⟨nofun, fun _ spelled blank => ?_⟩
      have spelled : sameAsciiCase text ['g', 'o'] = true := spelled
      rw [blank, spelled] at found
      exact separatorTail?_none found

theorem delimited_separates {q : Quote} (isDelimiter : q ≠ .single) (lineIsBlank : Bool)
    (r : List Char) : (delimited q.opening q.closing r).Separates lineIsBlank := by
  have quoted (text : List Char) : sameAsciiCase (q.opening :: text) ['g', 'o'] = false := by
    rw [← Bool.not_eq_true]
    intro spelled
    have first := head?_go spelled
    cases q with
    | single => contradiction
    | bracket => cases first
    | double => cases first
  unfold delimited
  split
  · rename_i text rest _
    refine ⟨fun is => ?_, fun _ spelled => ?_⟩
    · dsimp only at is
      split at is <;> cases is
    · rw [quoted] at spelled
      cases spelled
  · exact Cut.separates_of_kind nofun nofun

theorem cut_separates (lineIsBlank : Bool) (c : Char) (r : List Char) :
    (cut lineIsBlank c r).Separates lineIsBlank := by
  apply cut_holds (P := Cut.Separates lineIsBlank)
  · intro cut found
    have is := blank?_kind found
    exact Cut.separates_of_kind (by simp [is]) (by simp [is])
  · intro cut found
    rcases comment?_kind found with is | is | is <;>
      exact Cut.separates_of_kind (by simp [is]) (by simp [is])
  · intro cut found
    apply quoted?_holds (P := Cut.Separates lineIsBlank) _ _ found
    · exact fun q r isDelimiter => delimited_separates isDelimiter lineIsBlank r
    · intro marker _ r
      rcases string_kind (marker ++ ['\'']) r with is | is <;>
        exact Cut.separates_of_kind (by simp [is]) (by simp [is])
  · intro cut found
    have is := number?_kind found
    exact Cut.separates_of_kind (by simp [is]) (by simp [is])
  · intro cut found
    rcases variableName?_kind found with is | is <;>
      exact Cut.separates_of_kind (by simp [is]) (by simp [is])
  · exact fun _ => word_separates lineIsBlank _ _
  · unfold sign
    split <;> exact Cut.separates_of_kind nofun nofun

/-! Pieces where they stand. -/

section Chain

variable {place : Location} {lineIsBlank : Bool} {cs : List Char} {front back : List Piece}
  {piece : Piece}

/-- A piece is cut off where those before it have ended. -/
theorem exists_cut (split : chain place lineIsBlank cs = front ++ piece :: back) :
    piece.location = place.after (front.flatMap (·.text)) ∧
      ∃ c r, cut (keepsLineBlank lineIsBlank (front.flatMap (·.text))) c r =
        ⟨piece.kind, piece.text, back.flatMap (·.text)⟩ := by
  fun_induction chain place lineIsBlank cs generalizing front with
  | case1 => cases front <;> cases split
  | case2 place lineIsBlank c r first =>
      rename_i ih
      cases front with
      | nil =>
          obtain ⟨rfl, rfl⟩ := List.cons.inj split
          refine ⟨rfl, c, r, ?_⟩
          rw [flatMap_text_chain]
          rfl
      | cons other front =>
          obtain ⟨rfl, behind⟩ := List.cons.inj split
          rw [List.flatMap_cons, Location.after_append, keepsLineBlank_append]
          exact ih behind

theorem inked_of_split (split : chain place lineIsBlank cs = front ++ piece :: back)
    (other : piece.kind ≠ .blank) : ink (lineBehind piece.text) ≠ [] ∧
      (back.flatMap (·.text) ≠ [] → ink (lineBefore piece.text) ≠ []) := by
  obtain ⟨-, c, r, cutOff⟩ := exists_cut split
  have inked := cut_inked (c := c) (r := r) (by rw [cutOff]; exact other)
  rw [cutOff] at inked
  exact inked

theorem text_ne_nil_of_split (split : chain place lineIsBlank cs = front ++ piece :: back) :
    piece.text ≠ [] := by
  obtain ⟨-, c, r, cutOff⟩ := exists_cut split
  have own : _ = piece.text := congrArg Cut.text cutOff
  rw [← own]
  exact (cut_splits _ c r).text_ne_nil

/-- Where a line is blank up to a piece, all ink before it stands on other lines. -/
theorem lineFeed_before {between : List Piece} {other : Piece}
    (split : chain place lineIsBlank cs = front ++ other :: (between ++ piece :: back))
    (notBlank : other.kind ≠ .blank)
    (idle : ink (lineBefore ((front ++ other :: between).flatMap (·.text))) = []) :
    '\n' ∈ between.flatMap (·.text) := by
  by_contra noFeed
  have here : chain place lineIsBlank cs = (front ++ other :: between) ++ piece :: back := by
    rw [split, List.append_assoc, List.cons_append]
  have more : (between ++ piece :: back).flatMap (·.text) ≠ [] := by
    simp [text_ne_nil_of_split here]
  have inked := (inked_of_split split notBlank).2 more
  have last : (front ++ other :: between).flatMap (·.text) =
      front.flatMap (·.text) ++ other.text ++ between.flatMap (·.text) := by simp
  rw [last, lineBefore_append _ noFeed] at idle
  refine ink_ne_nil_of_sublist ?_ inked idle
  exact (lineBefore_sublist _ _).trans (List.sublist_append_left _ _)

/-- Where a line is blank behind a piece, all ink behind it stands on other lines. -/
theorem lineFeed_behind {between : List Piece} {other : Piece}
    (split : chain place lineIsBlank cs = front ++ other :: back)
    (notBlank : other.kind ≠ .blank)
    (idle : ink (lineBehind ((between ++ other :: back).flatMap (·.text))) = []) :
    '\n' ∈ between.flatMap (·.text) := by
  by_contra noFeed
  have inked := (inked_of_split split notBlank).1
  have first : (between ++ other :: back).flatMap (·.text) =
      between.flatMap (·.text) ++ (other.text ++ back.flatMap (·.text)) := by simp
  rw [first, lineBehind_append noFeed] at idle
  refine ink_ne_nil_of_sublist ?_ inked idle
  exact (lineBehind_sublist _ _).trans (List.sublist_append_right _ _)

/-- A piece with a blank line around it stands on that line alone. -/
theorem line_ne {other : Piece} (split : chain place lineIsBlank cs = front ++ piece :: back)
    (before : ink (lineBefore (front.flatMap (·.text))) = [])
    (behind : ink (lineBehind (back.flatMap (·.text))) = [])
    (member : other ∈ chain place lineIsBlank cs) (notBlank : other.kind ≠ .blank)
    (apart : other.location ≠ piece.location) {a b : List Char} {c : Char}
    (text : other.text = a ++ c :: b) : (other.location.after a).line ≠ piece.location.line := by
  have here := (exists_cut split).1
  rw [split] at member
  rcases List.mem_append.1 member with earlier | later
  · obtain ⟨first, between, rfl⟩ := List.append_of_mem earlier
    rw [List.append_assoc, List.cons_append] at split
    have feed := List.count_pos_iff.2 (lineFeed_before split notBlank before)
    rw [(exists_cut split).1, here, ← Location.after_append, Location.line_after,
      Location.line_after]
    simp only [List.flatMap_append, List.flatMap_cons, text, List.count_append]
    omega
  · rcases List.mem_cons.1 later with rfl | later
    · contradiction
    · obtain ⟨between, last, rfl⟩ := List.append_of_mem later
      rw [← List.cons_append, ← List.append_assoc] at split
      have feed := List.count_pos_iff.2 (lineFeed_behind split notBlank behind)
      rw [(exists_cut split).1, here, ← Location.after_append, Location.line_after,
        Location.line_after]
      simp only [List.flatMap_append, List.flatMap_cons, List.count_append]
      omega

end Chain

end Piece

namespace TokenStream

open Text

/-- A separator is GO, and at most one semicolon, on a line that has nothing else but white space:
no character of another token and none of a comment is on that line. A name that is spelled GO
shares its line with more than one semicolon behind it. -/
theorem ofTextAt_separatorLines (origin : Location) (text : String) :
    ∀ t ∈ (ofTextAt origin text).tokens, ∃ before behind,
      text.toList = before ++ t.text.toList ++ behind ∧ t.location = origin.after before ∧
      (t.kind = .batchSeparator →
        ink (lineBefore before) = [] ∧ ink (lineBehind behind) = [] ∧
        (∃ word tail, t.text.toList = word ++ tail ∧ '\n' ∉ t.text.toList ∧
          sameAsciiCase word ['g', 'o'] = true ∧ AtMostSemicolon tail) ∧
        ∀ piece ∈ Piece.chain origin true text.toList,
          piece.kind ≠ .blank → piece.location ≠ t.location →
            ∀ a c b, piece.text = a ++ c :: b →
              (piece.location.after a).line ≠ t.location.line) ∧
      (t.kind = .identifier → sameAsciiCase t.text.toList ['g', 'o'] = true →
        ink (lineBefore before) ≠ [] ∨ ¬ AtMostSemicolon (lineBehind behind)) := by
  intro t member
  rcases List.mem_append.1 member with member | stop
  · obtain ⟨piece, among, isToken⟩ := List.mem_filterMap.1 member
    obtain ⟨front, back, split⟩ := List.append_of_mem among
    obtain ⟨here, c, r, cutOff⟩ := Piece.exists_cut split
    have whole := Piece.flatMap_text_chain origin true text.toList
    have separates := Piece.cut_separates
      (Piece.keepsLineBlank true (front.flatMap (·.text))) c r
    rw [cutOff] at separates
    obtain ⟨alone, shared⟩ := separates
    have kind (known : t.kind ≠ .unknown) := Piece.kind_of_token? isToken known
    rw [Piece.text_of_token? isToken, Piece.location_of_token? isToken, String.toList_ofList]
    refine ⟨front.flatMap (·.text), back.flatMap (·.text), ?_, here, fun is => ?_,
      fun is spelled => ?_⟩
    · rw [← whole, split, List.flatMap_append, List.flatMap_cons, List.append_assoc]
    · obtain ⟨blank, idle, own⟩ := alone ((kind (by simp [is])).trans (by rw [is]))
      have blank := Piece.keepsLineBlank_iff.1 blank
      exact ⟨blank, idle, own, fun other among notBlank apart a c b text =>
        Piece.line_ne split blank idle among notBlank apart text⟩
    · by_cases blank : ink (lineBefore (front.flatMap (·.text))) = []
      · exact .inr (shared ((kind (by simp [is])).trans (by rw [is])) spelled
          (Piece.keepsLineBlank_iff.2 blank))
      · exact .inl blank
  · rw [List.mem_singleton.1 stop]
    exact ⟨text.toList, [], by simp [Token.endOfInput], rfl, nofun, nofun⟩

/-- GO is a name on the line where a comment ends. -/
theorem ofTextAt_separatorLines_comment :
    let text := "1\n go ;\n/*\n*/ GO"
    let separator : Token := ⟨.batchSeparator, "go ;", ⟨3, 2, 2⟩⟩
    let name : Token := ⟨.identifier, "GO", ⟨14, 4, 4⟩⟩
    (separator ∈ (ofTextAt .start text).tokens ∧ ∃ before behind,
      text.toList = before ++ separator.text.toList ++ behind ∧
        ink (lineBefore before) = [] ∧ ink (lineBehind behind) = []) ∧
    (name ∈ (ofTextAt .start text).tokens ∧ ∃ before behind,
      text.toList = before ++ name.text.toList ++ behind ∧
        (ink (lineBefore before) ≠ [] ∨ ¬ AtMostSemicolon (lineBehind behind))) := by
  intro text separator name
  have among : separator ∈ (ofTextAt .start text).tokens := by
    decide +kernel
  have named : name ∈ (ofTextAt .start text).tokens := by
    decide +kernel
  constructor
  · obtain ⟨before, behind, whole, -, alone, -⟩ := ofTextAt_separatorLines .start text _ among
    obtain ⟨idle, nothing, -⟩ := alone rfl
    exact ⟨among, before, behind, whole, idle, nothing⟩
  · obtain ⟨before, behind, whole, -, -, shared⟩ := ofTextAt_separatorLines .start text _ named
    exact ⟨named, before, behind, whole, shared rfl (by decide)⟩

end TokenStream

end QueryNames
