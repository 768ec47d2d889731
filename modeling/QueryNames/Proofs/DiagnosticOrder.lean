import QueryNames.Diagnostic

/-!
The order of diagnostics. Main statement: what stands before all else comes first, and each of the
two parts is ordered by itself.
-/

namespace QueryNames.Diagnostic

def isBefore (offset : Nat) (d : Diagnostic) : Bool := d.location.offset < offset

@[simp] theorem mem_sort {d : Diagnostic} {ds : List Diagnostic} : d ∈ sort ds ↔ d ∈ ds :=
  List.mem_mergeSort

@[simp] theorem sort_nil : sort [] = [] := List.mergeSort_nil

section Split

variable {p : Diagnostic → Bool} {ds : List Diagnostic}

theorem filter_all (all : ∀ d ∈ ds, p d = true) : ds.filter p = ds ∧ ds.filter (!p ·) = [] :=
  ⟨List.filter_eq_self.2 all, List.filter_eq_nil_iff.2 fun d member => by simp [all d member]⟩

theorem filter_none (none_ : ∀ d ∈ ds, p d = false) :
    ds.filter p = [] ∧ ds.filter (!p ·) = ds :=
  ⟨List.filter_eq_nil_iff.2 fun d member => by simp [none_ d member],
    List.filter_eq_self.2 fun d member => by simp [none_ d member]⟩

end Split

/-- A first diagnostic goes behind those that stand before it, and before all others. -/
theorem sort_cons (d : Diagnostic) (ds : List Diagnostic) :
    sort (d :: ds) = (sort ds).filter (isBefore d.location.offset) ++
      d :: (sort ds).filter (!isBefore d.location.offset ·) := by
  have trans (a b c : Diagnostic) : decide (a.location.offset ≤ b.location.offset) = true →
      decide (b.location.offset ≤ c.location.offset) = true →
      decide (a.location.offset ≤ c.location.offset) = true := by
    simpa using Nat.le_trans
  have total (a b : Diagnostic) : (decide (a.location.offset ≤ b.location.offset) ||
      decide (b.location.offset ≤ a.location.offset)) = true := by
    simpa using Nat.le_total _ _
  obtain ⟨front, back, whole, rest, before⟩ := List.mergeSort_cons trans total d ds
  have sorted := List.pairwise_mergeSort trans total (d :: ds)
  rw [whole] at sorted
  have behind := (List.pairwise_cons.1 (List.pairwise_append.1 sorted).2.1).1
  obtain ⟨kept, dropped⟩ := @filter_all (isBefore d.location.offset) front
    (by simpa [isBefore] using before)
  obtain ⟨dropped', kept'⟩ := @filter_none (isBefore d.location.offset) back
    (by simpa [isBefore] using behind)
  have split : sort ds = front ++ back := rest
  rw [split, List.filter_append, List.filter_append, kept, dropped, dropped', kept']
  simpa [sort] using whole

theorem sort_split {ds : List Diagnostic} {p : Diagnostic → Bool}
    (apart : ∀ d ∈ ds, ∀ e ∈ ds, p d = true → p e = false →
      d.location.offset < e.location.offset) :
    sort ds = sort (ds.filter p) ++ sort (ds.filter (!p ·)) := by
  induction ds with
  | nil => simp
  | cons d ds ih =>
      have inside := ih fun e member f member' =>
        apart e (List.mem_cons_of_mem _ member) f (List.mem_cons_of_mem _ member')
      rw [sort_cons, inside, List.filter_append, List.filter_append]
      cases found : p d with
      | true =>
          have behind : ∀ e ∈ sort (ds.filter (!p ·)), isBefore d.location.offset e = false := by
            intro e member
            obtain ⟨among, other⟩ := List.mem_filter.1 (mem_sort.1 member)
            have order := apart d List.mem_cons_self e (List.mem_cons_of_mem _ among) found
              (by simpa using other)
            simp [isBefore, Nat.le_of_lt order]
          simp [found, sort_cons, filter_none behind]
      | false =>
          have before : ∀ e ∈ sort (ds.filter p), isBefore d.location.offset e = true := by
            intro e member
            obtain ⟨among, other⟩ := List.mem_filter.1 (mem_sort.1 member)
            have order := apart e (List.mem_cons_of_mem _ among) d List.mem_cons_self other found
            simp [isBefore, order]
          simp [found, sort_cons, filter_all before]

/-- What is found in two stretches of a text, one behind the other. -/
theorem sort_stretches {offset : Nat} {ds ds' es es' : List Diagnostic}
    (before : ∀ d ∈ ds ++ es, isBefore offset d = true)
    (behind : ∀ d ∈ ds' ++ es', isBefore offset d = false) :
    sort (ds ++ ds' ++ (es ++ es')) = sort (ds ++ es) ++ sort (ds' ++ es') := by
  simp only [List.forall_mem_append] at before behind
  rw [@sort_split _ (isBefore offset)]
  · simp [filter_all before.1, filter_all before.2, filter_none behind.1, filter_none behind.2]
  · intro d _ e _ isBefore notBefore
    simp only [Diagnostic.isBefore, decide_eq_true_eq, decide_eq_false_iff_not]
      at isBefore notBefore
    omega

/-- In the order of the text; of two at one place the first is lexical, the second grammatical. -/
def Precedes (d e : Diagnostic) : Prop :=
  d.location.offset < e.location.offset ∨
    (d.location.offset = e.location.offset ∧ d.isGrammatical = false ∧ e.isGrammatical = true)

theorem Precedes.offset_le {d e : Diagnostic} (precedes : Precedes d e) :
    d.location.offset ≤ e.location.offset := by
  rcases precedes with before | ⟨same, -⟩
  · exact Nat.le_of_lt before
  · exact Nat.le_of_eq same

/-- Diagnostics of one sort do not stand at one place. -/
theorem Precedes.offset_lt {d e : Diagnostic} (precedes : Precedes d e)
    (sameSort : d.isGrammatical = e.isGrammatical) : d.location.offset < e.location.offset := by
  rcases precedes with before | ⟨-, lexical, grammatical⟩
  · exact before
  · simp [lexical, grammatical] at sameSort

theorem sort_of_rising {ds : List Diagnostic}
    (rising : ds.Pairwise fun d e => d.location.offset < e.location.offset) : sort ds = ds := by
  apply List.mergeSort_of_pairwise
  refine rising.imp fun before => ?_
  simpa using Nat.le_of_lt before

/-- Two lists, each of which rises, are merged so that the first goes before the second. -/
theorem sort_precedes {ds es : List Diagnostic}
    (rising : ds.Pairwise fun d e => d.location.offset < e.location.offset)
    (rising' : es.Pairwise fun d e => d.location.offset < e.location.offset)
    (lexical : ∀ d ∈ ds, d.isGrammatical = false) (grammatical : ∀ e ∈ es, e.isGrammatical = true) :
    (sort (ds ++ es)).Pairwise Precedes := by
  induction ds with
  | nil =>
      rw [List.nil_append, sort_of_rising rising']
      exact rising'.imp .inl
  | cons d ds ih =>
      obtain ⟨first, rest⟩ := List.pairwise_cons.1 rising
      obtain ⟨lexicalFirst, lexicalRest⟩ := List.forall_mem_cons.1 lexical
      have merged := ih rest lexicalRest
      have behind : ∀ e ∈ (sort (ds ++ es)).filter (!isBefore d.location.offset ·),
          Precedes d e := by
        intro e member
        obtain ⟨among, notBefore⟩ := List.mem_filter.1 member
        have order : d.location.offset ≤ e.location.offset := by simpa [isBefore] using notBefore
        rcases List.mem_append.1 (mem_sort.1 among) with own | other
        · exact .inl (first e own)
        · rcases Nat.lt_or_eq_of_le order with less | same
          · exact .inl less
          · exact .inr ⟨same, lexicalFirst, grammatical e other⟩
      have before : ∀ e ∈ (sort (ds ++ es)).filter (isBefore d.location.offset),
          e.location.offset < d.location.offset := by
        intro e member
        simpa [isBefore] using (List.mem_filter.1 member).2
      rw [List.cons_append, sort_cons, List.pairwise_append, List.pairwise_cons]
      refine ⟨merged.filter _, ⟨behind, merged.filter _⟩, fun e member => ?_⟩
      rw [List.forall_mem_cons]
      refine ⟨.inl (before e member), fun e' member' => .inl ?_⟩
      have early := before e member
      have late : d.location.offset ≤ e'.location.offset := by
        simpa [isBefore] using (List.mem_filter.1 member').2
      omega

theorem eq_nil_of_sort {ds : List Diagnostic} (sorted : sort ds = []) : ds = [] := by
  have length : (sort ds).length = ds.length := List.length_mergeSort ds
  rw [sorted] at length
  exact List.eq_nil_of_length_eq_zero length.symm

end QueryNames.Diagnostic
