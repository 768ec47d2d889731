import Mathlib.Data.List.Lex
import Mathlib.Data.List.TakeWhile
import Mathlib.Data.Prod.Lex
import QueryNames.Proofs.Address.Slot

/-!
Addresses: the ways down from a node to what stands inside of it, in the order in which a visit
goes. Main statement: in a list that is in this order, what is below an address stands right behind
it, all together.
-/

namespace QueryNames

def Slot.rank (slot : Slot) : Nat := all.idxOf slot

theorem Slot.rank_injective : Function.Injective rank := by
  intro a b same
  exact (List.idxOf_inj (mem_all a)).1 same

theorem Slot.pairwise_all : all.Pairwise (·.rank < ·.rank) := by decide

/-- From a node to one of those that a slot of it holds. -/
structure Step where
  slot : Slot
  index : Nat
  deriving DecidableEq, Repr

namespace Step

def rank (step : Step) : Nat ×ₗ Nat := toLex (step.slot.rank, step.index)

theorem rank_injective : Function.Injective rank := by
  rintro ⟨a, i⟩ ⟨b, j⟩ same
  obtain ⟨ranks, rfl⟩ : a.rank = b.rank ∧ i = j := Prod.mk.inj (toLex_inj.1 same)
  obtain rfl := Slot.rank_injective ranks
  rfl

instance : LinearOrder Step := LinearOrder.lift' rank rank_injective

theorem lt_of_slot {a b : Step} (earlier : a.slot.rank < b.slot.rank) : a < b :=
  Prod.Lex.toLex_lt_toLex.2 (.inl earlier)

theorem lt_of_index {slot : Slot} {i j : Nat} (earlier : i < j) :
    (⟨slot, i⟩ : Step) < ⟨slot, j⟩ :=
  Prod.Lex.toLex_lt_toLex.2 (.inr ⟨rfl, earlier⟩)

end Step

abbrev Address := List Step

namespace Address

/-- The one address goes on from the other. -/
def IsAbove (above address : Address) : Prop := above <+: address ∧ above ≠ address

theorem isAbove_nil {above : Address} : ¬above.IsAbove [] :=
  fun isAbove => isAbove.2 (List.prefix_nil.1 isAbove.1)

theorem isAbove_cons {above : Address} {step : Step} {rest : Address} :
    above.IsAbove (step :: rest) ↔
      above = [] ∨ ∃ inner : Address, above = step :: inner ∧ inner.IsAbove rest := by
  cases above with
  | nil => simp [IsAbove]
  | cons first above =>
      simp only [IsAbove, List.cons_prefix_cons, ne_eq, List.cons.injEq, reduceCtorEq, false_or]
      constructor
      · rintro ⟨⟨rfl, isPrefix⟩, ne⟩
        exact ⟨above, ⟨rfl, rfl⟩, isPrefix, fun same => ne ⟨rfl, same⟩⟩
      · rintro ⟨_, ⟨rfl, rfl⟩, isPrefix, ne⟩
        exact ⟨⟨rfl, isPrefix⟩, fun same => ne same.2⟩

theorem IsAbove.length_lt {above address : Address} (isAbove : above.IsAbove address) :
    above.length < address.length :=
  isAbove.1.length_le.lt_of_ne fun same => isAbove.2 (isAbove.1.eq_of_length same)

theorem IsAbove.trans {a b c : Address} (above : a.IsAbove b) (further : b.IsAbove c) :
    a.IsAbove c := by
  refine ⟨above.1.trans further.1, fun same => ?_⟩
  have shorter := above.length_lt.trans further.length_lt
  rw [same] at shorter
  exact lt_irrefl _ shorter

@[elab_as_elim]
theorem downward_induction {P : Address → Prop}
    (downward : ∀ address : Address,
      (∀ above : Address, above.IsAbove address → P above) → P address)
    (address : Address) : P address :=
  downward address fun above isAbove =>
    have := isAbove.length_lt
    downward_induction downward above
termination_by address.length

theorem IsAbove.lt {above address : Address} (isAbove : above.IsAbove address) :
    above < address := by
  obtain ⟨⟨rest, rfl⟩, ne⟩ := isAbove
  cases rest with
  | nil => exact absurd (List.append_nil above).symm ne
  | cons step rest =>
      have shorter : above ++ [] < above ++ step :: rest :=
        List.append_left_lt (List.nil_lt_cons step rest)
      rwa [List.append_nil] at shorter

/-- What stands between an address and one below it is below it too. -/
theorem prefix_of_between {above a b : Address} (below : above <+: b) (behind : above < a)
    (before : a < b) : above <+: a := by
  induction above generalizing a b with
  | nil => exact List.nil_prefix
  | cons step above ih =>
      obtain ⟨b, rfl, restBelow⟩ := List.cons_prefix_iff.1 below
      cases a with
      | nil => exact absurd behind (List.not_lt_nil _)
      | cons step' a =>
          rcases List.cons_lt_cons_iff.1 behind with earlier | ⟨rfl, restBehind⟩
          · rcases List.cons_lt_cons_iff.1 before with later | ⟨rfl, -⟩
            · exact absurd later earlier.asymm
            · exact absurd earlier (lt_irrefl _)
          · rcases List.cons_lt_cons_iff.1 before with later | ⟨-, restBefore⟩
            · exact absurd later (lt_irrefl _)
            · exact (List.prefix_cons_inj step).2 (ih restBelow restBehind restBefore)

variable {addresses : List Address} {above address : Address}

theorem mem_takeWhile_of_below (sorted : addresses.Pairwise (· < ·))
    (behind : ∀ address ∈ addresses, above < address) (member : address ∈ addresses)
    (below : above <+: address) : address ∈ addresses.takeWhile (above <+: ·) := by
  induction addresses with
  | nil => cases member
  | cons first rest ih =>
      obtain ⟨least, sorted⟩ := List.pairwise_cons.1 sorted
      obtain ⟨firstBehind, behind⟩ := List.forall_mem_cons.1 behind
      rcases List.mem_cons.1 member with rfl | member
      · simp [below]
      · have belowFirst : above <+: first :=
          prefix_of_between below firstBehind (least address member)
        rw [List.takeWhile_cons_of_pos (by simpa using belowFirst)]
        exact List.mem_cons_of_mem _ (ih sorted behind member)

theorem together_below (sorted : addresses.Pairwise (· < ·)) (member : address ∈ addresses) :
    ∃ before below behind, addresses = before ++ address :: below ++ behind ∧
      ∀ other ∈ addresses, other ∈ below ↔ address.IsAbove other := by
  obtain ⟨before, rest, rfl⟩ := List.append_of_mem member
  obtain ⟨-, sortedRest, less⟩ := List.pairwise_append.1 sorted
  obtain ⟨greater, sortedRest⟩ := List.pairwise_cons.1 sortedRest
  refine ⟨before, rest.takeWhile (address <+: ·), rest.dropWhile (address <+: ·), ?_, ?_⟩
  · simp
  intro other among
  constructor
  · intro inBelow
    have inRest : other ∈ rest := (List.takeWhile_prefix _).subset inBelow
    exact ⟨by simpa using List.mem_takeWhile_imp inBelow, (greater other inRest).ne⟩
  · intro isAbove
    have later : address < other := isAbove.lt
    rcases List.mem_append.1 among with inBefore | inRest
    · exact absurd later (less other inBefore address List.mem_cons_self).asymm
    · rcases List.mem_cons.1 inRest with rfl | inRest
      · exact absurd rfl isAbove.2
      · exact mem_takeWhile_of_below sortedRest greater inRest isAbove.1

end Address

end QueryNames
