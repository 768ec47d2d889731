/-!
Places in a text: the byte offset counts UTF-8 bytes, lines start behind line feeds, and columns
count characters.
-/

namespace QueryNames

structure Location where
  offset : Nat
  line : Nat
  column : Nat
  deriving DecidableEq, Repr

namespace Location

/-- The first character of a text. -/
def start : Location := ⟨0, 1, 1⟩

/-- The place of what stands in no text. -/
def none : Location := ⟨0, 0, 0⟩

def step (place : Location) (c : Char) : Location :=
  if c = '\n' then ⟨place.offset + c.utf8Size, place.line + 1, 1⟩
  else ⟨place.offset + c.utf8Size, place.line, place.column + 1⟩

/-- The place just behind `text`, which begins at `place`. -/
def after (place : Location) (text : List Char) : Location := text.foldl step place

@[simp] theorem after_nil (place : Location) : place.after [] = place := rfl

@[simp] theorem after_cons (place : Location) (c : Char) (text : List Char) :
    place.after (c :: text) = (place.step c).after text := rfl

@[simp] theorem after_append (place : Location) (a b : List Char) :
    place.after (a ++ b) = (place.after a).after b := List.foldl_append

theorem offset_step (place : Location) (c : Char) :
    (place.step c).offset = place.offset + c.utf8Size := by
  unfold step; split <;> rfl

theorem offset_after (place : Location) (text : List Char) :
    (place.after text).offset = place.offset + (String.ofList text).utf8ByteSize := by
  induction text generalizing place with
  | nil => rfl
  | cons c text ih =>
    rw [after_cons, ih, offset_step, String.ofList_cons, String.utf8ByteSize_append,
      String.utf8ByteSize_singleton, Nat.add_assoc]

end Location

end QueryNames
