/-!
Texts in UTF-8, and what a reader that accepts every row of bytes makes of the others.
-/

namespace QueryNames.Encoding

def utf8? (bytes : List UInt8) : Option String := String.fromUTF8? ⟨bytes.toArray⟩

theorem utf8?_toByteArray (text : String) : utf8? text.toByteArray.data.toList = some text := by
  have h : (⟨text.toByteArray.data.toList.toArray⟩ : ByteArray) = text.toByteArray := by simp
  rw [utf8?, h]
  simp [String.fromUTF8?, text.isValidUTF8]
  rfl

theorem toList_loop (bytes : ByteArray) (i : Nat) (read : List UInt8) :
    ByteArray.toList.loop bytes i read = read.reverse ++ bytes.data.toList.drop i := by
  fun_induction ByteArray.toList.loop bytes i read with
  | case1 i read inside ih =>
      have first : bytes.get! i = bytes.data.toList[i] := by
        rw [Array.getElem_toList]
        exact getElem!_pos bytes.data i inside
      rw [ih, first, List.reverse_cons, List.append_assoc, List.singleton_append,
        List.getElem_cons_drop]
  | case2 i read outside =>
      have nothing : bytes.data.toList.drop i = [] :=
        List.drop_eq_nil_of_le (by simpa using outside)
      rw [nothing, List.append_nil]

theorem toList_eq_data (bytes : ByteArray) : bytes.toList = bytes.data.toList :=
  toList_loop bytes 0 []

theorem toList_toUTF8 (text : String) :
    text.toUTF8.toList = text.toList.flatMap String.utf8EncodeChar := by
  have bytes : (String.ofList text.toList).toByteArray.data.toList =
      text.toList.flatMap String.utf8EncodeChar := by
    rw [String.toByteArray_ofList, List.utf8Encode, List.data_toByteArray]
  rw [String.ofList_toList] at bytes
  exact (toList_eq_data _).trans bytes

theorem utf8?_toUTF8 (text : String) : utf8? text.toUTF8.toList = some text := by
  rw [toList_eq_data]
  exact utf8?_toByteArray text

/-- A text is in its bytes, and no other one. -/
theorem utf8?_eq_some_iff {bytes : List UInt8} {text : String} :
    utf8? bytes = some text ↔ text.toUTF8.toList = bytes := by
  constructor
  · intro read
    unfold utf8? String.fromUTF8? at read
    split at read <;> cases read
    rw [toList_eq_data]
    rfl
  · rintro rfl
    exact utf8?_toUTF8 text

namespace Utf8

/-- First and last of the bytes that may stand at each place behind the first byte of a character;
none for a byte that begins no character. -/
def following? (byte : Nat) : Option (List (Nat × Nat)) :=
  if byte < 0x80 then some []
  else if byte < 0xc2 then none
  else if byte < 0xe0 then some [(0x80, 0xbf)]
  else if byte < 0xf0 then
    some [(if byte = 0xe0 then 0xa0 else 0x80, if byte = 0xed then 0x9f else 0xbf), (0x80, 0xbf)]
  else if byte < 0xf5 then
    some [(if byte = 0xf0 then 0x90 else 0x80, if byte = 0xf4 then 0x8f else 0xbf), (0x80, 0xbf),
      (0x80, 0xbf)]
  else none

/-- How many bytes in a row stand in the ranges of their places. -/
def fitting : List (Nat × Nat) → List UInt8 → Nat
  | (first, last) :: ranges, byte :: bytes =>
      if first ≤ byte.toNat && byte.toNat ≤ last then fitting ranges bytes + 1 else 0
  | _, _ => 0

/-- The replacement character U+FFFD. -/
def replacement : List UInt8 := [0xef, 0xbf, 0xbd]

/-- Puts the replacement character for each beginning of a character that breaks off, and for each
byte that begins none. -/
def repair : List UInt8 → List UInt8
  | [] => []
  | byte :: rest =>
      match following? byte.toNat with
      | none => replacement ++ repair rest
      | some ranges =>
          let n := fitting ranges rest
          (if n = ranges.length then byte :: rest.take n else replacement) ++ repair (rest.drop n)
termination_by bytes => bytes.length
decreasing_by
  · exact Nat.lt_succ_self rest.length
  · exact Nat.lt_succ_of_le (by rw [List.length_drop]; exact Nat.sub_le ..)

end Utf8

end QueryNames.Encoding
