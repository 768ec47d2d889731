import QueryNames.Files.QueryFile

/-!
Query files that hold an encoded text. Main statement: a file is read as the text that its bytes
encode, in UTF-8 with a byte order mark or without, or in Windows-1252.
-/

namespace QueryNames

namespace Encoding

namespace Windows1252

/-- The byte of a character, if it has one. -/
def byte? (c : Char) : Option UInt8 :=
  match upperControls.idxOf? c with
  | some i => some (.ofNat (0x80 + i))
  | none =>
      if c.toNat < 0x80 ∨ 0xa0 ≤ c.toNat ∧ c.toNat < 0x100 then some (.ofNat c.toNat) else none

def encode? (text : String) : Option (List UInt8) := text.toList.mapM byte?

/-- What holds of the first 256 numbers holds of all bytes. -/
theorem forall_byte {p : UInt8 → Prop} (all : ∀ n < 256, p (.ofNat n)) (byte : UInt8) : p byte := by
  rw [← UInt8.ofNat_toNat (x := byte)]
  exact all _ byte.toNat_lt

theorem byte?_char : ∀ byte, byte? (char byte) = some byte :=
  forall_byte (by decide +kernel)

theorem char_ofNat {n : Nat} (small : n < 256) : char (.ofNat n) =
    if 0x80 ≤ n then upperControls[n - 0x80]?.getD (Char.ofNat n) else Char.ofNat n := by
  rw [char, UInt8.toNat_ofNat_of_lt' small]

theorem char_of_byte? {c : Char} {byte : UInt8} (found : byte? c = some byte) : char byte = c := by
  have length : upperControls.length = 32 := rfl
  unfold byte? at found
  split at found
  · rename_i i place
    cases found
    obtain ⟨inside, here, -⟩ := List.idxOf?_eq_some_iff.1 place
    rw [char_ofNat (by omega), if_pos (Nat.le_add_right ..), Nat.add_sub_cancel_left,
      List.getElem?_eq_getElem inside, here]
    rfl
  · split at found <;> cases found
    rename_i latin
    have outside : 0x80 ≤ c.toNat → upperControls[c.toNat - 0x80]? = none := by
      intro upper
      apply List.getElem?_eq_none
      omega
    rw [char_ofNat (by omega), Char.ofNat_toNat]
    split
    · rename_i upper
      rw [outside upper]
      rfl
    · rfl

/-- The character of a byte has no other byte. -/
theorem byte?_eq_some_iff {c : Char} {byte : UInt8} : byte? c = some byte ↔ char byte = c := by
  constructor
  · exact char_of_byte?
  · rintro rfl
    exact byte?_char byte

theorem encode?_eq_some_iff {text : String} {bytes : List UInt8} :
    encode? text = some bytes ↔ decode bytes = text := by
  rw [decode, encode?, ← String.toList_inj, String.toList_ofList]
  induction text.toList generalizing bytes with
  | nil => simp [eq_comm]
  | cons c text ih =>
      simp only [List.mapM_cons, Option.bind_eq_bind, Option.bind_eq_some_iff, Option.pure_def,
        Option.some.injEq, byte?_eq_some_iff, ih, List.map_eq_cons_iff]
      constructor
      · rintro ⟨byte, own, bytes, others, rfl⟩
        exact ⟨byte, bytes, rfl, own, others⟩
      · rintro ⟨byte, bytes, rfl, own, others⟩
        exact ⟨byte, own, bytes, others, rfl⟩

/-- The texts over the characters of the table have bytes, and no others. -/
theorem exists_encode?_iff {text : String} :
    (∃ bytes, encode? text = some bytes) ↔ ∀ c ∈ text.toList, ∃ byte, char byte = c := by
  simp only [encode?_eq_some_iff, decode, ← String.toList_inj, String.toList_ofList]
  generalize text.toList = chars
  constructor
  · rintro ⟨bytes, rfl⟩ c member
    obtain ⟨byte, -, own⟩ := List.mem_map.1 member
    exact ⟨byte, own⟩
  · intro known
    induction chars with
    | nil => exact ⟨[], rfl⟩
    | cons c chars ih =>
        obtain ⟨⟨byte, rfl⟩, others⟩ := List.forall_mem_cons.1 known
        obtain ⟨bytes, rfl⟩ := ih others
        exact ⟨byte :: bytes, rfl⟩

theorem char_ne_mark : ∀ byte, char byte ≠ '\ufeff' :=
  forall_byte (by decide +kernel)

theorem dropMark_decode (bytes : List UInt8) : dropMark (decode bytes) = decode bytes := by
  apply dropMark_of_head?
  cases bytes with
  | nil => nofun
  | cons byte bytes =>
      rw [decode, String.toList_ofList]
      exact fun is => char_ne_mark byte (Option.some.inj is)

end Windows1252

def Utf8.mark : List UInt8 := [0xef, 0xbb, 0xbf]

/-- The byte order marks of UTF-8 and of both orders of UTF-16. -/
def marks : List (List UInt8) := [Utf8.mark, [0xff, 0xfe], [0xfe, 0xff]]

theorem mark_append_toUTF8 (text : String) :
    Utf8.mark ++ text.toUTF8.toList = (String.ofList ('\ufeff' :: text.toList)).toUTF8.toList := by
  rw [toList_toUTF8, toList_toUTF8, String.toList_ofList, List.flatMap_cons]
  rfl

/-- Bytes without a mark, if they are not UTF-8, are in Windows-1252. -/
theorem fallback?_of_unmarked {bytes : List UInt8} (unmarked : ∀ mark ∈ marks, ¬ mark <+: bytes) :
    fallback? bytes = some (Windows1252.decode bytes) := by
  unfold fallback?
  split
  · exact absurd (List.prefix_append Utf8.mark _) (unmarked _ (by decide))
  · exact absurd (List.prefix_append [0xff, 0xfe] _) (unmarked _ (by decide))
  · exact absurd (List.prefix_append [0xfe, 0xff] _) (unmarked _ (by decide))
  · rfl

variable {text : String} {bytes : List UInt8}

theorem queryText?_toUTF8 (text : String) :
    queryText? text.toUTF8.toList = some (dropMark text) := by
  rw [queryText?, utf8?_toUTF8]
  rfl

/-- One mark is dropped, whatever is behind it. -/
theorem queryText?_marked (text : String) :
    queryText? (Utf8.mark ++ text.toUTF8.toList) = some text := by
  rw [mark_append_toUTF8, queryText?_toUTF8, dropMark_mark, String.ofList_toList]

theorem queryText?_of_windows1252 (encoded : Windows1252.encode? text = some bytes)
    (other : ∀ text : String, text.toUTF8.toList ≠ bytes)
    (unmarked : ∀ mark ∈ marks, ¬ mark <+: bytes) : queryText? bytes = some text := by
  have noUtf8 : utf8? bytes = none := by
    rw [Option.eq_none_iff_forall_ne_some]
    exact fun text read => other text (utf8?_eq_some_iff.1 read)
  rw [queryText?, noUtf8, fallback?_of_unmarked unmarked, Option.none_or, Option.map_some,
    Windows1252.dropMark_decode, Windows1252.encode?_eq_some_iff.1 encoded]

end Encoding

namespace Files

open Encoding

/-- A text is read back from its bytes in UTF-8, with a byte order mark and without, and from its
bytes in Windows-1252 if these are not the bytes of some text in UTF-8 and begin with no mark. -/
theorem queryText_of_encoded (files : FileSystem) (path text : String) :
    (text.toList.head? ≠ some '\ufeff' → ∀ mark ∈ [[], Utf8.mark],
      files path = some (.file (mark ++ text.toUTF8.toList)) →
        queryText files path = .ok text) ∧
    ((∀ c ∈ text.toList, ∃ byte, Windows1252.char byte = c) →
      ∃ bytes, Windows1252.encode? text = some bytes ∧
        ((∀ other : String, other.toUTF8.toList ≠ bytes) → (∀ mark ∈ marks, ¬ mark <+: bytes) →
          files path = some (.file bytes) → queryText files path = .ok text)) := by
  constructor
  · intro unmarked mark choice isFile
    rw [queryText_eq_ok_iff]
    refine ⟨_, isFile, ?_⟩
    rcases List.mem_cons.1 choice with rfl | choice
    · rw [List.nil_append, queryText?_toUTF8, dropMark_of_head? unmarked]
    · rw [List.mem_singleton.1 choice]
      exact queryText?_marked text
  · intro known
    obtain ⟨bytes, encoded⟩ := Windows1252.exists_encode?_iff.2 known
    refine ⟨bytes, encoded, fun other unmarked isFile => ?_⟩
    rw [queryText_eq_ok_iff]
    exact ⟨bytes, isFile, queryText?_of_windows1252 encoded other unmarked⟩

/-- The letter é takes two bytes in UTF-8, and in Windows-1252 one that UTF-8 does not know. -/
theorem queryText_of_encoded_accent :
    (∀ mark ∈ [[], Utf8.mark],
      queryText (fun _ => some (.file (mark ++ [0x63, 0x61, 0x66, 0xc3, 0xa9]))) "query.sql" =
        .ok "café") ∧
    queryText (fun _ => some (.file [0x63, 0x61, 0x66, 0xe9])) "query.sql" = .ok "café" := by
  constructor
  · intro mark choice
    have bytes : [0x63, 0x61, 0x66, 0xc3, 0xa9] = "café".toUTF8.toList := by
      rw [toList_toUTF8]
      decide
    rw [bytes]
    exact (queryText_of_encoded _ "query.sql" "café").1 (by decide) mark choice rfl
  · have encoded : Windows1252.encode? "café" = some [0x63, 0x61, 0x66, 0xe9] := by decide
    have known := Windows1252.exists_encode?_iff.1 ⟨_, encoded⟩
    obtain ⟨bytes, own, read⟩ := (queryText_of_encoded
      (fun _ => some (.file [0x63, 0x61, 0x66, 0xe9])) "query.sql" "café").2 known
    cases own.symm.trans encoded
    refine read ?_ (by decide) rfl
    intro other is
    have noUtf8 : utf8? [0x63, 0x61, 0x66, 0xe9] = none := by decide +kernel
    rw [utf8?_eq_some_iff.2 is] at noUtf8
    cases noUtf8

end Files

end QueryNames
