import QueryNames.Encoding.Utf16
import QueryNames.Encoding.Utf8
import QueryNames.Encoding.Windows1252

/-!
The text of a query file. Bytes that are not UTF-8 are in the encoding that a byte order mark in
front of them tells, and otherwise in Windows-1252.
-/

namespace QueryNames.Encoding

/-- A text in an encoding other than UTF-8. -/
def fallback? : List UInt8 → Option String
  | 0xef :: 0xbb :: 0xbf :: rest => utf8? rest
  | 0xff :: 0xfe :: rest => Utf16.decode? .littleEndian rest
  | 0xfe :: 0xff :: rest => Utf16.decode? .bigEndian rest
  | bytes => some (Windows1252.decode bytes)

/-- Cuts off one byte order mark at the front. -/
def dropMark (text : String) : String :=
  match text.toList with
  | '\ufeff' :: rest => String.ofList rest
  | _ => text

theorem dropMark_of_head? {text : String} (other : text.toList.head? ≠ some '\ufeff') :
    dropMark text = text := by
  unfold dropMark
  split
  · rename_i begins
    rw [begins] at other
    contradiction
  · rfl

theorem dropMark_of_chars {text : String} {c : Char} {rest : List Char}
    (same : text.toList = c :: rest) (other : c ≠ '\ufeff') : dropMark text = text := by
  apply dropMark_of_head?
  rw [same]
  exact fun is => other (Option.some.inj is)

theorem dropMark_mark (text : List Char) :
    dropMark (String.ofList ('\ufeff' :: text)) = String.ofList text := by
  rw [dropMark, String.toList_ofList]
  rfl

def queryText? (bytes : List UInt8) : Option String :=
  ((utf8? bytes).or (fallback? bytes)).map dropMark

end QueryNames.Encoding
