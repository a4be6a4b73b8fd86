import GrammarLoader.Layout.Scanner

/-!
A snapshot is a scanner as bytes, for a parser that backs up and scans again: the pending tokens,
the flag, and the width of each open block from the outermost on, in two bytes, the low one first.
-/

namespace GrammarLoader.Layout.Scanner

/-- The most bytes that a snapshot takes. -/
def maxSnapshot : Nat := 1024

/-- The two bytes of a width, the low one first. -/
def widthBytes (w : UInt16) : List UInt8 := [w.toUInt8, (w >>> 8).toUInt8]

def widthOfBytes (low high : UInt8) : UInt16 := low.toUInt16 ||| (high.toUInt16 <<< 8)

/--
The snapshot that fits into `size` bytes. Blocks that do not fit are left out, inner ones first.
-/
def serialize (s : Scanner) (size : Nat) : List UInt8 :=
  let size := min size maxSnapshot
  if size < 2 then []
  else
    UInt8.ofNat (min 255 s.pending.toNat) :: s.finalNewline.toUInt8 ::
      (s.levels.reverse.take ((size - 2) / 2)).flatMap widthBytes

def writeTo (s : Scanner) (buffer : List UInt8) : Nat × List UInt8 :=
  let bytes := s.serialize buffer.length
  (bytes.length, bytes ++ buffer.drop bytes.length)

/-- The widths that a list of bytes spells. A byte left over at the end counts for nothing. -/
def widthsOfBytes : List UInt8 → List UInt16
  | low :: high :: rest => widthOfBytes low high :: widthsOfBytes rest
  | _ => []

/-- The scanner of a snapshot. Fewer than two bytes stand for the initial one. -/
def deserialize (bytes : List UInt8) : Scanner :=
  match bytes.take maxSnapshot with
  | pending :: flag :: widths =>
    ⟨(widthsOfBytes widths).reverse, pending.toUInt16, flag != 0⟩
  | _ => initial

end GrammarLoader.Layout.Scanner
