/-
The NPY file format, for one-dimensional arrays of signed 64-bit words.
A file is a magic text, a version, the length of a header, the header,
and the words, lowest byte first. The header is padded with blanks and
ends in a line feed, so that the words start at a multiple of 64.
-/
import DiceNotation.Decimal

namespace DiceNotation.Npy

/-- The eight bytes a file starts with: the magic text and version
1.0. -/
def magic : List UInt8 :=
  [0x93, 0x4e, 0x55, 0x4d, 0x50, 0x59, 1, 0]

/-- The header of an array of so many words, not padded. -/
def header (count : Nat) : String :=
  "\x7b'descr': '<i8', 'fortran_order': False, 'shape': ("
    ++ String.ofList (Decimal.ofNat count) ++ ",), \x7d"

/-- The header with its padding: with the ten bytes before it, its
length is a multiple of 64. -/
def paddedHeader (count : Nat) : String :=
  let text := header count
  let blanks := 63 - (text.length + 10) % 64
  text ++ String.ofList (List.replicate blanks ' ') ++ "\n"

/-- The lowest bytes of a number, so many of them, the lowest first. -/
def lowBytes : Nat → Nat → List UInt8
  | 0, _ => []
  | count + 1, n => UInt8.ofNat n :: lowBytes count (n / 256)

/-- The file of an array. -/
def encode (cells : Array Int64) : ByteArray :=
  let header := paddedHeader cells.size
  let start : ByteArray :=
    ⟨(magic ++ lowBytes 2 header.length).toArray⟩ ++ header.toUTF8
  cells.foldl
    (fun bytes cell =>
      (lowBytes 8 cell.toUInt64.toNat).foldl ByteArray.push bytes)
    start

end DiceNotation.Npy
