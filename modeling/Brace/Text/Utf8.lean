/-
# Ranges of code points in UTF-8

The code points of a range are written as bytes in several lengths, and those of one length need
not fill whole blocks.  A range is therefore cut into parts, each of which is one range of bytes
per place: a code point belongs to the part exactly if every byte of it lies in the range of its
place.
-/

namespace Brace.Text.Utf8

/-- A range of bytes for every place. -/
abbrev ByteRanges := List (Nat × Nat)

/-- The number of values of a byte behind the first one. -/
def tailValues : Nat := 64

/-- What is added to the value of a byte behind the first one. -/
def tailMark : Nat := 0x80

/-- Numbers whose first digits lie in one range and whose remainders lie in another. -/
structure Slab where
  /-- The range of the first digits. -/
  digits : Nat × Nat
  /-- The range of the remainders. -/
  rest : Nat × Nat
  deriving DecidableEq, Repr

/-- Cuts the range from `first` to `last` into slabs, where a first digit stands for a block of
`size` numbers: a slab for the whole blocks, and one in front of it and one behind it for those of
which only a part belongs to the range. -/
def slabs (size first last : Nat) : List Slab :=
  let low := first / size
  let high := last / size
  if low = high then [⟨(low, high), (first % size, last % size)⟩]
  else
    let below := if first % size = 0 then low else low + 1
    let above := if last % size = size - 1 then high + 1 else high
    (if low < below then [⟨(low, low), (first % size, size - 1)⟩] else []) ++
    (if below < above then [⟨(below, above - 1), (0, size - 1)⟩] else []) ++
    (if above = high then [⟨(high, high), (0, last % size)⟩] else [])

/-- Cuts the range from `first` to `last`, whose members are written as a first byte, marked by
`mark`, and `tails` bytes behind it. -/
def cut (mark : Nat) : Nat → Nat → Nat → List ByteRanges
  | 0, first, last => [[(mark + first, mark + last)]]
  | tails + 1, first, last =>
    (slabs (tailValues.pow (tails + 1)) first last).flatMap fun s =>
      (cut tailMark tails s.rest.1 s.rest.2).map ((mark + s.digits.1, mark + s.digits.2) :: ·)

/-- Code points that are written with equally many bytes. -/
structure Width where
  /-- The first code point. -/
  first : Nat
  /-- The last code point. -/
  last : Nat
  /-- What marks the first byte. -/
  mark : Nat
  /-- The number of bytes behind the first one. -/
  tails : Nat
  deriving DecidableEq, Repr

/-- All code points by their widths; surrogates are not written. -/
def widths : List Width :=
  [⟨0, 0x7F, 0, 0⟩, ⟨0x80, 0x7FF, 0xC0, 1⟩, ⟨0x800, 0xD7FF, 0xE0, 2⟩,
   ⟨0xE000, 0xFFFF, 0xE0, 2⟩, ⟨0x10000, 0x10FFFF, 0xF0, 3⟩]

/-- The parts of a range of code points, in ascending order. -/
def ofRange (r : Nat × Nat) : List ByteRanges :=
  widths.flatMap fun w =>
    let first := max r.1 w.first
    let last := min r.2 w.last
    if first ≤ last then cut w.mark w.tails first last else []

/-! ## Shared beginnings -/

/-- The number of places in which two lists begin alike. -/
def sharedLength : ByteRanges → ByteRanges → Nat
  | b :: bs, c :: cs => if b = c then sharedLength bs cs + 1 else 0
  | _, _ => 0

/-- The number of places of a list of parts, where places that a part shares with the part in front
count once; `before` stands in front of the list. -/
def places (before : ByteRanges) : List ByteRanges → Nat
  | [] => 0
  | bs :: rest => bs.length - sharedLength before bs + places bs rest

end Brace.Text.Utf8
