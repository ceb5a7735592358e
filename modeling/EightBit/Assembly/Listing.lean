import EightBit.Assembly.Program

/-!
# Listings

A listing shows every line of a source that is not blank, and in front of each line that wrote
bytes their address and the first four of them. The bytes are those of the layout at the time of
listing, so later overwriting and patching shows.
-/

namespace EightBit.Layout

/-- Fills a text with spaces up to a width. -/
def padTo (width : Nat) (text : List Char) : List Char :=
  text ++ List.replicate (width - text.length) ' '

/-- The first four bytes in hexadecimal, and two points if there are more. -/
def shownBytes (bytes : List UInt8) : List Char :=
  let shown := [' '].intercalate ((bytes.take 4).map fun b => Numeral.hexByte b.toNat)
  if 4 < bytes.length then shown ++ [' ', '.', '.'] else shown

/-- The bytes from one address up to another. -/
def bytesBetween (layout : Layout) (start stop : Nat) : List UInt8 :=
  (List.range' start (stop - start)).map layout.byteAt

/-- The row of a line, unless the line is blank. -/
def row? (layout : Layout) (number : Nat) (line : Source.Line) : Option (List Char) :=
  let raw := Text.trimEnd line.raw
  let covered := (layout.segments.find? (·.line == number)).filter fun s => s.start < s.stop
  match covered with
  | some segment =>
    let bytes := shownBytes (layout.bytesBetween segment.start segment.stop)
    some ("  ".toList ++ Numeral.hexByte segment.start ++ "  ".toList ++ padTo 12 bytes ++
      "  ".toList ++ raw)
  | none => if raw.isEmpty then none else some (List.replicate 20 ' ' ++ raw)

/-- The two lines above the rows. -/
def listingHead : List (List Char) :=
  ["ADDR  ".toList ++ padTo 12 "BYTES".toList ++ "  SOURCE".toList, List.replicate 60 '-']

/-- The listing of a layout. -/
def listing (layout : Layout) : List Char :=
  let rows := (layout.lines.zipIdx 1).filterMap fun item => layout.row? item.2 item.1
  Text.joinLines (listingHead ++ rows)

end EightBit.Layout
