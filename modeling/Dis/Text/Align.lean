/-!
# Alignment

Numbers and texts brought to a width.
-/
namespace Dis.Text

/-- A text moved right to at least `width` characters by blanks in front. -/
def alignRight (width : Nat) (s : String) : String :=
  String.ofList (List.replicate (width - s.length) ' ') ++ s

/-- A text brought to at least `width` characters by blanks behind it. -/
def alignLeft (width : Nat) (s : String) : String :=
  s ++ String.ofList (List.replicate (width - s.length) ' ')

/-- A natural number with zeros in front, to at least `width` digits. -/
def zeroPadded (width : Nat) (n : Nat) : String :=
  let digits := toString n
  String.ofList (List.replicate (width - digits.length) '0') ++ digits

/-- An integer with zeros in front, to at least `width` characters, the sign included. -/
def zeroPaddedInt (width : Nat) (n : Int) : String :=
  if n < 0 then "-" ++ zeroPadded (width - 1) n.natAbs else zeroPadded width n.natAbs

end Dis.Text
