import KvClient.Decimal.Shortest

/-!
# Writing a floating-point number

A number of moderate size is written plainly, with at least one digit on either side of the point;
any other in scientific notation, without padding and with an explicit sign of the exponent.  Where
the one ends and the other begins is a `Layout`.
-/

namespace KvClient.Decimal

/-- The exponents of the leading digit between which a number is written plainly, inclusive. -/
structure Layout where
  lowest : Int
  highest : Int

/-- A numeral written with a decimal point. -/
def plain (n : Numeral) : List Char :=
  let ds := digits n.significand
  if 0 ≤ n.exponent then ds ++ List.replicate n.exponent.toNat '0' ++ ['.', '0']
  else
    let places := (-n.exponent).toNat
    if places < ds.length then ds.take (ds.length - places) ++ '.' :: ds.drop (ds.length - places)
    else '0' :: '.' :: (List.replicate (places - ds.length) '0' ++ ds)

/-- A numeral written with one digit in front of the point and the power of ten behind it. -/
def scientific (n : Numeral) (leading : Int) : List Char :=
  let mantissa := match digits n.significand with
    | [] => []
    | [d] => [d]
    | d :: ds => d :: '.' :: ds
  mantissa ++ 'e' :: (if leading < 0 then '-' else '+') :: digits leading.natAbs

/-- A numeral in the form that its size asks for. -/
def Layout.write (layout : Layout) (n : Numeral) : List Char :=
  let leading := n.exponent + Int.ofNat (digits n.significand).length - 1
  if layout.lowest ≤ leading ∧ leading ≤ layout.highest then plain n else scientific n leading

/-- A finite number. -/
def Layout.writeFloat (layout : Layout) (x : Float) : List Char :=
  let b := magnitude x
  let unsigned := if b.mantissa = 0 then ['0', '.', '0'] else layout.write b.shortest
  if isNegative x then '-' :: unsigned else unsigned

end KvClient.Decimal
