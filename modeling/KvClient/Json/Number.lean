import KvClient.Decimal.Layout

/-!
# JSON numbers

A number is an integer of at most 64 bits, signed or not, or a floating-point number.  Two numbers
are equal only if they are of the same kind, so `1` is not `1.0`.

* **An integer is written as its digits**: `text_integer`.
-/

namespace KvClient.Json

/-- The integers that are kept exactly. -/
def FitsInteger (n : Int) : Prop := -0x8000000000000000 ≤ n ∧ n < 0x10000000000000000

instance (n : Int) : Decidable (FitsInteger n) := inferInstanceAs (Decidable (_ ∧ _))

/-- A number of a document. -/
inductive Number
  | integer (n : Int) (fits : FitsInteger n)
  | real (x : Float)

namespace Number

/-- An integer, if it can be kept. -/
def ofInt? (n : Int) : Option Number := if h : FitsInteger n then some (.integer n h) else none

/-- Equality within one kind; floating-point numbers are compared by value. -/
def beq : Number → Number → Bool
  | .integer a _, .integer b _ => a == b
  | .real x, .real y => x == y
  | _, _ => false

instance : BEq Number := ⟨beq⟩

/-! ## Text -/

/-- Numbers from `0.00001` up to, not including, `1e+16` are written plainly. -/
def layout : Decimal.Layout := ⟨-5, 15⟩

/-- An integer in decimal. -/
def intText (n : Int) : List Char :=
  if n < 0 then '-' :: Decimal.digits n.natAbs else Decimal.digits n.natAbs

/-- A number as it stands in a document. -/
def text : Number → List Char
  | .integer n _ => intText n
  | .real x => layout.writeFloat x

theorem text_integer (n : Int) (h : FitsInteger n) : text (.integer n h) = intText n := rfl

end Number

end KvClient.Json
