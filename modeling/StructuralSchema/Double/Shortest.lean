import StructuralSchema.Double

namespace StructuralSchema

def Ratio.floorLog10 (r : Ratio) : Int :=
  if r.den ≤ r.num then ((Nat.toDigits 10 (r.num / r.den)).length : Int) - 1
  else
    let places := (Nat.toDigits 10 (r.den / r.num)).length
    if r.den ≤ r.num * Nat.pow 10 (places - 1) then 1 - (places : Int) else -(places : Int)

/-- The two multiples of `10 ^ unit` beside the ratio, as counts of that unit, the nearer first. -/
def Ratio.neighbours (r : Ratio) (unit : Int) : List Nat :=
  let s := r.scaled 10 (-unit)
  let near := s.rounded
  if near * s.den ≤ s.num then [near, near + 1] else [near, near - 1]

namespace Double

def isRead (x : Double) (unit : Int) (digits : Nat) : Bool :=
  (Ratio.scaled ⟨digits, 1⟩ 10 unit).magnitude == x.magnitude

/-- A count and a unit whose product is rounded to `x`. Seventeen digits are always enough. -/
def shortest (x : Double) : Nat × Int :=
  let top := x.abs.floorLog10
  let hit (size : Nat) : Option (Nat × Int) :=
    let unit := top - size
    ((x.abs.neighbours unit).find? (x.isRead unit)).map (·, unit)
  ((List.range 17).findSome? hit).getD (0, 0)

def decimal (x : Double) : List Char × Int :=
  let (count, unit) := x.shortest
  let digits := Nat.toDigits 10 count
  let trimmed := (digits.reverse.dropWhile (· = '0')).reverse
  (trimmed, unit + digits.length - 1)

/-- Places digits whose first stands at `10 ^ power`. Powers from -5 to 15 are written out, with a
digit at least after the point; all others with an exponent and its sign. -/
def placed (digits : List Char) (power : Int) : List Char :=
  if power < -5 ∨ 15 < power then
    let fraction := if digits.length ≤ 1 then [] else '.' :: digits.drop 1
    let sign := if power < 0 then '-' else '+'
    digits.take 1 ++ fraction ++ 'e' :: sign :: Nat.toDigits 10 power.natAbs
  else if power < 0 then
    '0' :: '.' :: List.replicate (power.natAbs - 1) '0' ++ digits
  else
    let size := power.toNat + 1
    let fraction := digits.drop size
    digits.take size ++ List.replicate (size - digits.length) '0' ++
      '.' :: (if fraction.isEmpty then ['0'] else fraction)

def text (x : Double) : List Char :=
  let sign := if x.negative then ['-'] else []
  if x.magnitude = 0 then sign ++ ['0', '.', '0']
  else
    let (digits, power) := x.decimal
    sign ++ placed digits power

end Double

end StructuralSchema
