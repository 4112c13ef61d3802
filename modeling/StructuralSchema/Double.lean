namespace StructuralSchema

-- Powers are those of the core library, in every module and whatever other powers it can see.
attribute [default_instance 20000] instPowNat

structure Ratio where
  num : Nat
  den : Nat

namespace Ratio

def scaled (r : Ratio) (base : Nat) (power : Int) : Ratio :=
  if 0 ≤ power then ⟨r.num * base.pow power.toNat, r.den⟩
  else ⟨r.num, r.den * base.pow (-power).toNat⟩

/-- The greatest power of two that is not above a positive ratio. -/
def floorLog2 (r : Ratio) : Int :=
  let k := (r.num.log2 : Int) - r.den.log2
  let unit := Ratio.scaled ⟨1, 1⟩ 2 k
  if r.den * unit.num ≤ r.num * unit.den then k else k - 1

/-- The nearest natural number, of two the even one. -/
def rounded (r : Ratio) : Nat :=
  let q := r.num / r.den
  let twice := 2 * (r.num % r.den)
  if twice < r.den ∨ twice = r.den ∧ q % 2 = 0 then q else q + 1

/-- The bit pattern of the nearest binary64 number. Below `2 ^ 52` it counts steps of `2 ^ -1074`;
from there on each block of `2 ^ 52` patterns has steps twice those of the block before it, and a
significand rounded up to the next block is the first pattern of that block. -/
def magnitude (r : Ratio) : Nat :=
  if r.num = 0 then 0
  else
    let step := max (-1074) (r.floorLog2 - 52)
    (step + 1074).toNat * 2 ^ 52 + (r.scaled 2 (-step)).rounded

end Ratio

/-- A finite binary64 number: its sign, and its bit pattern without the sign. -/
structure Double where
  negative : Bool
  magnitude : Nat
  finite : magnitude < 0x7ff * 2 ^ 52
  deriving DecidableEq

namespace Double

def significand (x : Double) : Nat :=
  if x.magnitude < 2 ^ 52 then x.magnitude else 2 ^ 52 + x.magnitude % 2 ^ 52

/-- Without its sign, the number is its significand times two to this power. -/
def exponent (x : Double) : Int :=
  if x.magnitude < 2 ^ 52 then -1074 else ((x.magnitude / 2 ^ 52 : Nat) : Int) - 1075

def abs (x : Double) : Ratio :=
  Ratio.scaled ⟨x.significand, 1⟩ 2 x.exponent

def zero (negative : Bool) : Double := ⟨negative, 0, by decide⟩

def ofRatio? (negative : Bool) (r : Ratio) : Option Double :=
  if h : r.magnitude < 0x7ff * 2 ^ 52 then some ⟨negative, r.magnitude, h⟩ else none

def mul? (x y : Double) : Option Double :=
  ofRatio? (x.negative != y.negative) ⟨x.abs.num * y.abs.num, x.abs.den * y.abs.den⟩

def div? (x y : Double) : Option Double :=
  ofRatio? (x.negative != y.negative) ⟨x.abs.num * y.abs.den, x.abs.den * y.abs.num⟩

def powerOfTen? (power : Nat) : Option Double :=
  ofRatio? false ⟨Nat.pow 10 power, 1⟩

end Double

end StructuralSchema
