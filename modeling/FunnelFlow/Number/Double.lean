import FunnelFlow.Text.Digit

/-!
Binary floating point numbers of double precision, kept as exact values: a finite number is a
signed mantissa times a power of two. Numbers are made by rounding a ratio to the nearest double,
a half going to the even neighbour, and are otherwise only compared.
-/

namespace FunnelFlow

inductive Double where
  | nan
  | infinite (negative : Bool)
  | finite (negative : Bool) (mantissa : Nat) (exponent : Int)
  deriving DecidableEq, Repr, Inhabited

namespace Double

def minExponent : Int := -1074
def maxExponent : Int := 971
def precision : Nat := 53

def zero : Double := .finite false 0 minExponent

/-- The integer nearest to a ratio, the even one of two. -/
def nearest (num den : Nat) : Nat :=
  let q := num / den
  let twice := 2 * (num % den)
  if twice < den then q
  else if den < twice then q + 1
  else q + q % 2

def scaleRatio (num den : Nat) (power : Int) : Nat × Nat :=
  (num * Nat.pow 2 power.toNat, den * Nat.pow 2 (-power).toNat)

def floorLog2 (num den : Nat) : Int :=
  let k : Int := num.log2 - den.log2
  let scaled := scaleRatio num den (-k)
  if scaled.2 ≤ scaled.1 then k else k - 1

def ofRatio (negative : Bool) (num den : Nat) : Double :=
  if num = 0 then .finite negative 0 minExponent
  else
    let e := max (floorLog2 num den - (precision - 1)) minExponent
    let scaled := scaleRatio num den (-e)
    let m := nearest scaled.1 scaled.2
    let (m, e) := if m = Nat.pow 2 precision then (Nat.pow 2 (precision - 1), e + 1) else (m, e)
    if maxExponent < e then .infinite negative else .finite negative m e

/-- The double nearest to `n · 10 ^ power`. Far outside the range of doubles the power of ten is
not computed. -/
def ofDecimal (negative : Bool) (n : Nat) (power : Int) : Double :=
  let size : Int := (Text.digits n).length
  if n = 0 ∨ size + power < -330 then .finite negative 0 minExponent
  else if 330 < size + power then .infinite negative
  else ofRatio negative (n * Nat.pow 10 power.toNat) (Nat.pow 10 (-power).toNat)

def ofInt? (n : Int) : Option Double :=
  match ofRatio (n < 0) n.natAbs 1 with
  | .finite s m e => some (.finite s m e)
  | _ => none

/-- The signed mantissa of a finite number once its exponent is lowered by `drop`. -/
def lowered (negative : Bool) (mantissa drop : Nat) : Int :=
  let n : Int := mantissa * Nat.pow 2 drop
  if negative then -n else n

def lt : Double → Double → Bool
  | .nan, _ => false
  | _, .nan => false
  | .infinite s, .infinite t => s && !t
  | .infinite s, .finite .. => s
  | .finite .., .infinite t => !t
  | .finite s m e, .finite t n f =>
    lowered s m (e - f).toNat < lowered t n (f - e).toNat

/-- Equality of values: no number equals nan, and the two zeros are equal. -/
def eq : Double → Double → Bool
  | .infinite s, .infinite t => s == t
  | .finite s m e, .finite t n f =>
    lowered s m (e - f).toNat == lowered t n (f - e).toNat
  | _, _ => false

/-- Whether numbers are equal, or one and the same: nan equals no number, but it is the same as
itself. -/
def same (x y : Double) : Bool := x.eq y || x == y

def isZero : Double → Bool
  | .finite _ m _ => m == 0
  | _ => false

def isFinite : Double → Bool
  | .finite .. => true
  | _ => false

def ratio? : Double → Option (Int × Nat)
  | .finite s m e => some (lowered s m e.toNat, Nat.pow 2 (-e).toNat)
  | _ => none

def toInt? (x : Double) : Option Int :=
  x.ratio?.bind fun (num, den) => if num % den = 0 then some (num / den) else none

end Double

end FunnelFlow
