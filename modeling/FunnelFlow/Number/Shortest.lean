import FunnelFlow.Number.Double

/-!
The text of a double: the fewest digits that read back as the same number, and of those the
nearest to it. Positional from `0.0001` up to below `10 ^ 16`, with an exponent elsewhere.
-/

namespace FunnelFlow.Double

def floorLog10 (num den : Nat) : Int :=
  let k : Int := (Text.digits num).length - (Text.digits den).length
  if den * Nat.pow 10 k.toNat ≤ num * Nat.pow 10 (-k).toNat then k else k - 1

/-- The decimal on the grid of `10 ^ power` that is nearest to `num / den` among its two
neighbours that read back as `x`. -/
def onGrid? (x : Double) (num den : Nat) (power : Int) : Option Nat :=
  let num := num * Nat.pow 10 (-power).toNat
  let den := den * Nat.pow 10 power.toNat
  let low := num / den
  let near := nearest num den
  let far := if near = low then low + 1 else low
  [near, far].find? fun d => ofDecimal false d power == x

def dropZeros : Nat → Nat → Int → Nat × Int
  | 0, d, power => (d, power)
  | fuel + 1, d, power =>
    if d ≠ 0 ∧ d % 10 = 0 then dropZeros fuel (d / 10) (power + 1) else (d, power)

/-- The shortest decimal `d · 10 ^ p` that reads back as the positive number `m · 2 ^ e`. -/
def shortest (m : Nat) (e : Int) : Nat × Int :=
  let num := m * Nat.pow 2 e.toNat
  let den := Nat.pow 2 (-e).toNat
  let top := floorLog10 num den
  let found := (List.range 17).findSome? fun (n : Nat) =>
    (onGrid? (.finite false m e) num den (top - n)).map fun d => (d, top - n)
  match found with
  | some (d, power) => dropZeros 20 d power
  | none => (0, 0)

/-- Digits with a point after the first `place` of them, at least one digit on each side. -/
def pointed (ds : List Char) (place : Int) : List Char :=
  if place ≤ 0 then '0' :: '.' :: List.replicate (-place).toNat '0' ++ ds
  else
    let whole := ds.take place.toNat
    let rest := ds.drop place.toNat
    whole ++ List.replicate (place.toNat - whole.length) '0' ++ '.' ::
      (if rest.isEmpty then ['0'] else rest)

/-- Digits with an exponent, written with a sign and at least two digits. -/
def scientific (ds : List Char) (power : Int) : List Char :=
  let mantissa := match ds with
    | d :: [] => [d]
    | d :: rest => d :: '.' :: rest
    | [] => []
  mantissa ++ 'e' :: (if power < 0 then '-' else '+') :: Text.padded 2 power.natAbs

def magnitudeText (m : Nat) (e : Int) : List Char :=
  if m = 0 then ['0', '.', '0']
  else
    let (d, power) := shortest m e
    let ds := Text.digits d
    let top := power + ds.length - 1
    if -4 ≤ top ∧ top < 16 then pointed ds (top + 1) else scientific ds top

def text : Double → String
  | .nan => "nan"
  | .infinite negative => if negative then "-inf" else "inf"
  | .finite negative m e =>
    String.ofList ((if negative then ['-'] else []) ++ magnitudeText m e)

end FunnelFlow.Double
