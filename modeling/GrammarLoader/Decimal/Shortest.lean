/-!
The shortest decimal of a binary floating-point number: the fewest digits that read back as the
number, and of those the nearest to it.

A finite number is `mantissa * 2 ^ exponent`. The reals that round to it form an interval; of all
grids `10 ^ k` the coarsest one with a point in that interval gives the digits.
-/

namespace GrammarLoader.Decimal

structure Binary where
  mantissa : Nat
  exponent : Int
  /-- Whether the next smaller number is only half as far away as the next larger one. -/
  lowest : Bool
  deriving DecidableEq, Repr

structure Digits where
  digits : Nat
  exponent : Int
  deriving DecidableEq, Repr

def Binary.ofBits (bits : UInt64) : Binary :=
  let fraction := (bits &&& 0xFFFFFFFFFFFFF).toNat
  let scale := ((bits >>> 52) &&& 0x7FF).toNat
  if scale = 0 then ⟨fraction, -1074, false⟩
  else ⟨fraction + 0x10000000000000, scale - 1075, fraction = 0 && 1 < scale⟩

/--
The best point of the grid `10 ^ k` among those that read back as `b`. Both neighbours of `b` on the
grid are tried; the nearer one wins, and of two equally near ones the even one. All quantities are
quarters of the last binary place, brought to a common denominator.
-/
def onGrid (b : Binary) (k : Int) : Option Nat :=
  let scale := Nat.pow 10 k.toNat * Nat.pow 2 (2 - b.exponent).toNat
  let quarter := Nat.pow 2 (b.exponent - 2).toNat * Nat.pow 10 (-k).toNat
  let value := 4 * b.mantissa * quarter
  let low := value - (if b.lowest then 1 else 2) * quarter
  let high := value + 2 * quarter
  let readsBack := fun d =>
    if b.mantissa % 2 = 0 then low ≤ d * scale && d * scale ≤ high
    else low < d * scale && d * scale < high
  let below := value / scale
  let above := below + 1
  let down := value - below * scale
  let up := above * scale - value
  match readsBack below, readsBack above with
  | false, false => none
  | true, false => some below
  | false, true => some above
  | true, true => some (if down < up ∨ down = up ∧ below % 2 = 0 then below else above)

def search (b : Binary) (k : Int) : Nat → Digits
  | 0 => ⟨b.mantissa, k⟩
  | count + 1 =>
    match onGrid b k with
    | some digits => ⟨digits, k⟩
    | none => search b (k - 1) count

/--
The fewest digits of a number. No number reaches `10 ^ 309`, and each has a point on `10 ^ -324`.
-/
def shortest (b : Binary) : Digits := search b 309 640

def exponentText (n : Int) : String := (if n < 0 then "-" else "+") ++ toString n.natAbs

structure Layout where
  most : Int
  zeros : Int

/--
Up to sixteen places stand before the point and up to four zeros behind it, else an exponent is
written, with its sign.
-/
def Layout.plain : Layout := ⟨16, 4⟩

/-- The text of a positive number. A point always has a digit on either side. -/
def Layout.render (layout : Layout) (d : Digits) : String :=
  let digits := Nat.toDigits 10 d.digits
  let point : Int := digits.length + d.exponent
  String.ofList <|
    if 0 ≤ d.exponent ∧ point ≤ layout.most then
      digits ++ List.replicate d.exponent.toNat '0' ++ ['.', '0']
    else if 0 < point ∧ point ≤ layout.most then
      digits.take point.toNat ++ ['.'] ++ digits.drop point.toNat
    else if -layout.zeros ≤ point ∧ point ≤ 0 then
      ['0', '.'] ++ List.replicate (-point).toNat '0' ++ digits
    else
      let fraction := digits.drop 1
      digits.take 1 ++ (if fraction.isEmpty then [] else '.' :: fraction) ++ ['e'] ++
        (exponentText (point - 1)).toList

def text (f : Float) : String :=
  if f.isNaN then "NaN"
  else
    let magnitude :=
      if f.isInf then "inf"
      else if f == 0 then "0.0"
      else Layout.plain.render (shortest (.ofBits f.toBits))
    if f.toBits >>> 63 = 1 then "-" ++ magnitude else magnitude

end GrammarLoader.Decimal
