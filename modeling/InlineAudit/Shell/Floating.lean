import InlineAudit.Shell.Text
import InlineAudit.Text.Decimal

/-!
Numbers with a point, as a shell script prints them.

* `Shell.Floating.fixed` — a number of places;
* `Shell.Floating.scientific` — one digit before the point, and a power of ten;
* `Shell.Floating.general` — a number of digits, in the shorter of the two ways;
* `Shell.Floating.hexadecimal` — hexadecimal digits and a power of two.

All roundings go to the nearest number, of two to the one whose last digit is even.
-/

namespace InlineAudit.Shell.Floating

/-- The integer nearest to a decimal number times a power of ten. -/
def scaled (d : Decimal) (power : Int) : Nat :=
  match d.exponent + power with
  | .ofNat e => d.coefficient * Nat.pow 10 e
  | .negSucc e => Decimal.roundedQuotient d.coefficient (Nat.pow 10 (e + 1))

/-- Digits of which some stand after the point, which is there if something follows it or if it is
asked for. -/
def pointed (places : Nat) (hasPoint : Bool) (n : Nat) : List Char :=
  let whole := decimal (n / Nat.pow 10 places)
  let fraction := decimal (n % Nat.pow 10 places)
  if places = 0 then whole ++ (if hasPoint then ['.'] else [])
  else whole ++ '.' :: List.replicate (places - fraction.length) '0' ++ fraction

/-- A number with some places after the point. -/
def fixed (places : Nat) (hasPoint : Bool) (d : Decimal) : List Char :=
  pointed places hasPoint (scaled d places)

/-- The power of ten of the first digit of a number that is rounded to some places after it, and its
digits. -/
def significand (places : Nat) (d : Decimal) : Int × Nat :=
  if d.coefficient = 0 then (0, 0)
  else
    let power := d.magnitude - 1
    let n := scaled d (places - power)
    if n < Nat.pow 10 (places + 1) then (power, n) else (power + 1, scaled d (places - power - 1))

/-- A power of ten, with at least two digits. -/
def powerText (letter : Char) (power : Int) : List Char :=
  let digits := decimal power.natAbs
  letter :: (if power < 0 then '-' else '+') :: List.replicate (2 - digits.length) '0' ++ digits

/-- A number with one digit before the point, and a power of ten. -/
def scientific (letter : Char) (places : Nat) (hasPoint : Bool) (d : Decimal) : List Char :=
  let (power, n) := significand places d
  pointed places hasPoint n ++ powerText letter power

/-- A text of digits without the zeros at its end, if there is a point in it. -/
def trimmed (cs : List Char) : List Char :=
  if cs.contains '.' then
    let cs := cs.reverse.dropWhile (· == '0')
    (if cs.head? == some '.' then cs.tail else cs).reverse
  else cs

/-- A number with some digits, in one way or the other: a power of ten is written where there are
more digits than asked for before the point, or more than four places before the first one. -/
def general (letter : Char) (precision : Nat) (hasPoint : Bool) (d : Decimal) : List Char :=
  let digits := max 1 precision
  let (power, n) := significand (digits - 1) d
  let shorten (cs : List Char) : List Char := if hasPoint then cs else trimmed cs
  if -4 ≤ power && power < digits then
    shorten (fixed (digits - 1 - power).toNat hasPoint d)
  else shorten (pointed (digits - 1) hasPoint n) ++ powerText letter power

/-- A number times a power of two, in decimal. -/
def ofBinary (n : Nat) (power : Int) : Decimal :=
  match power with
  | .ofNat e => ⟨n * Nat.pow 2 (min e 2048), 0⟩
  | .negSucc e =>
    let e := min (e + 1) 4096
    ⟨n * Nat.pow 5 e, -(e : Int)⟩

/-- The number whose hexadecimal digits begin a text, and what follows it. -/
def readHexadecimal? (cs : List Char) : Option (Decimal × List Char) :=
  let isHex (c : Char) : Bool := (digitValue? c).isSome
  let whole := cs.takeWhile isHex
  let rest := cs.drop whole.length
  let (fraction, rest) := match rest with
    | '.' :: more => (more.takeWhile isHex, more.dropWhile isHex)
    | _ => ([], rest)
  let value := (whole ++ fraction).foldl (fun n c => 16 * n + (digitValue? c).getD 0) 0
  let (power, rest) : Int × List Char := match rest with
    | p :: more =>
      let (negative, ds) := match more with
        | '-' :: ds => (true, ds)
        | '+' :: ds => (false, ds)
        | ds => (false, ds)
      let n : Int := Decimal.natOfDigits (ds.takeWhile Char.isDigit)
      if (p == 'p' || p == 'P') && ds.head?.any Char.isDigit then
        (if negative then -n else n, ds.dropWhile Char.isDigit)
      else (0, rest)
    | [] => (0, rest)
  if whole.isEmpty && fraction.isEmpty then none
  else some (ofBinary value (power - 4 * fraction.length), rest)

/-- A double as an odd number, or zero, times a power of two. -/
def binary (d : Decimal) : Nat × Int :=
  let (n, power) : Nat × Int := match d.exponent with
    | .ofNat e => (d.coefficient * Nat.pow 10 e, 0)
    | .negSucc e => (d.coefficient / Nat.pow 5 (e + 1), .negSucc e)
  if n = 0 then (0, 0)
  else
    let zeros := ((List.range (n.log2 + 1)).find? fun k => n.testBit k).getD 0
    (n / Nat.pow 2 zeros, power + zeros)

/-- A number as hexadecimal digits, the first of which is a one, and a power of two; as many digits
as are needed, unless their number is given. -/
def hexadecimal (precision : Option Nat) (hasPoint : Bool) (d : Decimal) : List Char :=
  let (n, power) := binary d
  let needed := (n.log2 + 3) / 4
  let places := precision.getD needed
  let digits :=
    if needed ≤ places then n * Nat.pow 2 (4 * places - n.log2)
    else Decimal.roundedQuotient (n * Nat.pow 2 (4 * needed - n.log2))
      (Nat.pow 16 (needed - places))
  let fraction := Nat.toDigits 16 (digits % Nat.pow 16 places)
  let point := if places = 0 then (if hasPoint then ['.'] else [])
    else '.' :: List.replicate (places - fraction.length) '0' ++ fraction
  let total := power + n.log2
  "0x".toList ++ decimal (digits / Nat.pow 16 places) ++ point ++ 'p' ::
    (if total < 0 then '-' else '+') :: decimal total.natAbs

end InlineAudit.Shell.Floating
