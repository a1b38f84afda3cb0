/-!
Digits, and decimal numbers as they are written.

* `digitValue?`, `lowerDigit`, `upperDigit` — digits in bases up to sixteen;
* `Decimal.read?` — digits with a point and an exponent, both optional;
* `Decimal.isFinite` — the nearest binary floating point number of 64 bits is no infinity;
* `Decimal.roundToDouble` — the nearest double of a natural number;
* `Decimal.double?` — the nearest double of a decimal number, in decimal again.

Design notes: the comparison is exact.  The nearest double is an infinity from halfway between the
greatest double and the next power of two.
-/

namespace InlineAudit

/-- The value of a digit; letters of both cases count from ten. -/
def digitValue? (c : Char) : Option Nat :=
  if '0' ≤ c ∧ c ≤ '9' then some (c.toNat - 48)
  else if 'a' ≤ c ∧ c ≤ 'f' then some (c.toNat - 87)
  else if 'A' ≤ c ∧ c ≤ 'F' then some (c.toNat - 55)
  else none

/-- The digit of a value below sixteen, in lowercase. -/
def lowerDigit (n : Nat) : Char :=
  if n < 10 then Char.ofNat (48 + n) else Char.ofNat (87 + n)

/-- The digit of a value below sixteen, in uppercase. -/
def upperDigit (n : Nat) : Char :=
  if n < 10 then Char.ofNat (48 + n) else Char.ofNat (55 + n)

/-- A natural number times a power of ten. -/
structure Decimal where
  coefficient : Nat
  exponent : Int
  deriving Repr, DecidableEq

namespace Decimal

/-- The value of a run of digits. -/
def natOfDigits (ds : List Char) : Nat :=
  ds.foldl (fun n d => 10 * n + (d.toNat - 48)) 0

/-- The value of an exponent, if the end of a number is one or is empty. -/
def exponent? : List Char → Option Int
  | [] => some 0
  | e :: cs =>
    let (negative, ds) := match cs with
      | '+' :: ds => (false, ds)
      | '-' :: ds => (true, ds)
      | ds => (false, ds)
    if (e == 'e' || e == 'E') && !ds.isEmpty && ds.all Char.isDigit then
      some (if negative then -(natOfDigits ds : Int) else natOfDigits ds)
    else none

/-- The value of a number without sign: there is at least one digit before or after the point. -/
def read? (cs : List Char) : Option Decimal :=
  let whole := cs.takeWhile Char.isDigit
  let (fraction, tail) :=
    match cs.dropWhile Char.isDigit with
    | '.' :: rest => (rest.takeWhile Char.isDigit, rest.dropWhile Char.isDigit)
    | rest => ([], rest)
  if whole.isEmpty && fraction.isEmpty then none
  else (exponent? tail).map fun e => ⟨natOfDigits (whole ++ fraction), e - fraction.length⟩

/-- The least magnitude whose nearest double is an infinity. -/
def overflow : Nat := Nat.pow 2 1024 - Nat.pow 2 970

/-- The nearest double is finite.  Exponents that decide the matter are not multiplied out. -/
def isFinite (d : Decimal) : Bool :=
  if d.coefficient = 0 then true
  else
    match d.exponent with
    | .ofNat e => if 310 < e then false else d.coefficient * Nat.pow 10 e < overflow
    | .negSucc e =>
      if d.coefficient.log2 / 3 < e + 1 then true else d.coefficient < overflow * Nat.pow 10 (e + 1)

/-- The quotient of two numbers, rounded to the nearest; of two to the even one. -/
def roundedQuotient (n unit : Nat) : Nat :=
  let q := n / unit
  let twice := 2 * (n % unit)
  if unit < twice || (twice == unit && q % 2 == 1) then q + 1 else q

/-- The nearest number with at most 53 significant bits; of two the one whose last bit is even. -/
def roundToDouble (n : Nat) : Nat :=
  let unit := Nat.pow 2 (n.log2 - 52)
  roundedQuotient n unit * unit

/-- The number of digits before the point, or minus the number of zeros after it. -/
def magnitude (d : Decimal) : Int := (toString d.coefficient).length + d.exponent

/-- The least power of two that a double can hold. -/
def leastPower : Int := -1074

/-- The nearest double, in decimal; none if it is an infinity. -/
def double? (d : Decimal) : Option Decimal :=
  if d.coefficient = 0 || d.magnitude < -330 then some ⟨0, 0⟩
  else if 310 < d.magnitude then none
  else
    match d.exponent with
    | .ofNat e =>
      let n := roundToDouble (d.coefficient * Nat.pow 10 e)
      if n < overflow then some ⟨n, 0⟩ else none
    | .negSucc e =>
      let unit := Nat.pow 10 (e + 1)
      let scaled (power : Int) : Nat × Nat :=
        match power with
        | .ofNat p => (d.coefficient, unit * Nat.pow 2 p)
        | .negSucc p => (d.coefficient * Nat.pow 2 (p + 1), unit)
      let guess := max leastPower ((d.coefficient.log2 : Int) - unit.log2 - 53)
      let fits (power : Int) : Bool := (scaled power).1 / (scaled power).2 < Nat.pow 2 53
      let power := if fits guess then guess else if fits (guess + 1) then guess + 1 else guess + 2
      let m := roundedQuotient (scaled power).1 (scaled power).2
      match power with
      | .ofNat p =>
        let n := m * Nat.pow 2 p
        if n < overflow then some ⟨n, 0⟩ else none
      | .negSucc p => some ⟨m * Nat.pow 5 (p + 1), .negSucc p⟩

/-- The number at the start of a text, and what follows it. -/
def readPrefix? (cs : List Char) : Option (Decimal × List Char) :=
  let whole := cs.takeWhile Char.isDigit
  let rest := cs.drop whole.length
  let fraction := match rest with
    | '.' :: more => more.takeWhile Char.isDigit
    | _ => []
  let point := match rest with
    | '.' :: _ => if whole.isEmpty && fraction.isEmpty then 0 else 1
    | _ => 0
  let rest := rest.drop (point + fraction.length)
  let sign := match rest with
    | _ :: '+' :: _ | _ :: '-' :: _ => 2
    | _ => 1
  let tail := rest.take (sign + ((rest.drop sign).takeWhile Char.isDigit).length)
  let taken := if (exponent? tail).isSome then tail else []
  let mantissa := cs.take (whole.length + point + fraction.length)
  (read? (mantissa ++ taken)).map fun d => (d, rest.drop taken.length)

end Decimal

end InlineAudit
