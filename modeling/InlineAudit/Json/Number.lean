import InlineAudit.Text.Decimal

/-!
Numbers of a JSON text, as they are written.

* `Json.Number.isWellFormed` — the grammar;
* `Json.Number.int?` — the value of a number that is written as an integer;
* `Json.Number.isFinite` — the number is within the range of binary floating point of 64 bits.

Design notes: a number is evaluated as a significand times a power of ten.  The significand takes
the digits that fit into 64 bits and leaves out the rest; it and the power are rounded to doubles,
and so is their product.  A number close to the limit of the range can thus be evaluated to one on
the other side of it.
-/

namespace InlineAudit.Json.Number

/-- A number without its sign, and whether it had one. -/
def unsigned : List Char → Bool × List Char
  | '-' :: cs => (true, cs)
  | cs => (false, cs)

/-- The end of a number after its integer part: perhaps a fraction, and perhaps an exponent. -/
def isTail : List Char → Bool
  | '.' :: cs =>
    !(cs.takeWhile Char.isDigit).isEmpty && (Decimal.exponent? (cs.dropWhile Char.isDigit)).isSome
  | cs => (Decimal.exponent? cs).isSome

/-- A sign or none, digits without a leading zero, a fraction or none, an exponent or none. -/
def isWellFormed (cs : List Char) : Bool :=
  let cs := (unsigned cs).2
  match cs.takeWhile Char.isDigit with
  | [] => false
  | '0' :: _ :: _ => false
  | _ => isTail (cs.dropWhile Char.isDigit)

/-- The value of a number without fraction and exponent.  A negative zero is none. -/
def int? (cs : List Char) : Option Int :=
  let (negative, ds) := unsigned cs
  if ds.isEmpty || !ds.all Char.isDigit then none
  else
    match negative, Decimal.natOfDigits ds with
    | true, 0 => none
    | true, n => some (-(n : Int))
    | false, n => some (n : Int)

/-- The greatest significand. -/
def maxSignificand : Nat := Nat.pow 2 64 - 1

/-- A significand that takes digits as long as it has room for them, and how many digits are left
over. -/
def takeDigits : Nat → List Char → Nat × Nat
  | n, [] => (n, 0)
  | n, d :: ds =>
    let m := 10 * n + (d.toNat - 48)
    if maxSignificand < m then (n, ds.length + 1) else takeDigits m ds

/-- The significand of a number without its sign, and the power of ten that goes with it. -/
def evaluate? (cs : List Char) : Option Decimal :=
  let whole := cs.takeWhile Char.isDigit
  let (fraction, tail) :=
    match cs.dropWhile Char.isDigit with
    | '.' :: rest => (rest.takeWhile Char.isDigit, rest.dropWhile Char.isDigit)
    | rest => ([], rest)
  let (n, dropped) := takeDigits 0 whole
  let (n, ignored) := takeDigits n fraction
  (Decimal.exponent? tail).map fun e =>
    ⟨n, e + (dropped : Int) - ((fraction.length - ignored : Nat) : Int)⟩

/-- The greatest power of ten that a double can hold. -/
def maxPower : Nat := 308

/-- The number is evaluated to a finite double. -/
def isFinite (cs : List Char) : Bool :=
  match evaluate? (unsigned cs).2 with
  | none => false
  | some ⟨0, _⟩ => true
  | some ⟨_, .negSucc _⟩ => true
  | some ⟨n, .ofNat e⟩ =>
    e ≤ maxPower &&
      Decimal.roundToDouble n * Decimal.roundToDouble (Nat.pow 10 e) < Decimal.overflow

end InlineAudit.Json.Number
