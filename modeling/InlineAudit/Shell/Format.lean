import InlineAudit.Shell.Arithmetic
import InlineAudit.Shell.Floating

/-!
The two ways in which a shell script prints text.

* `Shell.Format.echo` — words with a space between them, escapes expanded;
* `Shell.Format.printf` — a format, used again as long as it takes further arguments.

Design notes: complaints about arguments do not stop the printing, and complaints about the format
do.  An escape ends all output.
-/

namespace InlineAudit.Shell.Format

/-- The value of an octal digit. -/
def octal? (c : Char) : Option Nat :=
  if '0' ≤ c ∧ c ≤ '7' then some (c.toNat - 48) else none

/-- Up to the given number of octal digits, and what follows them. -/
def octalDigits : Nat → Nat → List Char → Nat × List Char
  | 0, n, cs => (n, cs)
  | _ + 1, n, [] => (n, [])
  | k + 1, n, c :: cs =>
    match octal? c with
    | some d => octalDigits k (8 * n + d) cs
    | none => (n, c :: cs)

/-- The character that a letter after a backslash stands for. -/
def control? : Char → Option Char
  | 'a' => some '\x07'
  | 'b' => some '\x08'
  | 'e' => some '\x1b'
  | 'f' => some '\x0c'
  | 'n' => some '\n'
  | 'r' => some '\r'
  | 't' => some '\t'
  | 'v' => some '\x0b'
  | '\\' => some '\\'
  | _ => none

/-- The character that an escape stands for, and what follows it, after the backslash.  Where it is
none, the backslash stands for itself. -/
def escape (cs : List Char) : Char × List Char :=
  match cs with
  | [] => ('\\', [])
  | c :: rest =>
    if (octal? c).isSome then
      let (n, rest) := octalDigits 3 0 cs
      (Char.ofNat (n % 256), rest)
    else
      match control? c with
      | some d => (d, rest)
      | none => ('\\', cs)

/-- A text with its escapes expanded, and whether `\c` ended it.  An octal number may begin with a
zero that does not count as one of its digits. -/
def expand : Nat → List Char → List Char → List Char × Bool
  | 0, seen, _ => (seen.reverse, false)
  | _ + 1, seen, [] => (seen.reverse, false)
  | _ + 1, seen, '\\' :: 'c' :: _ => (seen.reverse, true)
  | fuel + 1, seen, '\\' :: cs =>
    let cs := match cs with
      | '0' :: d :: rest => if (octal? d).isSome then d :: rest else cs
      | _ => cs
    let (c, rest) := escape cs
    expand fuel (c :: seen) rest
  | fuel + 1, seen, c :: cs => expand fuel (c :: seen) cs

/-- Words with a text between them. -/
def joined (between : List Char) : List (List Char) → List Char
  | [] => []
  | [w] => w
  | w :: ws => w ++ between ++ joined between ws

/-- The words that `echo` prints: escapes are expanded, and a first word `-n` leaves out the line
end. -/
def echo (words : List (List Char)) : List Char :=
  let (words, newline) :=
    match words with
    | ['-', 'n'] :: rest => (rest, false)
    | _ => (words, true)
  let cs := joined [' '] words
  let (text, stopped) := expand (cs.length + 1) [] cs
  if newline && !stopped then text ++ ['\n'] else text

/-- A conversion of a format: flags, width, precision and letter. -/
structure Conversion where
  flags : List Char
  width : Nat
  precision : Option Nat
  letter : Char
  deriving Repr

/-- What printing has come to: the text so far with its last character first, what was complained
about, and the arguments that are left. -/
structure Printing where
  text : List Char
  complaints : List (List Char)
  arguments : List (List Char)

/-- The outcome of printing: the text, what was complained about, whether that stopped the
printing. -/
structure Printed where
  text : List Char
  complaints : List (List Char)
  stopped : Bool
  deriving Repr, DecidableEq

namespace Printing

/-- Text is printed. -/
def print (p : Printing) (cs : List Char) : Printing := { p with text := cs.reverse ++ p.text }

/-- Something is complained about. -/
def complain (p : Printing) (about : List Char) (what : String) : Printing :=
  { p with complaints := p.complaints ++ [about ++ what.toList] }

/-- The next argument. -/
def argument (p : Printing) : Option (List Char) × Printing :=
  (p.arguments.head?, { p with arguments := p.arguments.tail })

/-- The next argument as an integer between two bounds; a missing one is zero.  After a quote the
number of a character counts. -/
def integer (p : Printing) (least greatest : Int) : Int × Printing :=
  match p.argument with
  | (none, p) => (0, p)
  | (some cs, p) =>
    match cs with
    | '"' :: rest | '\'' :: rest =>
      let n : Int := (rest.head?.map fun c => (c.toNat : Int)).getD 0
      (if n < 128 then n else n - 256, p)
    | _ =>
      let unsigned := cs.dropWhile Arithmetic.isSpace
      let (negative, ds) := match unsigned with
        | '-' :: ds => (true, ds)
        | '+' :: ds => (false, ds)
        | ds => (false, ds)
      let (n, rest) := Arithmetic.prefixed ds
      let value : Int := if negative then -(n : Int) else n
      if cs.isEmpty then (0, p)
      else if !ds.head?.any Char.isDigit then (0, p.complain cs ": expected numeric value")
      else
        let held := max least (min greatest value)
        if !rest.isEmpty then (held, p.complain cs ": not completely converted")
        else if held != value then (held, p.complain cs ": Numerical result out of range")
        else (held, p)

end Printing

/-- A text in a field: blanks are added on the left, or on the right. -/
def pad (k : Conversion) (cs : List Char) : List Char :=
  let blanks := List.replicate (k.width - cs.length) ' '
  if k.flags.contains '-' then cs ++ blanks else blanks ++ cs

/-- A number in a field: a sign or mark, and digits.  Zeros are put between them where the flags ask
for it and there is no precision. -/
def padNumber (k : Conversion) (mark digits : List Char) : List Char :=
  let digits := match k.precision with
    | some 0 => if digits == ['0'] then [] else digits
    | some n => List.replicate (n - digits.length) '0' ++ digits
    | none =>
      if k.flags.contains '0' && !k.flags.contains '-' then
        List.replicate (k.width - mark.length - digits.length) '0' ++ digits
      else digits
  pad k (mark ++ digits)

/-- An integer with a sign. -/
def signed (k : Conversion) (n : Int) : List Char :=
  let mark :=
    if n < 0 then ['-']
    else if k.flags.contains '+' then ['+']
    else if k.flags.contains ' ' then [' ']
    else []
  padNumber k mark (toString n.natAbs).toList

/-- An integer without a sign, in the base that the letter of the conversion asks for. -/
def unsigned (k : Conversion) (n : Nat) : List Char :=
  let isMarked := k.flags.contains '#' && n != 0
  match k.letter with
  | 'x' => padNumber k (if isMarked then ['0', 'x'] else []) (Nat.toDigits 16 n)
  | 'X' =>
    padNumber k (if isMarked then ['0', 'X'] else []) ((Nat.toDigits 16 n).map Char.toUpper)
  | 'o' => padNumber k [] ((if isMarked then ['0'] else []) ++ Nat.toDigits 8 n)
  | _ => padNumber k [] (Nat.toDigits 10 n)

/-- A number with a point, as a decimal of the number that a double can hold, and its sign; or what
is no number. -/
inductive Real
  | finite (negative : Bool) (d : Decimal)
  | infinite (negative : Bool)
  | undefined (negative : Bool)
  deriving Repr

/-- A word for infinity or for what is no number, in lower case, and whether it is the former; the
number of its characters is given. -/
def realWord? (cs : List Char) : Option (Bool × Nat) :=
  if "infinity".toList.isPrefixOf cs then some (true, 8)
  else if "inf".toList.isPrefixOf cs then some (true, 3)
  else if "nan".toList.isPrefixOf cs then
    let mark := (cs.drop 4).takeWhile fun c => c.isAlphanum || c == '_'
    let isMarked := cs[3]? == some '(' && cs[4 + mark.length]? == some ')'
    some (false, if isMarked then 5 + mark.length else 3)
  else none

/-- The next argument as a number with a point; a missing one is zero.  After a quote the number of
a character counts. -/
def Printing.real (p : Printing) : Real × Printing :=
  let (a, p) := p.argument
  let cs := a.getD []
  let unsigned := cs.dropWhile Arithmetic.isSpace
  let (negative, ds) := match unsigned with
    | '-' :: ds => (true, ds)
    | '+' :: ds => (false, ds)
    | ds => (false, ds)
  match cs with
  | '"' :: rest | '\'' :: rest =>
    (.finite false ⟨(rest.head?.map Char.toNat).getD 0, 0⟩, p)
  | _ =>
    match realWord? (ds.map Char.toLower) with
    | some (isInfinite, length) =>
      (if isInfinite then .infinite negative else .undefined negative,
        if length == ds.length then p else p.complain cs ": not completely converted")
    | none =>
      let number := match ds with
        | '0' :: x :: more =>
          if x == 'x' || x == 'X' then
            (Floating.readHexadecimal? more).or (Decimal.readPrefix? ds)
          else Decimal.readPrefix? ds
        | _ => Decimal.readPrefix? ds
      match number with
      | none =>
        (.finite false ⟨0, 0⟩, if cs.isEmpty then p else p.complain cs ": expected numeric value")
      | some (d, rest) =>
        let p := if rest.isEmpty then p else p.complain cs ": not completely converted"
        let isLost (e : Decimal) : Bool := e.coefficient == 0 && d.coefficient != 0
        match d.double? with
        | some e =>
          (.finite negative e,
            if rest.isEmpty && isLost e then p.complain cs ": Numerical result out of range" else p)
        | none =>
          (.infinite negative,
            if rest.isEmpty then p.complain cs ": Numerical result out of range" else p)

/-- A number with a point, in the way that the letter of the conversion asks for. -/
def real (k : Conversion) (r : Real) : List Char :=
  let mark (negative : Bool) : List Char :=
    if negative then ['-']
    else if k.flags.contains '+' then ['+']
    else if k.flags.contains ' ' then [' ']
    else []
  let plain : Conversion := { k with precision := none }
  let word (cs : List Char) : List Char := if k.letter.isUpper then cs.map Char.toUpper else cs
  match r with
  | .undefined negative => pad k (word (mark negative ++ "nan".toList))
  | .infinite negative => pad k (word (mark negative ++ "inf".toList))
  | .finite negative d =>
    let precision := k.precision.getD 6
    let hasPoint := k.flags.contains '#'
    let exponent := if k.letter.isUpper then 'E' else 'e'
    padNumber plain (mark negative) <|
      match k.letter with
      | 'e' | 'E' => Floating.scientific exponent precision hasPoint d
      | 'g' | 'G' => Floating.general exponent precision hasPoint d
      | 'a' | 'A' => word (Floating.hexadecimal k.precision hasPoint d)
      | _ => Floating.fixed precision hasPoint d

/-- A width or precision: a number, or an asterisk for the next argument. -/
def size (cs : List Char) (p : Printing) : Int × List Char × Printing :=
  match cs with
  | '*' :: rest =>
    let (n, p) := p.integer (-0x80000000) 0x7FFFFFFF
    (n, rest, p)
  | _ => (Decimal.natOfDigits (cs.takeWhile Char.isDigit), cs.dropWhile Char.isDigit, p)

/-- The conversion after a percent sign, and what follows it; none if the format ends. -/
def conversion? (cs : List Char) (p : Printing) :
    Option (Conversion × List Char × Printing) :=
  let flags := cs.takeWhile "#-+ 0".toList.contains
  let (width, cs, p) := size (cs.drop flags.length) p
  let (precision, cs, p) :=
    match cs with
    | '.' :: cs =>
      let (n, cs, p) := size cs p
      (if n < 0 then none else some n.toNat, cs, p)
    | _ => (none, cs, p)
  let flags := if width < 0 then '-' :: flags else flags
  match cs with
  | [] => none
  | letter :: rest => some (⟨flags, width.natAbs, precision, letter⟩, rest, p)

/-- A text cut to the precision of a conversion. -/
def Conversion.cut (k : Conversion) (cs : List Char) : List Char :=
  match k.precision with
  | some n => cs.take n
  | none => cs

/-- What a conversion prints for the next argument, and whether all output ends here; nothing for a
letter that is none. -/
def convert? (k : Conversion) (p : Printing) : Option (Printing × Bool) :=
  match k.letter with
  | 's' =>
    let (a, p) := p.argument
    some (p.print (pad k (k.cut (a.getD []))), false)
  | 'b' =>
    let (a, p) := p.argument
    let cs := a.getD []
    let (text, stopped) := expand (cs.length + 1) [] cs
    some (p.print (pad k (k.cut text)), stopped)
  | 'c' =>
    let (a, p) := p.argument
    some (p.print (pad k [((a.getD []).head?).getD '\x00']), false)
  | 'd' | 'i' =>
    let (n, p) := p.integer (-0x8000000000000000) 0x7FFFFFFFFFFFFFFF
    some (p.print (signed k n), false)
  | 'o' | 'u' | 'x' | 'X' =>
    let (n, p) := p.integer (-0xFFFFFFFFFFFFFFFF) 0xFFFFFFFFFFFFFFFF
    some (p.print (unsigned k (n % 0x10000000000000000).toNat), false)
  | 'a' | 'A' | 'e' | 'E' | 'f' | 'F' | 'g' | 'G' =>
    let (r, p) := p.real
    some (p.print (real k r), false)
  | _ => none

/-- One pass over a format; whether all output ends here, and whether a complaint is why. -/
def pass : Nat → List Char → Printing → Printing × Option Bool
  | 0, _, p => (p, some false)
  | _ + 1, [], p => (p, none)
  | fuel + 1, '%' :: '%' :: cs, p => pass fuel cs (p.print ['%'])
  | fuel + 1, '%' :: cs, p =>
    match conversion? cs p with
    | none => (p.complain [] "missing format character", some true)
    | some (k, rest, p) =>
      match convert? k p with
      | some (p, false) => pass fuel rest p
      | some (p, true) => (p, some false)
      | none =>
        let written := '%' :: cs.take (cs.length - rest.length)
        (p.complain written ": invalid directive", some true)
  | fuel + 1, '\\' :: cs, p =>
    let (c, rest) := escape cs
    pass fuel rest (p.print [c])
  | fuel + 1, c :: cs, p => pass fuel cs (p.print [c])

/-- Passes over a format until the arguments are used up; a format that takes none is used once. -/
def passes : Nat → List Char → Printing → Printed
  | 0, _, p => ⟨p.text.reverse, p.complaints, false⟩
  | fuel + 1, format, p =>
    match pass (format.length + 1) format p with
    | (q, some stopped) => ⟨q.text.reverse, q.complaints, stopped⟩
    | (q, none) =>
      if q.arguments.isEmpty || q.arguments.length == p.arguments.length then
        ⟨q.text.reverse, q.complaints, false⟩
      else passes fuel format q

/-- What `printf` prints for a format and arguments. -/
def printf (format : List Char) (args : List (List Char)) : Printed :=
  passes (args.length + 1) format ⟨[], [], args⟩

end InlineAudit.Shell.Format
