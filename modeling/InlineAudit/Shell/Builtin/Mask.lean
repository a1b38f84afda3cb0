import InlineAudit.Shell.Builtin.Options

/-!
The permissions that new files do not get.

* `Shell.Builtin.mask` — they are shown or set, as a number or in letters.
-/

namespace InlineAudit.Shell.Builtin

/-- The permissions that a mask leaves, in letters. -/
def maskText (mask : Nat) : List Char :=
  let letters (shift : Nat) : List Char :=
    let bits := (mask >>> shift) &&& 7
    (if bits &&& 4 == 0 then ['r'] else []) ++ (if bits &&& 2 == 0 then ['w'] else []) ++
      if bits &&& 1 == 0 then ['x'] else []
  "u=".toList ++ letters 6 ++ ",g=".toList ++ letters 3 ++ ",o=".toList ++ letters 0

/-- For whom a letter changes permissions: a bit for each of them, at the place of their last
permission. -/
def scope (who : Char) : Nat :=
  match who with
  | 'u' => 0o100
  | 'g' => 0o010
  | 'o' => 0o001
  | _ => 0o111

/-- The permissions of one of them that a letter stands for, given the permissions so far. -/
def granted (allowed : Nat) (letter : Char) : Nat :=
  match letter with
  | 'r' => 4
  | 'w' => 2
  | 'x' => 1
  | 'u' => allowed >>> 6
  | 'g' => allowed >>> 3
  | 'o' => allowed
  | 'X' => if allowed &&& 0o111 == 0 then 0 else 1
  | _ => 0

/-- Permissions after changes that are written in letters: for whom, in which way, and which ones.
There can be several changes for the same ones, and commas between changes for different ones; who
is not named means all.  Letters that stand for other permissions mean those from before all
changes. -/
def permissions? (allowed : Nat) : Nat → Nat → Nat → List Char → Option Nat
  | 0, _, now, _ => some now
  | _, _, now, [] => some now
  | fuel + 1, positions, now, cs =>
    let who := cs.takeWhile "augo".toList.contains
    let positions := who.foldl (fun n c => n ||| scope c) positions
    let positions := if positions == 0 then 0o111 else positions
    match cs.drop who.length with
    | [] => some now
    | op :: rest =>
      if !"=+-".toList.contains op then none
      else
        let letters := rest.takeWhile "rwxugoXs".toList.contains
        let bits := letters.foldl (fun n c => n ||| granted allowed c) 0
        let bits := (bits &&& 7) * positions
        let now := match op with
          | '-' => now &&& (0o777 - bits)
          | '=' => bits ||| (now &&& (0o777 - positions * 7))
          | _ => now ||| bits
        match rest.drop letters.length with
        | [] => some now
        | ',' :: rest => permissions? allowed fuel 0 now rest
        | c :: rest =>
          if "=+-".toList.contains c then permissions? allowed fuel positions now (c :: rest)
          else none

/-- The permissions that new files do not get are shown or set. -/
def mask (args : List (List Char)) : Run Nat := do
  let (letters, args) ← options ['S'] args
  let m ← get
  match args with
  | [] =>
    if letters.isEmpty then
      let digits := Nat.toDigits 8 m.mask
      print (List.replicate (4 - digits.length) '0' ++ digits ++ ['\n'])
    else print (maskText m.mask ++ ['\n'])
  | a :: _ =>
    if a.head?.any Char.isDigit then
      if a.all fun c => '0' ≤ c && c ≤ '7' then
        set { m with mask := a.foldl (fun n (c : Char) => 8 * n + (c.toNat - 48)) 0 % 0o1000 }
        return 0
      else Run.fail ("Illegal number: ".toList ++ a)
    else
      let allowed := 0o777 - m.mask
      match permissions? allowed (a.length + 1) 0 allowed a with
      | some allowed =>
        set { m with mask := 0o777 - allowed }
        return 0
      | none => Run.fail ("Illegal mode: ".toList ++ a)

end InlineAudit.Shell.Builtin
