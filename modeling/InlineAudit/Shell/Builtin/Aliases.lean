import InlineAudit.Shell.Builtin.Options

/-!
Words that stand for texts.

* `Shell.Builtin.defineAliases`, `Shell.Builtin.removeAliases` — they are set, shown and removed.

All of them are listed by groups, within which they keep the order in which they were set.
-/

namespace InlineAudit.Shell.Builtin

/-- The number of groups in which aliases are listed. -/
def aliasGroups : Nat := 39

/-- The group of an alias. -/
def aliasGroup (a : Alias) : Nat :=
  a.name.foldl (fun n c => n + c.toNat) (16 * (a.name.head?.map Char.toNat).getD 0) % aliasGroups

/-- The line that shows an alias. -/
def aliasLine (a : Alias) : List Char := a.name ++ '=' :: singleQuoted a.text ++ ['\n']

/-- Aliases are set or shown; without arguments, all of them are shown. -/
def defineAliases (args : List (List Char)) : Run Nat := do
  if args.isEmpty then
    let aliases := (← get).aliases
    let groups := (List.range aliasGroups).map fun g => aliases.filter (aliasGroup · == g)
    print (groups.flatten.flatMap aliasLine)
  else
    let mut status := 0
    for a in args do
      let name := a.take 1 ++ a.tail.takeWhile (· != '=')
      let m ← get
      let known := m.aliases.any (·.name == name)
      if name.length < a.length then
        let new : Alias := ⟨name, a.drop (name.length + 1)⟩
        set { m with aliases :=
          if known then m.aliases.map fun (b : Alias) => if b.name == name then new else b
          else m.aliases ++ [new] }
      else
        match m.aliases.find? (·.name == name) with
        | some b => Run.print (aliasLine b)
        | none =>
          set ((m.write? 2 ("alias: ".toList ++ name ++ " not found\n".toList)).getD m)
          status := 1
    return status

/-- Aliases are removed. -/
def removeAliases (args : List (List Char)) : Run Nat := do
  if let ('-' :: 'a' :: _) :: _ := args then
    modify fun m => { m with aliases := [] }
    return 0
  let (_, names) ← options ['a'] args
  let mut status := 0
  for name in names do
    let m ← get
    if m.aliases.any (·.name == name) then
      set { m with aliases := m.aliases.filter (·.name != name) }
    else
      set ((m.write? 2 ("unalias: ".toList ++ name ++ " not found\n".toList)).getD m)
      status := 1
  return status

end InlineAudit.Shell.Builtin
