import InlineAudit.Text.Decimal
import InlineAudit.Yaml.Scalar.Block
import InlineAudit.Yaml.Scalar.Plain
import InlineAudit.Yaml.Scalar.Quoted
import InlineAudit.Yaml.Scalar.Resolution
import InlineAudit.Yaml.Tag

/-!
The tokens of a YAML text.

* `Yaml.Token` — scalars, marks, and the starts and ends of collections;
* `Yaml.tokens?` — the tokens of a text.

Design notes: what makes a scalar a key is the colon after it.  So a token that could begin a key is
remembered, and when the colon comes it is marked as the start of one; the marks are woven into the
tokens at the end.  A key of this kind has to lie on one line, and within 1024 bytes.  Outside
brackets, collections begin and end with their indentation: a line that is indented less ends all
blocks that are indented more.
-/

namespace InlineAudit.Yaml

/-- A token. -/
inductive Token
  | versionDirective (major minor : Nat)
  | tagDirective (handle text : Bytes)
  | documentStart
  | documentEnd
  | blockSequenceStart
  | blockMappingStart
  /-- The end of a collection outside brackets. -/
  | blockEnd
  | flowSequenceStart
  | flowSequenceEnd
  | flowMappingStart
  | flowMappingEnd
  | blockEntry
  | flowEntry
  | key
  | value
  | alias (name : List Char)
  | anchor (name : List Char)
  | tag (t : Tag)
  | scalar (text : List Char) (style : Style)
  deriving Repr, DecidableEq, Inhabited

/-- A token that may turn out to begin a key: its number among the tokens and its place. -/
structure Candidate where
  number : Nat
  index : Nat
  line : Nat
  column : Nat
  /-- It stands at the indentation of its block, so it has to be a key. -/
  required : Bool
  deriving Repr, DecidableEq

/-- The state of the cut into tokens. -/
structure Lexer where
  cursor : Cursor
  /-- The tokens so far, the last one first, and their number. -/
  tokens : List Token
  size : Nat
  /-- The numbers of the tokens that begin keys, and whether a mapping begins with the key. -/
  keys : List (Nat × Bool)
  /-- The indentation of the innermost block, and of those around it. -/
  indent : Int
  outer : List Int
  /-- The candidate at the present level of brackets, and at the levels around it. -/
  candidate : Option Candidate
  around : List (Option Candidate)
  /-- A key may begin here. -/
  keyAllowed : Bool

namespace Lexer

/-- The start of a text. -/
def start (cs : List Char) : Lexer where
  cursor := .start cs
  tokens := []
  size := 0
  keys := []
  indent := -1
  outer := []
  candidate := none
  around := []
  keyAllowed := true

/-- Between brackets. -/
def inFlow (l : Lexer) : Bool := !l.around.isEmpty

/-- A further token. -/
def push (l : Lexer) (t : Token) : Lexer :=
  { l with tokens := t :: l.tokens, size := l.size + 1 }

/-- A token of a number of characters. -/
def mark (l : Lexer) (t : Token) (width : Nat) : Lexer :=
  { l.push t with cursor := l.cursor.advance width }

/-- Blanks, comments and line breaks are passed, and at the start of each line a byte order mark.  A
new line allows a key; as long as one is allowed, outside brackets, tabs are no blanks. -/
def toNextToken : Nat → Lexer → Lexer
  | 0, l => l
  | fuel + 1, l =>
    let c := l.cursor
    let c := if c.column = 0 ∧ c.head? = some byteOrderMark then c.advance 1 else c
    let c := c.skipWhile fun a => a == ' ' || ((l.inFlow || !l.keyAllowed) && a == '\t')
    let c := if c.head? = some '#' then c.skipWhile (!isBreak ·) else c
    match c.takeBreak? with
    | some (_, c) =>
      toNextToken fuel { l with cursor := c, keyAllowed := l.keyAllowed || !l.inFlow }
    | none => { l with cursor := c }

/-- A candidate is given up when its line is over or it is too far away; one that has to be a key
must not be. -/
def dropStale? (c : Cursor) : Option Candidate → Option (Option Candidate)
  | none => some none
  | some k =>
    if k.line < c.line ∨ k.index + 1024 < c.index then
      if k.required then none else some none
    else some (some k)

/-- All candidates that are too far away are given up. -/
def dropAllStale? (l : Lexer) : Option Lexer := do
  let candidate ← dropStale? l.cursor l.candidate
  let around ← l.around.mapM (dropStale? l.cursor)
  return { l with candidate, around }

/-- The candidate of the present level is given up. -/
def dropCandidate? (l : Lexer) : Option Lexer :=
  if l.candidate.any (·.required) then none else some { l with candidate := none }

/-- The next token becomes the candidate of its level, if a key may begin here. -/
def saveCandidate? (l : Lexer) : Option Lexer :=
  if l.keyAllowed then do
    let l ← l.dropCandidate?
    let c := l.cursor
    return { l with
      candidate := some {
        number := l.size
        index := c.index
        line := c.line
        column := c.column
        required := !l.inFlow && l.indent == (c.column : Int) } }
  else some l

/-- The blocks that are indented more than a column end.  The blocks are given by their
indentations, the innermost first. -/
def closeBlocks (column : Int) : Int → List Int → Nat → Int × List Int × Nat
  | indent, [], n => (indent, [], n)
  | indent, i :: outer, n =>
    if column < indent then closeBlocks column i outer (n + 1) else (indent, i :: outer, n)

/-- Outside brackets, the blocks that are indented more than a column end. -/
def unroll (l : Lexer) (column : Int) : Lexer :=
  if l.inFlow then l
  else
    let (indent, outer, n) := closeBlocks column l.indent l.outer 0
    { l with
      indent, outer
      tokens := List.replicate n .blockEnd ++ l.tokens
      size := l.size + n }

/-- Outside brackets, a column to the right of the innermost block begins a new one. -/
def opensBlock (l : Lexer) (column : Nat) : Bool := !l.inFlow && l.indent < (column : Int)

/-- The innermost block is indented by a column. -/
def indentTo (l : Lexer) (column : Nat) : Lexer :=
  { l with indent := column, outer := l.indent :: l.outer }

/-- A block begins with the next token, if it stands to the right of the innermost one. -/
def roll (l : Lexer) (t : Token) : Lexer :=
  if l.opensBlock l.cursor.column then (l.indentTo l.cursor.column).push t else l

/-- A directive or a document mark ends all blocks. -/
def atDocumentLevel? (l : Lexer) : Option Lexer := do
  let l ← (l.unroll (-1)).dropCandidate?
  return { l with keyAllowed := false }

/-- A number of at most nine digits. -/
def versionNumber? (c : Cursor) : Option (Nat × Cursor) :=
  let ds := c.rest.takeWhile Char.isDigit
  if ds.isEmpty ∨ 9 < ds.length then none
  else some (Decimal.natOfDigits ds, c.advance ds.length)

/-- The directive at a place: a percent sign, a name, and what belongs to it. -/
def directive? (c : Cursor) : Option (Token × Cursor) := do
  let name := (c.rest.drop 1).takeWhile isNameChar
  let c := c.advance (name.length + 1)
  if !Cursor.atSpace c.rest then none
  else
    let (t, c) ←
      match String.ofList name with
      | "YAML" => do
        let (major, c) ← versionNumber? (c.skipWhile isBlank)
        if c.head? ≠ some '.' then none
        else
          let (minor, c) ← versionNumber? (c.advance 1)
          some (Token.versionDirective major minor, c)
      | "TAG" => do
        let (handle, text, c) ← tagDirective? c
        some (Token.tagDirective handle text, c)
      | _ => none
    let c := c.skipComment
    if Cursor.atBreak c.rest then some (t, c.skipBreak) else none

/-- A bracket opens. -/
def openFlow? (l : Lexer) (t : Token) : Option Lexer := do
  let l ← l.saveCandidate?
  return { l with
    candidate := none
    around := l.candidate :: l.around
    keyAllowed := true }.mark t 1

/-- A bracket closes; one that was not opened has no effect on the level. -/
def closeFlow? (l : Lexer) (t : Token) : Option Lexer := do
  let l ← l.dropCandidate?
  let l := match l.around with
    | [] => l
    | k :: around => { l with candidate := k, around }
  return { l with keyAllowed := false }.mark t 1

/-- A hyphen that begins an item. -/
def blockEntry? (l : Lexer) : Option Lexer :=
  if !l.inFlow && !l.keyAllowed then none
  else do
    let l ← (l.roll .blockSequenceStart).dropCandidate?
    return { l with keyAllowed := true }.mark .blockEntry 1

/-- A question mark that begins a key. -/
def explicitKey? (l : Lexer) : Option Lexer :=
  if !l.inFlow && !l.keyAllowed then none
  else do
    let l ← (l.roll .blockMappingStart).dropCandidate?
    return { l with keyAllowed := !l.inFlow }.mark .key 1

/-- A colon that begins a value: the candidate is a key, if there is one. -/
def value? (l : Lexer) : Option Lexer :=
  match l.candidate with
  | some k =>
    let opens := l.opensBlock k.column
    let l := if opens then l.indentTo k.column else l
    some <| { l with
      keys := (k.number, opens) :: l.keys
      candidate := none
      keyAllowed := false }.mark .value 1
  | none =>
    if !l.inFlow && !l.keyAllowed then none
    else some <| { l.roll .blockMappingStart with keyAllowed := !l.inFlow }.mark .value 1

/-- A name after its mark.  A space follows it, or a character that can follow a name. -/
def name? (c : Cursor) : Option (List Char × Cursor) :=
  let name := (c.rest.drop 1).takeWhile isNameChar
  let c := c.advance (name.length + 1)
  if name.isEmpty then none
  else if Cursor.atSpace c.rest ||
      c.head?.any (fun a => "?:,]\x7d%@".toList.contains a || a.toNat == 96) then some (name, c)
  else none

/-- A token that may begin a key, after which none may begin. -/
def word? (l : Lexer) (read : Cursor → Option (Token × Cursor)) : Option Lexer := do
  let l ← l.saveCandidate?
  let (t, cursor) ← read l.cursor
  return { l.push t with cursor, keyAllowed := false }

/-- A block scalar. -/
def blockScalar? (l : Lexer) (folded : Bool) : Option Lexer := do
  let l ← l.dropCandidate?
  let (text, cursor) ← block? folded l.indent (l.cursor.advance 1)
  let style := if folded then Style.folded else .literal
  return { l.push (.scalar text style) with cursor, keyAllowed := true }

/-- A plain scalar.  A key may begin after it if it ends at the start of a line. -/
def plainScalar? (l : Lexer) : Option Lexer := do
  let l ← l.saveCandidate?
  let (text, atLineStart, cursor) ← plain? l.inFlow l.indent l.cursor
  return { l.push (.scalar text .plain) with cursor, keyAllowed := atLineStart }

/-- A character that has a meaning of its own at the start of a token. -/
def isIndicator (c : Char) : Bool :=
  "-?:,[]\x7b\x7d#&*!|>'\"%@".toList.contains c || c.toNat == 96

/-- A plain scalar may begin with this character, given what follows it. -/
def beginsPlain (inFlow : Bool) (c : Char) (rest : List Char) : Bool :=
  if c == '-' then !rest.head?.any isBlank
  else if c == '?' || c == ':' then !inFlow && !Cursor.atSpace rest
  else !isSpace c && !isIndicator c

/-- The token that begins with a character. -/
def dispatch? (l : Lexer) (a : Char) (rest : List Char) : Option Lexer :=
  let endsWord := Cursor.atSpace rest
  match a with
  | '[' => l.openFlow? .flowSequenceStart
  | '{' => l.openFlow? .flowMappingStart
  | ']' => l.closeFlow? .flowSequenceEnd
  | '}' => l.closeFlow? .flowMappingEnd
  | ',' => l.dropCandidate?.map fun l => { l with keyAllowed := true }.mark .flowEntry 1
  | '*' => l.word? fun c => (name? c).map fun (n, c) => (.alias n, c)
  | '&' => l.word? fun c => (name? c).map fun (n, c) => (.anchor n, c)
  | '!' => l.word? fun c => (tag? l.inFlow c).map fun (t, c) => (.tag t, c)
  | '\'' => l.word? fun c => (quoted? true (c.advance 1)).map fun (s, c) =>
      (.scalar s .singleQuoted, c)
  | '"' => l.word? fun c => (quoted? false (c.advance 1)).map fun (s, c) =>
      (.scalar s .doubleQuoted, c)
  | _ =>
    if a == '-' && endsWord then l.blockEntry?
    else if a == '?' && (l.inFlow || endsWord) then l.explicitKey?
    else if a == ':' && (l.inFlow || endsWord) then l.value?
    else if a == '|' && !l.inFlow then l.blockScalar? false
    else if a == '>' && !l.inFlow then l.blockScalar? true
    else if beginsPlain l.inFlow a rest then l.plainScalar?
    else none

/-- The end of a text. -/
def finish? (l : Lexer) : Option Lexer := (l.unroll (-1)).dropCandidate?

/-- Tokens from a place to the end of the text. -/
def run? : Nat → Lexer → Option Lexer
  | 0, _ => none
  | fuel + 1, l => do
    let l ← (toNextToken l.cursor.bound l).dropAllStale?
    let l := l.unroll l.cursor.column
    match l.cursor.rest with
    | [] => l.finish?
    | a :: rest =>
      if l.cursor.column = 0 ∧ a = '%' then
        let l ← l.atDocumentLevel?
        let (t, cursor) ← directive? l.cursor
        run? fuel { l.push t with cursor }
      else
        match l.cursor.documentMark? with
        | some m =>
          let l ← l.atDocumentLevel?
          run? fuel (l.mark (if m = '-' then .documentStart else .documentEnd) 3)
        | none => run? fuel (← l.dispatch? a rest)

end Lexer

/-- Tokens, given with the last one first, with the marks of keys before those that begin one.  The
keys are given by number, the greatest first. -/
def weave : Nat → List Token → List (Nat × Bool) → List Token → List Token
  | _, [], _, done => done
  | n, t :: before, [], done => weave (n - 1) before [] (t :: done)
  | n, t :: before, (k, opens) :: keys, done =>
    if k + 1 = n then
      weave (n - 1) before keys
        (if opens then .blockMappingStart :: .key :: t :: done else .key :: t :: done)
    else weave (n - 1) before ((k, opens) :: keys) (t :: done)

/-- The tokens of a text, if it can be cut into tokens. -/
def tokens? (cs : List Char) : Option (List Token) :=
  if cs.all isAllowed then
    (Lexer.run? (cs.length + 2) (.start cs)).map fun l =>
      weave l.size l.tokens (l.keys.mergeSort fun a b => decide (b.1 ≤ a.1)) []
  else none

end InlineAudit.Yaml
