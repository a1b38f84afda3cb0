import InlineAudit.Diagnostic
import InlineAudit.Json.Printer
import InlineAudit.Text.Line
import InlineAudit.Text.Utf8

/-!
A log laid out line by line, for a reader who wants to see how it is understood.

* `Log.listing` — the lines that say something, with their numbers;
* `Log.ListedLine.text` — one of them, laid out;
* `Log.ListedLine.toJson` — one of them in JSON.

Design notes: the log is decoded as a whole and then cut at newlines.  A carriage return is
dropped only in front of a newline, so one at the very end of the log stays.
-/

namespace InlineAudit

namespace Log

/-- A line that says something, and its number counted from one. -/
structure ListedLine where
  number : Nat
  diagnostic : Diagnostic
  deriving Repr, DecidableEq

/-- A piece of decoded text without its line end. -/
def dropLineEnd (piece : List Char) : List Char :=
  if piece.getLast? = some '\n' then dropEnd '\r' piece.dropLast else piece

/-- The lines of a text that say something. -/
def listText (cs : List Char) : List ListedLine :=
  ((pieces (· == '\n') cs).zipIdx 1).filterMap fun (piece, number) =>
    match Diagnostic.ofChars (dropLineEnd piece) with
    | .other => none
    | diagnostic => some ⟨number, diagnostic⟩

/-- The lines of a log that say something. -/
def listing (log : Bytes) : List ListedLine :=
  listText (Utf8.decodeChars log)

/-- A text at the right end of a field of at least the given width. -/
def rightAligned (width : Nat) (s : String) : String :=
  String.ofList (List.replicate (width - s.length) ' ') ++ s

/-- A line laid out for reading. -/
def ListedLine.text (l : ListedLine) : String :=
  rightAligned 6 (toString l.number) ++ ": " ++
    match l.diagnostic with
    | .header package => "package " ++ package
    | .inliningCall symbol => "inlined call " ++ symbol
    | .canInline symbol => "can inline " ++ symbol
    | .cannotInline symbol reason => "cannot inline " ++ symbol ++ " (" ++ reason ++ ")"
    | .other => ""

end Log

/-- What a line says, as members of an object. -/
def Diagnostic.members : Diagnostic → List (String × Json)
  | .header package => [("kind", .ofString "header"), ("package", .ofString package)]
  | .inliningCall symbol => [("kind", .ofString "inlining_call"), ("symbol", .ofString symbol)]
  | .canInline symbol => [("kind", .ofString "can_inline"), ("symbol", .ofString symbol)]
  | .cannotInline symbol reason =>
    [("kind", .ofString "cannot_inline"), ("symbol", .ofString symbol),
      ("reason", .ofString reason)]
  | .other => [("kind", .ofString "other")]

/-- A line as an object: its number, and what it says. -/
def Log.ListedLine.toJson (l : ListedLine) : Json :=
  .ofMembers (("line", .ofInt l.number) :: l.diagnostic.members)

end InlineAudit
