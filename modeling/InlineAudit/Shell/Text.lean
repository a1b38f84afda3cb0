import InlineAudit.Text.Utf8

/-!
The characters of a shell script.

* `Shell.charsOfBytes`, `Shell.bytesOfChars` — a text with one character for each byte;
* `Shell.isName` — a name of a variable or function.

Design notes: scripts, their arguments and what they print are byte strings.  They are held here as
characters below U+0100.
-/

namespace InlineAudit.Shell

/-- The characters of some bytes, one for each. -/
def charsOfBytes (bs : Bytes) : List Char := bs.map fun b => Char.ofNat b.toNat

/-- The bytes of characters below U+0100. -/
def bytesOfChars (cs : List Char) : Bytes := cs.map fun c => c.toNat.toUInt8

/-- The characters of a text, one for each byte. -/
def charsOfText (s : String) : List Char := charsOfBytes (Utf8.encode s)

/-- A number in decimal digits. -/
def decimal (n : Nat) : List Char := (toString n).toList

/-- A blank within a line. -/
def isBlank (c : Char) : Bool := c == ' ' || c == '\t'

/-- A character that a name may begin with. -/
def isNameStart (c : Char) : Bool := c.isAlpha || c == '_'

/-- A character that may stand in a name. -/
def isNameChar (c : Char) : Bool := c.isAlphanum || c == '_'

/-- A name of a variable or function. -/
def isName (cs : List Char) : Bool := cs.head?.any isNameStart && cs.all isNameChar

/-- A run of digits. -/
def isDigits (cs : List Char) : Bool := !cs.isEmpty && cs.all Char.isDigit

/-- The character that opens and closes a command in the old way. -/
def backquote : Char := Char.ofNat 96

end InlineAudit.Shell
