/-!
UTF-8 text as bytes.

A log is a byte string that need not be text: the decoder here never fails and writes
U+FFFD for what is not UTF-8, once for each maximal byte sequence that begins a character
and cannot be continued.

* `Utf8.decode` — the text of any byte string, by a machine that reads one byte at a time;
* `Utf8.encode` — the bytes of a text;
* `Utf8.decode?` — the text of a byte string that is UTF-8 throughout.

Design notes: the machine is a left fold, so that reading a byte string in two parts is
reading the first and going on with the second.  What a character still owes is kept as the
range allowed for the next byte; the ranges after `E0`, `ED`, `F0` and `F4` are the narrow
ones that rule out overlong forms, surrogates and values above U+10FFFF.
-/

namespace InlineAudit

/-- Octets, as files, pipes and paths hold them. -/
abbrev Bytes := List UInt8

namespace Utf8

/-- The character that stands for bytes that are not UTF-8. -/
def replacement : Char := '\ufffd'

/-- A character that has begun and is not complete: the value of the bytes read so far, the
number of bytes still owed, and the range that the next one has to lie in. -/
structure Open where
  value : Nat
  owed : Nat
  low : UInt8
  high : UInt8
  deriving Repr, DecidableEq

/-- What the first byte of a character can be. -/
inductive Lead
  /-- A character of one byte. -/
  | complete (c : Char)
  /-- The start of a longer character. -/
  | opens (o : Open)
  /-- No character starts with it. -/
  | invalid
  deriving Repr, DecidableEq

/-- The reading of a byte between two characters. -/
def lead (b : UInt8) : Lead :=
  let v := b.toNat
  if v < 0x80 then .complete (Char.ofNat v)
  else if v < 0xC2 then .invalid
  else if v < 0xE0 then .opens ⟨v - 0xC0, 1, 0x80, 0xBF⟩
  else if v = 0xE0 then .opens ⟨0, 2, 0xA0, 0xBF⟩
  else if v = 0xED then .opens ⟨0xD, 2, 0x80, 0x9F⟩
  else if v < 0xF0 then .opens ⟨v - 0xE0, 2, 0x80, 0xBF⟩
  else if v = 0xF0 then .opens ⟨0, 3, 0x90, 0xBF⟩
  else if v < 0xF4 then .opens ⟨v - 0xF0, 3, 0x80, 0xBF⟩
  else if v = 0xF4 then .opens ⟨4, 3, 0x80, 0x8F⟩
  else .invalid

/-- The decoder between two bytes: the characters so far, the last one first, and the
character that is open, if any. -/
structure Decoder where
  text : List Char
  pending : Option Open
  deriving Repr, DecidableEq

/-- The decoder before the first byte. -/
def Decoder.empty : Decoder := ⟨[], none⟩

/-- The decoder after a byte that is read between two characters. -/
def Decoder.begin (text : List Char) (b : UInt8) : Decoder :=
  match lead b with
  | .complete c => ⟨c :: text, none⟩
  | .opens o => ⟨text, some o⟩
  | .invalid => ⟨replacement :: text, none⟩

/-- One byte.  A byte that cannot continue the open character closes it as a replacement and
is then read afresh. -/
def Decoder.step (d : Decoder) (b : UInt8) : Decoder :=
  match d.pending with
  | none => Decoder.begin d.text b
  | some o =>
    if o.low ≤ b ∧ b ≤ o.high then
      let value := o.value * 64 + b.toNat % 64
      if o.owed ≤ 1 then ⟨Char.ofNat value :: d.text, none⟩
      else ⟨d.text, some ⟨value, o.owed - 1, 0x80, 0xBF⟩⟩
    else Decoder.begin (replacement :: d.text) b

/-- The characters at the end of the bytes; an open character ends as a replacement. -/
def Decoder.finish (d : Decoder) : List Char :=
  match d.pending with
  | none => d.text.reverse
  | some _ => (replacement :: d.text).reverse

/-- The characters of a byte string, with replacements for what is not UTF-8. -/
def decodeChars (bs : Bytes) : List Char :=
  (bs.foldl Decoder.step .empty).finish

/-- The text of a byte string, with replacements for what is not UTF-8. -/
def decode (bs : Bytes) : String :=
  String.ofList (decodeChars bs)

/-- The bytes of a list of characters. -/
def encodeChars (cs : List Char) : Bytes :=
  cs.flatMap String.utf8EncodeChar

/-- The bytes of a text. -/
def encode (s : String) : Bytes :=
  encodeChars s.toList

/-- The text of a byte string that is UTF-8 throughout.  A replacement is three bytes that were
not there, so a byte string is UTF-8 exactly when decoding and encoding gives it back. -/
def decode? (bs : Bytes) : Option String :=
  let cs := decodeChars bs
  if encodeChars cs = bs then some (String.ofList cs) else none

end Utf8

end InlineAudit
