/-!
What can go wrong between a program and the system it runs on, and how it is worded.
-/

namespace InlineAudit

/-- A failed request to the system. -/
inductive IoError
  | noSuchFile
  | permissionDenied
  | notADirectory
  | isADirectory
  | tooManyLinks
  | nameTooLong
  | notExecutableFormat
  | argumentsTooLong
  /-- A file that is read as text is not UTF-8. -/
  | notUtf8
  /-- A file name holds a NUL. -/
  | nulInName
  /-- An argument of a command holds a NUL. -/
  | nulInArgument
  /-- A failure that brings its own wording. -/
  | reported (message : String)
  deriving Repr, DecidableEq, Inhabited

namespace IoError

/-- What a failure is called. -/
def reason : IoError → String
  | .noSuchFile => "No such file or directory"
  | .notExecutableFormat => "Exec format error"
  | .argumentsTooLong => "Argument list too long"
  | .permissionDenied => "Permission denied"
  | .notADirectory => "Not a directory"
  | .isADirectory => "Is a directory"
  | .nameTooLong => "File name too long"
  | .tooManyLinks => "Too many levels of symbolic links"
  | .notUtf8 => "stream did not contain valid UTF-8"
  | .nulInName => "file name contained an unexpected NUL byte"
  | .nulInArgument => "nul byte found in provided data"
  | .reported message => message

/-- The number that the system gives to a failure. -/
def number? : IoError → Option Nat
  | .noSuchFile => some 2
  | .argumentsTooLong => some 7
  | .notExecutableFormat => some 8
  | .permissionDenied => some 13
  | .notADirectory => some 20
  | .isADirectory => some 21
  | .nameTooLong => some 36
  | .tooManyLinks => some 40
  | _ => none

/-- The wording of a failure; those with a number carry it. -/
def text (e : IoError) : String :=
  match e.number? with
  | some n => e.reason ++ " (os error " ++ toString n ++ ")"
  | none => e.reason

end IoError

end InlineAudit
