/-!
Failures of file operations.
-/

namespace Playground

/-- Why a file operation failed. -/
inductive FileError where
  | notFound
  | alreadyExists
  | notDirectory
  | isDirectory
  | invalidArgument
  | nameTooLong
  | notEmpty
  | tooManyLinks
  | denied
  | notUtf8
  | nulInPath
  | nulInCommand
  | emptyPath
  | notRegular
  | insideSource
deriving DecidableEq, Repr

namespace FileError

/-- The number under which the operating system reports a failure, if it does. -/
def number? : FileError → Option Nat
  | notFound => some 2
  | denied => some 13
  | alreadyExists => some 17
  | notDirectory => some 20
  | isDirectory => some 21
  | invalidArgument => some 22
  | nameTooLong => some 36
  | notEmpty => some 39
  | tooManyLinks => some 40
  | notUtf8 | nulInPath | nulInCommand | emptyPath | notRegular | insideSource => none

/-- The wording of a failure, without its number. -/
def reason : FileError → String
  | notFound => "No such file or directory"
  | denied => "Permission denied"
  | alreadyExists => "File exists"
  | notDirectory => "Not a directory"
  | isDirectory => "Is a directory"
  | invalidArgument => "Invalid argument"
  | nameTooLong => "File name too long"
  | notEmpty => "Directory not empty"
  | tooManyLinks => "Too many levels of symbolic links"
  | notUtf8 => "stream did not contain valid UTF-8"
  | nulInPath => "file name contained an unexpected NUL byte"
  | nulInCommand => "nul byte found in provided data"
  | emptyPath => "cannot make an empty path absolute"
  | notRegular => "the source path is neither a regular file nor a symlink to a regular file"
  | insideSource => "destination lies inside the package directory"

/-- The wording of a failure. Those that the operating system reports carry their number. -/
def message (e : FileError) : String :=
  match e.number? with
  | some n => e.reason ++ " (os error " ++ toString n ++ ")"
  | none => e.reason

end FileError

end Playground
