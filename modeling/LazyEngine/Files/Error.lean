/-
Why a file operation fails.
-/

namespace LazyEngine

/-- What the operating system, or the reading of a text, can refuse. -/
inductive FileError where
  | notFound
  | alreadyExists
  | notDirectory
  | isDirectory
  | notEmpty
  | tooManyLinks
  | nameTooLong
  | denied
  /-- The path holds a NUL character. -/
  | nulInPath
  /-- The file does not hold UTF-8 text. -/
  | notText
  /-- Not even the topmost directory of a path could be made. -/
  | noTopDirectory
deriving DecidableEq, Repr

/-- The error in words, with the number that the operating system gives it. -/
def FileError.message : FileError → String
  | notFound => "No such file or directory (os error 2)"
  | alreadyExists => "File exists (os error 17)"
  | notDirectory => "Not a directory (os error 20)"
  | isDirectory => "Is a directory (os error 21)"
  | notEmpty => "Directory not empty (os error 39)"
  | tooManyLinks => "Too many levels of symbolic links (os error 40)"
  | nameTooLong => "File name too long (os error 36)"
  | denied => "Permission denied (os error 13)"
  | nulInPath => "file name contained an unexpected NUL byte"
  | notText => "stream did not contain valid UTF-8"
  | noTopDirectory => "failed to create whole tree"

end LazyEngine
