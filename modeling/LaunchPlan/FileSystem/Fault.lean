/-!
The ways in which an operation on the file system or the search for a program fails, and the words
for each.
-/

namespace LaunchPlan

inductive Fault where
  | notFound
  | inputOutput
  | permissionDenied
  | alreadyExists
  | notDirectory
  | isDirectory
  | nameTooLong
  | tooManyLinks
  | nulInPath
  | emptyPath
  | notRegularFile
  | notUtf8
  | notExecutable
  deriving DecidableEq

/-- A reason as the host words it, with its number where it has one. -/
def Fault.reason : Fault → String
  | .notFound => "No such file or directory (os error 2)"
  | .inputOutput => "Input/output error (os error 5)"
  | .permissionDenied => "Permission denied (os error 13)"
  | .alreadyExists => "File exists (os error 17)"
  | .notDirectory => "Not a directory (os error 20)"
  | .isDirectory => "Is a directory (os error 21)"
  | .nameTooLong => "File name too long (os error 36)"
  | .tooManyLinks => "Too many levels of symbolic links (os error 40)"
  | .nulInPath => "file name contained an unexpected NUL byte"
  | .emptyPath => "cannot make an empty path absolute"
  | .notRegularFile => "the source path is neither a regular file nor a symlink to a regular file"
  | .notUtf8 => "stream did not contain valid UTF-8"
  | .notExecutable => "Exec format error (os error 8)"

/-- Why no program of a name is found. -/
inductive SearchFault where
  | noSearchPath
  | notFound
  deriving DecidableEq

def SearchFault.reason : SearchFault → String
  | .noSearchPath => "no path to search and provided name is not an absolute path"
  | .notFound => "cannot find binary path"

end LaunchPlan
