/-!
# Faults of input and output

Why an operation on files fails, and the text of each cause.
-/

namespace EventRelay

/-- Why an operation on files fails. -/
inductive DiskFault where
  /-- There is no file of this name. -/
  | notFound
  /-- Something else already stands in the place of a directory. -/
  | alreadyExists
  /-- The data ends before everything asked for is read. -/
  | endOfFile
  /-- A text file holds bytes that are not UTF-8. -/
  | notText
  /-- A store reports a cause of its own. -/
  | other (message : String)
deriving DecidableEq, Repr

/-- The text of the fault. -/
def DiskFault.message : DiskFault → String
  | .notFound => "No such file or directory (os error 2)"
  | .alreadyExists => "File exists (os error 17)"
  | .endOfFile => "failed to fill whole buffer"
  | .notText => "stream did not contain valid UTF-8"
  | .other message => message

end EventRelay
