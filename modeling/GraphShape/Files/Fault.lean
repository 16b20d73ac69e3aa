/-!
# File faults

What can go wrong with a file, and what the operating system says about it.
-/

namespace GraphShape

inductive FileFault where
  | notFound
  | alreadyExists
  | notADirectory
  | isADirectory
  | nameTooLong
  | notText
  /-- No file has a name with a zero byte in it, and the operating system is not even asked. -/
  | zeroByte
  | other (text : String)
  deriving DecidableEq, Repr

namespace FileFault

def text : FileFault → String
  | notFound => "No such file or directory (os error 2)"
  | alreadyExists => "File exists (os error 17)"
  | notADirectory => "Not a directory (os error 20)"
  | isADirectory => "Is a directory (os error 21)"
  | nameTooLong => "File name too long (os error 36)"
  | notText => "stream did not contain valid UTF-8"
  | zeroByte => "file name contained an unexpected NUL byte"
  | other text => text

/-- The complaint about a file that cannot be read. -/
def refusal (fault : FileFault) : String := "Could not open file: " ++ fault.text

end FileFault

def textOfBytes (bytes : ByteArray) : Except FileFault String :=
  match String.fromUTF8? bytes with
  | some s => .ok s
  | none => .error .notText

end GraphShape
