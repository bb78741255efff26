import SqlSnippet.Layout.Options
import SqlSnippet.Number.Whole
import SqlSnippet.Text.Loose
import SqlSnippet.Text.Utf8

/-!
# Faults

What can go wrong below the settings and commands: a file that is not there, not what it should be
or kept from its user, bytes that are no text, a loose text that is none, a number with too many
digits to read or to write, values too deep inside each other, an indent that cannot be made, a
library or a language server that fails. Each kind has a name and a wording for error messages.
-/

namespace SqlSnippet

/-- Why a file operation fails. -/
inductive FileCause where
  | notFound
  | notDirectory
  | isDirectory
  | nameTooLong
  | denied
  deriving DecidableEq, Repr

/-- What can go wrong below the settings and commands. -/
inductive Fault where
  | file (cause : FileCause) (path : Text)
  | nullInPath
  | encoding (m : Utf8.Malformed)
  | strayHalves (e : StrayHalves)
  | tooManyDigits (count : Nat)
  | unwritable
  | tooDeep (activity : String)
  | indent (e : IndentError)
  | infiniteWidth
  | library (name message : String)
  | server
  deriving DecidableEq, Repr

/-- The number and the wording of a file fault. -/
def FileCause.description : FileCause → String
  | .notFound => "[Errno 2] No such file or directory"
  | .notDirectory => "[Errno 20] Not a directory"
  | .isDirectory => "[Errno 21] Is a directory"
  | .nameTooLong => "[Errno 36] File name too long"
  | .denied => "[Errno 13] Permission denied"

namespace Fault

/-- The name of the kind of fault. -/
def name : Fault → String
  | .file .notFound _ => "FileNotFoundError"
  | .file .notDirectory _ => "NotADirectoryError"
  | .file .isDirectory _ => "IsADirectoryError"
  | .file .nameTooLong _ => "OSError"
  | .file .denied _ => "PermissionError"
  | .nullInPath => "ValueError"
  | .encoding _ => "UnicodeDecodeError"
  | .strayHalves _ => "UnicodeEncodeError"
  | .tooManyDigits _ => "ValueError"
  | .unwritable => "ValueError"
  | .tooDeep _ => "RecursionError"
  | .indent .beyondIndex => "OverflowError"
  | .indent .beyondMemory => "MemoryError"
  | .infiniteWidth => "OverflowError"
  | .library name _ => name
  | .server => "RuntimeError"

/-- The wording of a fault. -/
def message : Fault → String
  | .file cause path => cause.description ++ ": " ++ String.ofList (quoted path)
  | .nullInPath => "embedded null byte"
  | .encoding m => m.message
  | .strayHalves e => e.message
  | .tooManyDigits count =>
    "Exceeds the limit (" ++ toString maxDigits ++
      " digits) for integer string conversion: value has " ++ toString count ++
      " digits; use sys.set_int_max_str_digits() to increase the limit"
  | .unwritable =>
    "Exceeds the limit (" ++ toString maxDigits ++
      " digits) for integer string conversion; " ++
      "use sys.set_int_max_str_digits() to increase the limit"
  | .tooDeep activity => "maximum recursion depth exceeded" ++ activity
  | .indent .beyondIndex => "cannot fit 'int' into an index-sized integer"
  | .indent .beyondMemory => ""
  | .infiniteWidth => "cannot convert float infinity to integer"
  | .library _ message => message
  | .server => "server failed"

/-- Whether the fault comes from a file operation. -/
def isFile : Fault → Bool
  | .file .. => true
  | _ => false

end Fault

end SqlSnippet
