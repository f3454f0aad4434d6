import DesignTokens.Text.Utf8

/-!
# File faults

Why a file operation fails, with the path that it was asked for.
-/

namespace DesignTokens

/-- Why a file operation fails. -/
inductive FileCause where
  | notPermitted
  | missing
  | exists
  | notDirectory
  | isDirectory
  | nameTooLong
  /-- A path with a null character. No operation is tried on it, so it has no number. -/
  | nullByte
  /-- A path or a content that cannot be encoded, which has no number either. -/
  | unencodable (fault : Text.Utf8.Unencodable)
  | other (number : Nat) (text : String)
  deriving DecidableEq, Repr

/-- The number of a cause. -/
def FileCause.number : FileCause → Nat
  | notPermitted => 13
  | missing => 2
  | .exists => 17
  | notDirectory => 20
  | isDirectory => 21
  | nameTooLong => 36
  | nullByte => 0
  | unencodable _ => 0
  | other number _ => number

/-- The wording of a cause. -/
def FileCause.text : FileCause → String
  | notPermitted => "Permission denied"
  | missing => "No such file or directory"
  | .exists => "File exists"
  | notDirectory => "Not a directory"
  | isDirectory => "Is a directory"
  | nameTooLong => "File name too long"
  | nullByte => "embedded null byte"
  | unencodable fault => fault.message
  | other _ text => text

/-- Whether a cause lies in a text that was given and not in the files, so that no system error
reports it. -/
def FileCause.isTextual : FileCause → Bool
  | nullByte | unencodable _ => true
  | _ => false

/-- A failed file operation. -/
structure FileFault where
  cause : FileCause
  path : String
  deriving DecidableEq, Repr

def FileFault.message (fault : FileFault) : String :=
  "[Errno " ++ toString fault.cause.number ++ "] " ++ fault.cause.text ++ ": " ++
    Text.quoted fault.path

end DesignTokens
