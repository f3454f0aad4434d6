import DesignTokens.Document.Stamp
import DesignTokens.Text.Quoted

/-!
# Faults of scalars

Why the text of a scalar stands for no value of its type.
-/

namespace DesignTokens

/-- Why the text of a scalar stands for no value of its type. -/
inductive ScalarFault where
  | noDigits
  | noInteger (base : Nat) (text : String)
  | noDecimal (text : String)
  | noTruthValue (word : String)
  | noStamp
  | noMoment (fault : CalendarFault)
  | noCharacter (number : Nat)
  deriving DecidableEq, Repr

/-- The wording of a scalar's fault. -/
def ScalarFault.message : ScalarFault → String
  | noDigits => "string index out of range"
  | noInteger base text =>
    "invalid literal for int() with base " ++ toString base ++ ": " ++ Text.quoted text
  | noDecimal text => "could not convert string to float: " ++ Text.quoted text
  | noTruthValue word => Text.quoted word
  | noStamp => "'NoneType' object has no attribute 'groupdict'"
  | noMoment fault => fault.message
  | noCharacter number =>
    if number < 0x80000000 then "chr() arg not in range(0x110000)"
    else "Python int too large to convert to C int"

end DesignTokens
