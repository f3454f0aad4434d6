import DesignTokens.Text.Utf8

/-!
# Texts that can be encoded

A text can be encoded unless it holds a lone surrogate. What keeps it from being encoded is found in
the text itself.

## Main definitions

- `Text.isEncodable` — whether a text holds no lone surrogate
-/

namespace DesignTokens.Text

variable {s : String} {cs : List Char} {isRefused : Char → Bool} {position : Nat}

/-- Whether a text holds no lone surrogate. -/
def isEncodable (s : String) : Bool :=
  s.toList.all fun c => !isSurrogate c

theorem isEncodable_append (s t : String) :
    isEncodable (s ++ t) = (isEncodable s && isEncodable t) := by
  rw [isEncodable, String.toList_append, List.all_append]
  rfl

namespace Utf8

theorem faultFrom_eq_none_iff :
    faultFrom isRefused position cs = none ↔ cs.all (fun c => !isRefused c) = true := by
  induction cs generalizing position with
  | nil => simp [faultFrom]
  | cons c rest ih =>
    rw [faultFrom, List.all_cons]
    cases isRefused c <;> simp [ih]

theorem textFault?_eq_none_iff : textFault? s = none ↔ isEncodable s = true :=
  faultFrom_eq_none_iff

end Utf8

end DesignTokens.Text
