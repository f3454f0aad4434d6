import DesignTokens.Document.Basic

/-!
# Flattening

The scalar leaves of a document with their dotted paths, in document order. Null, lists and stamps
have no leaf.

## Main definitions

- `literal?` — the text of a scalar leaf
- `flatten` — dotted paths and their texts
-/

namespace DesignTokens

/-- The text of a scalar leaf: truth values in lower case, numbers with their digits. -/
def literal? : Document → Option String
  | .bool b => some (if b then "true" else "false")
  | .int n => some (toString n)
  | .float x => some x.render
  | .text s => some s
  | _ => none

mutual
/-- The scalar leaves of a document below a path. -/
def flatten (path : String) : Document → List (String × String)
  | .mapping entries => flattenEntries path entries
  | d => (literal? d).toList.map (path, ·)

/-- The scalar leaves of a mapping's values below its path. -/
def flattenEntries (path : String) : List (String × Document) → List (String × String)
  | [] => []
  | (key, value) :: rest => flatten (path ++ "." ++ key) value ++ flattenEntries path rest
end

end DesignTokens
