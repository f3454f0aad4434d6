import DesignTokens.Text.Case
import DesignTokens.Text.Pieces

/-!
# Property names

Style objects name properties in camel case, stylesheets in lower case with hyphens. A name that
holds a hyphen is taken as a stylesheet's own; a name that starts with the capitalised word of a
browser vendor gets the vendor's leading hyphen.

## Main definitions

- `propertyName` — the name of a property in a stylesheet
-/

namespace DesignTokens

def isCapital (c : Char) : Bool :=
  'A' ≤ c && c ≤ 'Z'

/-- A hyphen before every capital. -/
def hyphenate (cs : List Char) : List Char :=
  cs.flatMap fun c => if isCapital c then ['-', c] else [c]

def hyphenateAfterFirst : List Char → List Char
  | [] => []
  | c :: rest => c :: hyphenate rest

/-- The words that start the property names of browser vendors. -/
def vendorWords : List String :=
  ["webkit-", "moz-", "ms-"]

/-- Whether a name in lower case starts with the word of a vendor. -/
def startsWithVendor (s : String) : Bool :=
  vendorWords.any (Text.startsWith s)

/-- The name of a property in a stylesheet. -/
def propertyName (name : String) : String :=
  let cs := name.toList
  if cs.contains '-' then name
  else
    let lowered := Text.lower (String.ofList (hyphenateAfterFirst cs))
    if startsWithVendor lowered && (cs.head?.map isCapital).getD false then "-" ++ lowered
    else lowered

end DesignTokens
