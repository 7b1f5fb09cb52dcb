import ParamQuery.Text.Blank
import ParamQuery.Text.Letter

/-!
# Canonical names

Parameter names and identifiers may be sent in camel, Pascal, kebab or snake case, or as spaced
words. Their canonical form is snake case.

## Main definitions

* `canonicalChars`, `canonical` — the canonical form.
-/

namespace ParamQuery

open Text

/-- A character between words. -/
def isSeparator (c : Char) : Bool := c == '-' || isBlank c

/-- Whether a capital after this character starts a new word. -/
def endsWord (c : Char) : Bool := isLower c || c.isDigit

/-- The canonical form of the rest of a name: `last` is the last character written so far, if any,
and `previous` the last one read, where a separator counts as an underscore.

A separator becomes an underscore, unless nothing or an underscore stands before it. A capital is
written in lower case, after an underscore if the character before it ends a word. -/
def canonicalFrom (last previous : Option Char) : List Char → List Char
  | [] => []
  | c :: rest =>
    if isSeparator c then
      if last.isSome && last != some '_' then '_' :: canonicalFrom (some '_') (some '_') rest
      else canonicalFrom last (some '_') rest
    else if isUpper c then
      (if previous.any endsWord then ['_'] else []) ++
        (lowered c ++ canonicalFrom (lowered c).getLast? (some c) rest)
    else c :: canonicalFrom (some c) (some c) rest

/-- The canonical form of a name, character by character. -/
def canonicalChars (name : List Char) : List Char := canonicalFrom none none name

/-- The canonical form of a name. -/
def canonical (name : String) : String := String.ofList (canonicalChars name.toList)

example : canonical "createdAt" = "created_at" := by decide
example : canonical " first-name" = "first_name" := by decide
example : canonical "HTTPServer2Go" = "httpserver2_go" := by decide

end ParamQuery
