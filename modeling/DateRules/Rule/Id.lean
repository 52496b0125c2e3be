/-!
# Rule ids

A rule id is written in groups of lower-case letters and digits with single
hyphens between them. One line break at the end is allowed.
-/

namespace DateRules

/-- Whether a character may be part of a group of an id. -/
def isIdChar (c : Char) : Bool :=
  ('a' ≤ c && c ≤ 'z') || ('0' ≤ c && c ≤ '9')

/-- Whether characters continue an id, where `inGroup` tells whether the group
at hand has characters already. -/
def isKebabFrom (inGroup : Bool) : List Char → Bool
  | [] => inGroup
  | c :: cs =>
      if isIdChar c then isKebabFrom true cs
      else c == '-' && inGroup && isKebabFrom false cs

/-- Whether characters are non-empty groups with single hyphens between them. -/
def isKebab (cs : List Char) : Bool := isKebabFrom false cs

/-- Whether characters are a rule id. -/
def isRuleId (cs : List Char) : Bool :=
  isKebab cs || (cs.getLast? == some '\n' && isKebab cs.dropLast)

end DateRules
