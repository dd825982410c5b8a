import TypeAtlas.Text.LetterCase

/-!
# Formats

A transform may be restricted to media types.  A pattern names one media type,
all subtypes of a main type, or everything, and the more it says the higher it
scores.
-/

namespace TypeAtlas

/-- The media type that values are written in or read from. -/
abbrev Format := String

namespace Format

/-- The format of a context that asks for none in particular. -/
def anything : Format := "*/*"

/-- The score of a pattern that names the format. -/
def exactScore : Nat := 100

/-- The score of a pattern that names the main type of the format. -/
def rangeScore : Nat := 50

/-- The score of a pattern that stands for everything. -/
def wildcardScore : Nat := 10

def unrestrictedScore : Nat := 1

/-- The main type of a pattern for all its subtypes. -/
def rangeOf? (pattern : String) : Option String :=
  match pattern.toList.reverse with
  | '*' :: '/' :: main => some (String.ofList main.reverse)
  | _ => none

/-- The main type of a format: what stands before its first slash. -/
def mainType? (format : Format) : Option String :=
  match format.toList.dropWhile (· != '/') with
  | [] => none
  | _ => some (String.ofList (format.toList.takeWhile (· != '/')))

/-- Whether a pattern stands for all subtypes of the format's main type. -/
def isRange (pattern : String) (format : Format) : Bool :=
  match rangeOf? pattern, mainType? format with
  | some range, some main => Text.equalAscii main range
  | _, _ => false

def scorePattern (pattern : String) (format : Format) : Nat :=
  if Text.equalAscii pattern format then exactScore
  else if pattern == "*/*" || pattern == "*" then wildcardScore
  else if isRange pattern format then rangeScore
  else 0

/-- The score of a list of patterns for a format: that of its best pattern. -/
def scorePatterns (patterns : List String) (format : Format) : Nat :=
  if patterns.isEmpty then unrestrictedScore
  else (patterns.map (scorePattern · format)).foldl max 0

end Format

end TypeAtlas
