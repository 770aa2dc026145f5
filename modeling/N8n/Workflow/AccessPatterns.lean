import Mathlib.Data.List.Infix
import N8n.Library.TextSearch

/-!
# References to nodes in expressions

`applyAccessPatterns` rewrites the references to a node when the node gets a
new name.  The escaped names match and insert themselves, so each access
pattern is a search for fixed texts around the old name.
-/

namespace N8n

open TextSearch

def isQuote (char : Char) : Bool := char = '\'' || char = '"'

def dotNotationBannedChars : List Char :=
  "\\ `!@#$%^&*()_+-=[]\x7b\x7d;':\"|,.<>?~".toList

/-- The pattern of digits is anchored, the character class is not. -/
def hasDotNotationBannedChar (nodeName : List Char) : Bool :=
  nodeName.head?.any Char.isDigit || nodeName.any fun char => dotNotationBannedChars.contains char

/-- The name between two quotes, behind `opening` and before one of `closers`. -/
def matchQuoted (opening closers previousName newName text : List Char) :
    Option (List Char × Nat) :=
  if opening <+: text then
    match text.drop opening.length with
    | quote :: behind =>
      if isQuote quote && decide (previousName <+: behind) then
        match behind.drop previousName.length with
        | closingQuote :: closer :: _ =>
          if isQuote closingQuote && closers.contains closer then
            some (opening ++ quote :: (newName ++ [closingQuote, closer]),
              opening.length + previousName.length + 3)
          else none
        | _ => none
      else none
    | [] => none
  else none

/-- `(\$node\.)name(\.?)` -/
def matchDotted (previousName newName text : List Char) : Option (List Char × Nat) :=
  let opening := "$node.".toList
  if opening ++ previousName <+: text then
    match text.drop (opening ++ previousName).length with
    | '.' :: _ =>
      some (opening ++ newName ++ ['.'], (opening ++ previousName).length + 1)
    | _ => some (opening ++ newName, (opening ++ previousName).length)
  else none

/-- The characters that `.` does not match. -/
def isLineTerminator (char : Char) : Bool :=
  ['\n', '\r', '\u2028', '\u2029'].contains char

/-- `.name( |\.)` -/
def matchBanned (newName : List Char) : List Char → Option (List Char × Nat)
  | [] => none
  | before :: text =>
    if !isLineTerminator before && decide (newName <+: text) then
      match text.drop newName.length with
      | separator :: _ =>
        if separator = ' ' || separator = '.' then
          some ("[\"".toList ++ newName ++ "\"]".toList ++ [separator], newName.length + 2)
        else none
      | [] => none
    else none

/-- An entry of `ACCESS_PATTERNS`. -/
structure AccessPattern where
  checkPattern : List Char
  replacePattern : List Char → List Char → List Char → Option (List Char × Nat)
  customCallback : Option (List Char → List Char → List Char) := none

def dottedCallback (expression newName : List Char) : List Char :=
  if hasDotNotationBannedChar newName then
    replaceMatches (matchBanned newName) expression
  else expression

def accessPatterns : List AccessPattern :=
  [{ checkPattern := "$(".toList
     replacePattern := matchQuoted "$(".toList [')'] },
   { checkPattern := "$node[".toList
     replacePattern := matchQuoted "$node[".toList [']'] },
   { checkPattern := "$node.".toList
     replacePattern := matchDotted
     customCallback := some dottedCallback },
   { checkPattern := "$items(".toList
     replacePattern := matchQuoted "$items(".toList [',', ')'] }]

def applyAccessPattern (previousName newName expression : List Char)
    (pattern : AccessPattern) : List Char :=
  if pattern.checkPattern <:+: expression then
    let replaced := replaceMatches (pattern.replacePattern previousName newName) expression
    match pattern.customCallback with
    | some customCallback => customCallback replaced newName
    | none => replaced
  else expression

def applyAccessPatterns (expression previousName newName : List Char) : List Char :=
  if previousName <:+: expression then
    accessPatterns.foldl (applyAccessPattern previousName newName) expression
  else expression

end N8n
