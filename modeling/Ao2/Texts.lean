import Ao2.Json

/-!
# Texts of paths and values

Paths are texts here, put together as the path type of the standard library does. A value is written
on one line, without spaces.
-/

namespace Ao2

/-! ### Paths -/

/-- The directory of a path; empty for a path without one. -/
def parentPath (path : String) : String :=
  let dir := (path.toList.reverse.dropWhile (· ≠ '/')).reverse
  if dir = ['/'] then "/" else .ofList dir.dropLast

/-- A path below a directory, unless it is absolute. -/
def joinPath (dir path : String) : String :=
  if path.toList.head? = some '/' ∨ dir = "" then path
  else if dir.toList.getLast? = some '/' then dir ++ path
  else dir ++ "/" ++ path

/-- The path of another file in the same directory. -/
def withFileName (path name : String) : String := joinPath (parentPath path) name

/-- A path is below a directory. -/
def isBelow (dir path : String) : Bool := (dir ++ "/").toList <+: path.toList

/-! ### Quoting -/

/-- The number below 16 as a hexadecimal digit. -/
def hexDigit (n : ℕ) : Char :=
  if n < 10 then .ofNat ('0'.toNat + n) else .ofNat ('a'.toNat + n - 10)

/-- A character within a JSON string. -/
def escapeChar (c : Char) : List Char :=
  if c = '"' then ['\\', '"']
  else if c = '\\' then ['\\', '\\']
  else if c = '\n' then ['\\', 'n']
  else if c = '\r' then ['\\', 'r']
  else if c = '\t' then ['\\', 't']
  else if c.toNat = 8 then ['\\', 'b']
  else if c.toNat = 12 then ['\\', 'f']
  else if c.toNat < 32 then ['\\', 'u', '0', '0', hexDigit (c.toNat / 16), hexDigit (c.toNat % 16)]
  else [c]

/-- A text as a JSON string. -/
def quoteJson (s : String) : List Char := '"' :: (s.toList.flatMap escapeChar ++ ['"'])

namespace Json

mutual

/-- A value on one line. -/
def compactText : Json → List Char
  | .null => "null".toList
  | .bool b => (if b then "true" else "false").toList
  | .num n => (toString n).toList
  | .str s => quoteJson s
  | .arr items => '[' :: compactItems items
  | .obj members => '{' :: compactMembers members

def compactItems : List Json → List Char
  | [] => [']']
  | [item] => compactText item ++ [']']
  | item :: items => compactText item ++ ',' :: compactItems items

def compactMembers : List (String × Json) → List Char
  | [] => ['}']
  | [(key, value)] => quoteJson key ++ ':' :: (compactText value ++ ['}'])
  | (key, value) :: members => quoteJson key ++ ':' :: (compactText value ++ ',' :: compactMembers members)

end

def compact (v : Json) : String := .ofList v.compactText

end Json

end Ao2
