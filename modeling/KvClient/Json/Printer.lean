import KvClient.Json.Quoted

/-!
# Writing values

A value is written without blanks, and the members of an object in the order of their names.
-/

namespace KvClient.Json

mutual

/-- A value as text. -/
def print : Json → List Char
  | .null => ['n', 'u', 'l', 'l']
  | .bool true => ['t', 'r', 'u', 'e']
  | .bool false => ['f', 'a', 'l', 's', 'e']
  | .number n => n.text
  | .string s => quote s
  | .array items => '[' :: (printItems items ++ [']'])
  | .object members => '\x7b' :: (printMembers members ++ ['\x7d'])

/-- Values with commas between them. -/
def printItems : List Json → List Char
  | [] => []
  | [v] => print v
  | v :: rest => print v ++ ',' :: printItems rest

/-- Named values with commas between them. -/
def printMembers : List (String × Json) → List Char
  | [] => []
  | [(k, v)] => quote k ++ ':' :: print v
  | (k, v) :: rest => quote k ++ ':' :: (print v ++ ',' :: printMembers rest)

end

/-- A value as text. -/
def text (v : Json) : String := String.ofList v.print

end KvClient.Json
