import RunLedger.Json.Value

/-!
# Printing JSON

Values are printed compactly, without any white space, or laid out over lines with two spaces of
indentation for each level. An empty array or object stays on its line in both forms.

## Main definitions

* `Json.print`: the compact form.
* `Json.printLines`: the form over lines, indented by a number of levels.
-/

namespace RunLedger.Json

/-- A written string between its quotes. -/
def quoted (written : List Char) : List Char := '"' :: written ++ ['"']

mutual

/-- The compact form of a value. -/
def print : Json → List Char
  | .null => ['n', 'u', 'l', 'l']
  | .bool true => ['t', 'r', 'u', 'e']
  | .bool false => ['f', 'a', 'l', 's', 'e']
  | .number written => written
  | .string written => quoted written
  | .array items => '[' :: printItems items ++ [']']
  | .object members => '\x7b' :: printMembers members ++ ['\x7d']

/-- The items of an array, separated by commas. -/
def printItems : List Json → List Char
  | [] => []
  | [v] => print v
  | v :: vs => print v ++ ',' :: printItems vs

/-- The members of an object, separated by commas. -/
def printMembers : List (List Char × Json) → List Char
  | [] => []
  | [(name, v)] => quoted name ++ ':' :: print v
  | (name, v) :: ms => quoted name ++ ':' :: (print v ++ ',' :: printMembers ms)

end

/-- A line break and the indentation of the given level. -/
def newLine (level : Nat) : List Char := '\n' :: List.replicate (2 * level) ' '

mutual

/-- The form of a value over lines, its own first line indented by the caller. -/
def printLines (level : Nat) : Json → List Char
  | .array [] => ['[', ']']
  | .array (v :: vs) =>
    '[' :: (newLine (level + 1) ++ printLines (level + 1) v ++ printMoreItems level vs
      ++ newLine level ++ [']'])
  | .object [] => ['\x7b', '\x7d']
  | .object ((name, v) :: ms) =>
    '\x7b' :: (newLine (level + 1) ++ quoted name ++ ':' :: ' ' :: (printLines (level + 1) v
      ++ printMoreMembers level ms ++ newLine level ++ ['\x7d']))
  | v => print v

/-- The items after the first, each on a line of its own. -/
def printMoreItems (level : Nat) : List Json → List Char
  | [] => []
  | v :: vs => ',' :: (newLine (level + 1) ++ printLines (level + 1) v ++ printMoreItems level vs)

/-- The members after the first, each on a line of its own. -/
def printMoreMembers (level : Nat) : List (List Char × Json) → List Char
  | [] => []
  | (name, v) :: ms =>
    ',' :: (newLine (level + 1) ++ quoted name ++ ':' :: ' ' :: (printLines (level + 1) v
      ++ printMoreMembers level ms))

end

end RunLedger.Json
