/-! Values of the JSON data format, restricted to natural numbers, and their indented text. -/
namespace ClassText

/-- Members of an object keep the order in which they are listed. -/
inductive Json where
  | null
  | bool (value : Bool)
  | number (value : Nat)
  | string (value : String)
  | array (items : List Json)
  | object (members : List (String × Json))
deriving Repr

namespace Json

/-- Four hexadecimal digits. -/
def fourDigits (n : Nat) : List Char :=
  let ds := Nat.toDigits 16 n
  List.replicate (4 - ds.length) '0' ++ ds

/-- A character as a JSON string holds it. Only quotes, backslashes and control characters differ from
themselves. -/
def escape (c : Char) : List Char :=
  if c = '\x22' then ['\\', '\x22']
  else if c = '\\' then ['\\', '\\']
  else if c = '\x08' then ['\\', 'b']
  else if c = '\x0c' then ['\\', 'f']
  else if c = '\n' then ['\\', 'n']
  else if c = '\r' then ['\\', 'r']
  else if c = '\t' then ['\\', 't']
  else if c.toNat < 0x20 then ['\\', 'u'] ++ fourDigits c.toNat
  else [c]

def quoted (s : String) : String :=
  String.ofList ('\x22' :: s.toList.flatMap escape ++ ['\x22'])

/-- Two spaces for each level. -/
def indentation (level : Nat) : String := String.ofList (List.replicate (2 * level) ' ')

mutual

/-- The text of a value of which the first line is already indented to a level. Nothing stands between
the brackets of an empty array or object. -/
def textAt (level : Nat) : Json → String
  | .null => "null"
  | .bool value => if value then "true" else "false"
  | .number value => toString value
  | .string value => quoted value
  | .array [] => "[]"
  | .array items => "[\n" ++ itemsText (level + 1) items ++ "\n" ++ indentation level ++ "]"
  | .object [] => "\x7b\x7d"
  | .object members =>
    "\x7b\n" ++ membersText (level + 1) members ++ "\n" ++ indentation level ++ "\x7d"

/-- Items on lines of their own, with commas between them. -/
def itemsText (level : Nat) : List Json → String
  | [] => ""
  | [j] => indentation level ++ textAt level j
  | j :: js => indentation level ++ textAt level j ++ ",\n" ++ itemsText level js

/-- Members on lines of their own, with commas between them. -/
def membersText (level : Nat) : List (String × Json) → String
  | [] => ""
  | [(key, j)] => indentation level ++ quoted key ++ ": " ++ textAt level j
  | (key, j) :: rest =>
    indentation level ++ quoted key ++ ": " ++ textAt level j ++ ",\n" ++ membersText level rest

end

def pretty (j : Json) : String := textAt 0 j

/-- The digits of a number in base 2³², least significant first. Zero has none. -/
def limbs (n : Nat) : List Nat :=
  if n = 0 then [] else n % 0x100000000 :: limbs (n / 0x100000000)
termination_by n
decreasing_by exact Nat.div_lt_self (by omega) (by decide)

end Json
end ClassText
