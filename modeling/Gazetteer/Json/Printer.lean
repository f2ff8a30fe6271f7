import Gazetteer.Json.Basic

/-!
# Writing JSON

`Json.compact` writes a value without blanks, `Json.pretty` one item or member a line, two blanks a level.
Both put the text of a value in front of a given rest, so that what follows a value never has to be cut off
again when the text is read.
-/

namespace Gazetteer.Json

set_option autoImplicit false

/-- A digit to base sixteen. -/
def hexDigit (n : Nat) : Char := if n < 10 then Char.ofNat (48 + n) else Char.ofNat (87 + n)

/-- A character inside a quoted text. Only what cannot stand there as itself is escaped. -/
def escaped (c : Char) : List Char :=
  if c = '"' then ['\\', '"']
  else if c = '\\' then ['\\', '\\']
  else if c = '\n' then ['\\', 'n']
  else if c = '\r' then ['\\', 'r']
  else if c = '\t' then ['\\', 't']
  else if c = '\x08' then ['\\', 'b']
  else if c = '\x0c' then ['\\', 'f']
  else if c.toNat < 0x20 then ['\\', 'u', '0', '0', hexDigit (c.toNat / 16), hexDigit (c.toNat % 16)]
  else [c]

/-- The characters of a quoted text and the closing quote. -/
def writeChars : List Char → List Char → List Char
  | [], rest => '"' :: rest
  | c :: cs, rest => escaped c ++ writeChars cs rest

/-- A quoted text. -/
def writeString (s : String) (rest : List Char) : List Char := '"' :: writeChars s.toList rest

mutual

/-- A value without blanks. -/
def writeCompact : Json → List Char → List Char
  | .null, rest => "null".toList ++ rest
  | .bool true, rest => "true".toList ++ rest
  | .bool false, rest => "false".toList ++ rest
  | .number n, rest => n.text.toList ++ rest
  | .string s, rest => writeString s rest
  | .array [], rest => '[' :: ']' :: rest
  | .array (item :: items), rest => '[' :: writeCompact item (compactItems items rest)
  | .object [], rest => '\x7b' :: '\x7d' :: rest
  | .object ((key, value) :: members), rest =>
      '\x7b' :: writeString key (':' :: writeCompact value (compactMembers members rest))

/-- The remaining items of an array and its end. -/
def compactItems : List Json → List Char → List Char
  | [], rest => ']' :: rest
  | item :: items, rest => ',' :: writeCompact item (compactItems items rest)

/-- The remaining members of an object and its end. -/
def compactMembers : List (String × Json) → List Char → List Char
  | [], rest => '\x7d' :: rest
  | (key, value) :: members, rest =>
      ',' :: writeString key (':' :: writeCompact value (compactMembers members rest))

end

/-- A line break and the blanks of a level. -/
def indent (level : Nat) (rest : List Char) : List Char :=
  '\n' :: (List.replicate (2 * level) ' ' ++ rest)

mutual

/-- A value at a level of nesting, one item or member a line. -/
def writePretty (level : Nat) : Json → List Char → List Char
  | .null, rest => "null".toList ++ rest
  | .bool true, rest => "true".toList ++ rest
  | .bool false, rest => "false".toList ++ rest
  | .number n, rest => n.text.toList ++ rest
  | .string s, rest => writeString s rest
  | .array [], rest => '[' :: ']' :: rest
  | .array (item :: items), rest =>
      '[' :: indent (level + 1) (writePretty (level + 1) item (prettyItems level items rest))
  | .object [], rest => '\x7b' :: '\x7d' :: rest
  | .object ((key, value) :: members), rest =>
      '\x7b' :: indent (level + 1) (writeString key
        (':' :: ' ' :: writePretty (level + 1) value (prettyMembers level members rest)))

/-- The remaining items of an array and its end. -/
def prettyItems (level : Nat) : List Json → List Char → List Char
  | [], rest => indent level (']' :: rest)
  | item :: items, rest =>
      ',' :: indent (level + 1) (writePretty (level + 1) item (prettyItems level items rest))

/-- The remaining members of an object and its end. -/
def prettyMembers (level : Nat) : List (String × Json) → List Char → List Char
  | [], rest => indent level ('\x7d' :: rest)
  | (key, value) :: members, rest =>
      ',' :: indent (level + 1) (writeString key
        (':' :: ' ' :: writePretty (level + 1) value (prettyMembers level members rest)))

end

/-- The text of a value without blanks. -/
def compact (v : Json) : String := String.ofList (writeCompact v [])

/-- The text of a value, one item or member a line. -/
def pretty (v : Json) : String := String.ofList (writePretty 0 v [])

end Gazetteer.Json
