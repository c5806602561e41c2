import ScriptIR.Json.Basic
import ScriptIR.Number.Shortest
import ScriptIR.Text.Quoted

/-!
# Writing documents

`Json.compact` writes a value on one line, `Json.pretty` one entry or item a line, two blanks deeper
for each level. Either way the text is ASCII: other characters are written as the escapes of their
16-bit units.
-/
namespace ScriptIR.Json

/-- The escape of one 16-bit unit. -/
def unitEscape (n : Nat) : List Char :=
  '\\' :: 'u' :: Text.hexDigits 4 n

def escapeChar (c : Char) : List Char :=
  if c = '"' then ['\\', '"']
  else if c = '\\' then ['\\', '\\']
  else if c = '\n' then ['\\', 'n']
  else if c = '\r' then ['\\', 'r']
  else if c = '\t' then ['\\', 't']
  else if c = '\x0c' then ['\\', 'f']
  else if c = '\x08' then ['\\', 'b']
  else if 0x20 ≤ c.toNat && c.toNat ≤ 0x7E then [c]
  else if c.toNat < 0x10000 then unitEscape c.toNat
  else
    let offset := c.toNat - 0x10000
    unitEscape (0xD800 + offset / 0x400) ++ unitEscape (0xDC00 + offset % 0x400)

/-- A half is a 16-bit unit by itself. -/
def escapePoint (point : Nat) : List Char :=
  if Text.isHalf point then unitEscape point else escapeChar (Char.ofNat point)

def stringText (s : String) : String :=
  String.ofList ('"' :: (Text.points s.toList).flatMap escapePoint ++ ['"'])

def floatText : Binary64 → String
  | .nan => "NaN"
  | .infinite negative => if negative then "-Infinity" else "Infinity"
  | x => x.text

mutual
def compact : Json → String
  | .null => "null"
  | .bool b => if b then "true" else "false"
  | .int i => toString i
  | .float x => floatText x
  | .string s => stringText s
  | .array items => "[" ++ ", ".intercalate (compactItems items) ++ "]"
  | .object entries => "\x7b" ++ ", ".intercalate (compactEntries entries) ++ "\x7d"

def compactItems : List Json → List String
  | [] => []
  | x :: xs => x.compact :: compactItems xs

def compactEntries : List (String × Json) → List String
  | [] => []
  | (k, v) :: rest => (stringText k ++ ": " ++ v.compact) :: compactEntries rest
end

/-- A line break, and the blanks before the next line. -/
def newLine (depth : Nat) : String :=
  String.ofList ('\n' :: List.replicate (2 * depth) ' ')

/-- Parts between brackets, each on a line of its own. -/
def enclose (opening closing : String) (depth : Nat) : List String → String
  | [] => opening ++ closing
  | parts =>
    opening ++ newLine (depth + 1) ++ ("," ++ newLine (depth + 1)).intercalate parts ++
      newLine depth ++ closing

mutual
/-- The value as it is written `depth` levels deep. -/
def prettyAt (depth : Nat) : Json → String
  | .array items => enclose "[" "]" depth (prettyItems (depth + 1) items)
  | .object entries => enclose "\x7b" "\x7d" depth (prettyEntries (depth + 1) entries)
  | .null => "null"
  | .bool b => if b then "true" else "false"
  | .int i => toString i
  | .float x => floatText x
  | .string s => stringText s

def prettyItems (depth : Nat) : List Json → List String
  | [] => []
  | x :: xs => x.prettyAt depth :: prettyItems depth xs

def prettyEntries (depth : Nat) : List (String × Json) → List String
  | [] => []
  | (k, v) :: rest => (stringText k ++ ": " ++ v.prettyAt depth) :: prettyEntries depth rest
end

def pretty (v : Json) : String :=
  v.prettyAt 0

end ScriptIR.Json
