import ScriptIR.Diagnostics.Basic

/-!
# Log levels

The levels that a log can be limited to, by name in any case, and the numbers that order them.
-/
namespace ScriptIR.LogLevel

def numbers : List (String × Nat) :=
  [("CRITICAL", 50), ("FATAL", 50), ("ERROR", 40), ("WARNING", 30), ("WARN", 30), ("INFO", 20),
    ("DEBUG", 10), ("NOTSET", 0)]

/-- The upper case of a letter, as far as it can matter for a name in ASCII: outside ASCII only the
dotless i and the long s have an upper case that is a letter inside. -/
def upperLetter (c : Char) : Char :=
  if c = '\u0131' then 'I' else if c = '\u017F' then 'S' else c.toUpper

/-- The number of the level that a name means. -/
def number? (name : String) : Option Nat :=
  numbers.lookup (String.ofList (name.toList.map upperLetter))

def invalidMessage (name : String) : String :=
  "Invalid log level: " ++ name

end ScriptIR.LogLevel
