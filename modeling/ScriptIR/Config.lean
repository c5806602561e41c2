import ScriptIR.Text.CaseFold

/-!
# Configuration

How names are spelled and compared, and what the types of literals are called.
-/
namespace ScriptIR

structure Config where
  /-- What a declared parameter's name starts with. -/
  sigil : String := "$"
  /-- What a flag at a call starts with. -/
  flagMarker : String := "-"
  ignoreCase : Bool := true
  integerType : String := "integer"
  stringType : String := "string"
deriving Repr, DecidableEq

/-- The form of a name by which it is compared. -/
def Config.key (cfg : Config) (name : String) : String :=
  if cfg.ignoreCase then Text.caseFold name else name

end ScriptIR
