/-!
# Control sequences

A terminal takes an escape character, an opening bracket, parameters, intermediate characters and
one final character for a control sequence. A text for any other reader goes without them. What only
starts like a control sequence stays.
-/
namespace ScriptIR.Text

def escapeCharacter : Char := '\x1b'

def isParameter (c : Char) : Bool :=
  0x30 ≤ c.toNat && c.toNat ≤ 0x3F

def isIntermediate (c : Char) : Bool :=
  0x20 ≤ c.toNat && c.toNat ≤ 0x2F

def isFinal (c : Char) : Bool :=
  0x40 ≤ c.toNat && c.toNat ≤ 0x7E

/-- How far a control sequence has been read. -/
inductive SequencePart where
  | escape
  | parameters
  | intermediates
deriving Repr, DecidableEq

/-- What one more character makes of a control sequence that has been read in part. -/
inductive SequenceStep where
  | further (part : SequencePart)
  | complete
  | broken
deriving Repr, DecidableEq

def SequencePart.step (part : SequencePart) (c : Char) : SequenceStep :=
  match part with
  | .escape => if c = '[' then .further .parameters else .broken
  | .parameters =>
    if isParameter c then .further .parameters
    else if isIntermediate c then .further .intermediates
    else if isFinal c then .complete
    else .broken
  | .intermediates =>
    if isIntermediate c then .further .intermediates
    else if isFinal c then .complete
    else .broken

/-- A text that has been read in part: what stays of it, and the control sequence that may have
begun; of both the last character comes first. -/
structure PlainPrefix where
  kept : List Char := []
  pending : Option (SequencePart × List Char) := none
deriving Repr, DecidableEq

namespace PlainPrefix

/-- One more character outside of any control sequence. -/
def begin (kept : List Char) (c : Char) : PlainPrefix :=
  if c = escapeCharacter then ⟨kept, some (.escape, [c])⟩ else ⟨c :: kept, none⟩

/-- One more character. A sequence that is broken off stays. -/
def step (p : PlainPrefix) (c : Char) : PlainPrefix :=
  match p.pending with
  | none => begin p.kept c
  | some (part, read) =>
    match part.step c with
    | .further next => ⟨p.kept, some (next, c :: read)⟩
    | .complete => ⟨p.kept, none⟩
    | .broken => begin (read ++ p.kept) c

/-- What stays if the text ends here. -/
def chars (p : PlainPrefix) : List Char :=
  match p.pending with
  | none => p.kept.reverse
  | some (_, read) => (read ++ p.kept).reverse

end PlainPrefix

/-- The text without control sequences. -/
def plain (s : String) : String :=
  String.ofList (s.toList.foldl PlainPrefix.step {}).chars

end ScriptIR.Text
