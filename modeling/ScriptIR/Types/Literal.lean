import ScriptIR.Text.Blank
import ScriptIR.Text.Quoted
import ScriptIR.Types.Basic

/-!
# Type literals

The notation of types in scripts: a dotted name, a list of arguments in brackets after it if it is
generic, and a pair of brackets for each array, with commas inside for further dimensions. Blanks
may stand between the tokens, and brackets around the whole literal count for nothing.

A literal is read token by token: `Reader.step` takes one token, and the reader's focus and frames
say what may come next. So a literal is refused at the first token that continues no literal.
-/
namespace ScriptIR.TypeLiteral

/-! ### Tokens -/

inductive Token where
  | name (text : String)
  | opening
  | closing
  | comma
  | dot
deriving Repr, DecidableEq

namespace Token

def kind : Token → String
  | name _ => "NAME"
  | opening => "LSQB"
  | closing => "RSQB"
  | comma => "COMMA"
  | dot => "DOT"

def text : Token → String
  | name text => text
  | opening => "["
  | closing => "]"
  | comma => ","
  | dot => "."

end Token

/-- A place in a text: characters before it, and line and column from one. -/
structure Place where
  offset : Nat := 0
  line : Nat := 1
  column : Nat := 1
deriving Repr, DecidableEq

def Place.after (p : Place) (c : Char) : Place :=
  if c = '\n' then ⟨p.offset + 1, p.line + 1, 1⟩ else ⟨p.offset + 1, p.line, p.column + 1⟩

/-- A token and where it starts, or a character that starts none. -/
inductive Lexeme where
  | token (token : Token) (place : Place)
  | stray (character : Char) (place : Place)
deriving Repr, DecidableEq

def isNameStart (c : Char) : Bool :=
  c.isAlpha || c = '_'

def isNamePart (c : Char) : Bool :=
  c.isAlphanum || c = '_' || c = '\x60'

def isGap (c : Char) : Bool :=
  c = ' ' || c = '\t' || c = '\x0c' || c = '\r' || c = '\n'

def punctuation? (c : Char) : Option Token :=
  if c = '[' then some .opening
  else if c = ']' then some .closing
  else if c = ',' then some .comma
  else if c = '.' then some .dot
  else none

/-- A name that has been read in part: its characters, the last one first, and its start. -/
abbrev Pending := Option (List Char × Place)

def finishName : Pending → List Lexeme
  | some (letters, start) => [.token (.name (String.ofList letters.reverse)) start]
  | none => []

/-- The lexemes of a text from `place` on. Nothing is read behind a stray character. -/
def lexFrom : Place → Pending → List Char → List Lexeme
  | _, pending, [] => finishName pending
  | place, pending, c :: cs =>
    match pending, isNamePart c with
    | some (letters, start), true => lexFrom (place.after c) (some (c :: letters, start)) cs
    | _, _ =>
      finishName pending ++
        if isNameStart c then lexFrom (place.after c) (some ([c], place)) cs
        else match punctuation? c with
          | some t => .token t place :: lexFrom (place.after c) none cs
          | none => if isGap c then lexFrom (place.after c) none cs else [.stray c place]

def lex (cs : List Char) : List Lexeme :=
  lexFrom {} none cs

/-! ### Reading a type -/

/-- Where the reader stands inside the innermost open literal. -/
inductive Focus where
  /-- A literal has to start. -/
  | start
  /-- After a name, so far a whole type. -/
  | name (name : String)
  /-- After the dot behind a name. -/
  | dotted (name : String)
  /-- After the bracket behind a name: arguments or an array. -/
  | opened (name : String)
  /-- Inside the brackets of an array of `element`. -/
  | rank (element : TypeExpr)
  /-- After brackets: a type that can only become an array's element. -/
  | complete (type : TypeExpr)
deriving Repr, DecidableEq

/-- A generic type whose argument list is open, with the arguments read so far. -/
structure Frame where
  name : String
  arguments : List TypeExpr
deriving Repr, DecidableEq

/-- The focus, and the open generic types, the innermost first. -/
structure Reader where
  focus : Focus := .start
  frames : List Frame := []
deriving Repr, DecidableEq

namespace Reader

/-- The type that stands at the focus, if the literal may end here. -/
def type? (r : Reader) : Option TypeExpr :=
  match r.focus with
  | .name n => some (.ofName n)
  | .complete t => some t
  | _ => none

/-- The type of the whole text, if it may end here. -/
def result? (r : Reader) : Option TypeExpr :=
  if r.frames.isEmpty then r.type? else none

/-- Behind an argument, a comma asks for the next one and a bracket closes the list. -/
def endArgument (r : Reader) (t : Token) : Option Reader :=
  match r.type?, r.frames with
  | some type, frame :: frames =>
    match t with
    | .comma => some ⟨.start, ⟨frame.name, frame.arguments ++ [type]⟩ :: frames⟩
    | .closing => some ⟨.complete (.generic frame.name (frame.arguments ++ [type])), frames⟩
    | _ => none
  | _, _ => none

/-- The reader after one more token, unless no literal goes on with it. -/
def step (r : Reader) (t : Token) : Option Reader :=
  match r.focus, t with
  | .start, .name n => some ⟨.name n, r.frames⟩
  | .name n, .dot => some ⟨.dotted n, r.frames⟩
  | .dotted n, .name m => some ⟨.name (n ++ "." ++ m), r.frames⟩
  | .name n, .opening => some ⟨.opened n, r.frames⟩
  | .opened n, .name m => some ⟨.name m, ⟨n, []⟩ :: r.frames⟩
  | .opened n, .comma => some ⟨.rank (.ofName n), r.frames⟩
  | .opened n, .closing => some ⟨.complete (.array (.ofName n)), r.frames⟩
  | .rank element, .comma => some ⟨.rank element, r.frames⟩
  | .rank element, .closing => some ⟨.complete (.array element), r.frames⟩
  | .complete type, .opening => some ⟨.rank type, r.frames⟩
  | _, _ => r.endArgument t

/-- The kinds of the tokens that may come next, for messages. -/
def expected (r : Reader) : List String :=
  let behind := if r.frames.isEmpty then ["$END"] else ["COMMA", "RSQB"]
  match r.focus with
  | .start | .dotted _ => ["NAME"]
  | .name _ => ["DOT", "LSQB"] ++ behind
  | .opened _ => ["COMMA", "NAME", "RSQB"]
  | .rank _ => ["COMMA", "RSQB"]
  | .complete _ => "LSQB" :: behind

end Reader

/-- Why a text is no literal; the lists name the tokens that could have stood there. -/
inductive Refusal where
  | empty
  | token (token : Token) (place : Place) (expected : List String)
  | stray (character : Char) (place : Place) (expected : List String)
  /-- The text ends too early; the place is that of its last token. -/
  | ending (lastToken : Place) (expected : List String)
deriving Repr, DecidableEq

/-- The type of the lexemes from a reader on; `last` is where the token before them starts. -/
def readFrom : Reader → (last : Place) → List Lexeme → Except Refusal TypeExpr
  | r, last, [] =>
    match r.result? with
    | some type => .ok type
    | none => .error (.ending last r.expected)
  | r, _, .stray c place :: _ => .error (.stray c place r.expected)
  | r, _, .token t place :: rest =>
    match r.step t with
    | some next => readFrom next place rest
    | none => .error (.token t place r.expected)

/-! ### Outer brackets -/

/-- Whether brackets are balanced again before the last character, `depth` of them being open. -/
def closesEarly : (depth : Nat) → List Char → Bool
  | _, [] => false
  | _, [_] => false
  | depth, c :: cs =>
    if c = '[' then closesEarly (depth + 1) cs
    else if c = ']' then depth == 1 || closesEarly (depth - 1) cs
    else closesEarly depth cs

/-- Whether the first and the last character are brackets that belong together; a bracket that is
never closed counts as closed by the last one. -/
def isEnclosed (cs : List Char) : Bool :=
  cs.head? == some '[' && cs.getLast? == some ']' && !closesEarly 0 cs

/-- The text without the brackets that enclose it, however many there are. Every round takes two
characters away, so fuel of the length is enough. -/
def stripWith : (fuel : Nat) → List Char → List Char
  | 0, cs => cs
  | fuel + 1, cs =>
    if isEnclosed cs then stripWith fuel (Text.trimChars cs.tail.dropLast) else cs

def stripBrackets (cs : List Char) : List Char :=
  stripWith cs.length cs

/-- What is left of a literal without its outer blanks and brackets. -/
def body (text : String) : List Char :=
  stripBrackets (Text.trimChars text.toList)

/-! ### Whole literals -/

/-- The text that was refused, and why. -/
structure Invalid where
  text : String
  reason : Refusal
deriving Repr, DecidableEq

def parse (text : String) : Except Invalid TypeExpr :=
  match body text with
  | [] => .error ⟨text, .empty⟩
  | cs => (readFrom {} {} (lex cs)).mapError fun reason => ⟨text, reason⟩

/-- The length of a text on a screen where tabs go on to the next multiple of eight. -/
def screenLength : (column total : Nat) → List Char → Nat
  | _, total, [] => total
  | column, total, c :: cs =>
    if c = '\t' then screenLength 0 (total + (8 - column % 8)) cs
    else if c = '\r' then screenLength 0 (total + 1) cs
    else screenLength (column + 1) (total + 1) cs

/-- The line around an offset, cut to forty code points on either side, and a mark below. Nothing
before a stray character takes more than one character to spell. -/
def excerpt (cs : List Char) (offset : Nat) : List Char :=
  let before := ((((cs.take offset).reverse.take 40).takeWhile (· ≠ '\n'))).reverse
  let after := (Text.takePoints 40 (cs.drop offset)).takeWhile (· ≠ '\n')
  before ++ after ++ '\n' :: List.replicate (screenLength 0 0 before) ' ' ++ ['^', '\n']

def expectedText (expected : List String) : String :=
  "Expected one of: \n" ++ String.join (expected.map fun kind => "\t* " ++ kind ++ "\n")

def unexpected (kind text : String) (place : Place) (expected : List String) : String :=
  "Unexpected token Token('" ++ kind ++ "', '" ++ text ++ "') at line " ++ toString place.line ++
    ", column " ++ toString place.column ++ ".\n" ++ expectedText expected

def Invalid.message (e : Invalid) : String :=
  let invalid := "Invalid type literal " ++ Text.quote e.text ++ ": "
  match e.reason with
  | .empty => "Empty type literal: " ++ Text.quote e.text
  | .token t place expected => invalid ++ unexpected t.kind t.text place expected
  | .ending place expected => invalid ++ unexpected "$END" "" place expected
  | .stray _ place expected =>
    invalid ++ "No terminal matches '" ++
      String.ofList (Text.takePoints 1 ((body e.text).drop place.offset)) ++
      "' in the current parser context, at line " ++ toString place.line ++ " col " ++
      toString place.column ++ "\n\n" ++ String.ofList (excerpt (body e.text) place.offset) ++
      expectedText expected

end ScriptIR.TypeLiteral
