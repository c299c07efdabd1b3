import QueryFold.Yaml.Lines
import QueryFold.Yaml.Tag
import QueryFold.Yaml.Text
import QueryFold.Yaml.Token

/-!
# Tokens from text

A block starts where an entry stands in a column to the right of the block around it, and ends
before the first line that is indented by less. That a value is a key shows only at the colon
behind it, on the same line and at most 1024 octets behind its start; the tokens for a key, and
for the mapping that may start with it, then belong before that value. Between brackets the
layout says nothing.
-/

namespace QueryFold

namespace Yaml

/-- The start of a value that may turn out to be a key. -/
structure KeyStart where
  /-- The number of tokens before it. -/
  index : Nat
  /-- Where it stands. -/
  position : Position
  /-- Whether nothing but a key can stand there. -/
  required : Bool

/-- A text of which some tokens have been read. -/
structure Lexer where
  /-- Where the next token is looked for. -/
  cursor : Cursor
  /-- Whether an entry of a block may start here. -/
  fresh : Bool := true
  /-- The columns of the blocks that have not ended, innermost first. -/
  columns : List Nat := []
  /-- The last value that may be a key, outside of brackets that have been closed. -/
  keyStart : Option KeyStart := none
  /-- For each open bracket the last value before it that may be a key, innermost first. -/
  outerKeys : List (Option KeyStart) := []
  /-- The tokens so far. -/
  tokens : Array Token := #[]

namespace Lexer

/-- Whether the place lies between brackets. -/
def inFlow (l : Lexer) : Bool := !l.outerKeys.isEmpty

/-- The column of the next character. -/
def column (l : Lexer) : Nat := l.cursor.position.column

/-- The column of the innermost block, `-1` outside of all blocks. -/
def indent (l : Lexer) : Int :=
  match l.columns with
  | [] => -1
  | column :: _ => column

/-- Add a token. -/
def emit (l : Lexer) (t : Token) : Lexer := { l with tokens := l.tokens.push t }

/-- Add a token of one character, which stands here. -/
def emitSign (l : Lexer) (t : Token) : Lexer := { l.emit t with cursor := l.cursor.next }

/-! ### Layout -/

/-- Skip blanks, line breaks and comments, the characters given. A tab is no blank where an entry
of a block may start, and a byte order mark may start a line. -/
def skipFrom (flow : Bool) : (comment fresh : Bool) → List Char → Position → Bool × Cursor
  | _, fresh, [], p => (fresh, ⟨p, []⟩)
  | comment, fresh, x :: cs, p =>
    if isBreak x then skipFrom flow false (fresh || !flow) cs (p.after x)
    else if comment || x = '#' then skipFrom flow true fresh cs (p.after x)
    else if x = ' ' || x = '\t' && (flow || !fresh) || x = '\ufeff' && p.column = 0 then
      skipFrom flow false fresh cs (p.after x)
    else (fresh, ⟨p, x :: cs⟩)

/-- Skip blanks, line breaks and comments. -/
def skip (l : Lexer) : Lexer :=
  let (fresh, cursor) := skipFrom l.inFlow false l.fresh l.cursor.rest l.cursor.position
  { l with fresh, cursor }

/-- End the blocks that stand to the right of a column. -/
def endBlocks (column : Int) : List Nat → Array Token → List Nat × Array Token
  | [], tokens => ([], tokens)
  | c :: cs, tokens =>
    if column < c then endBlocks column cs (tokens.push .blockEnd) else (c :: cs, tokens)

/-- End the blocks that stand to the right of a column, except between brackets. -/
def outdent (l : Lexer) (column : Int) : Lexer :=
  if l.inFlow then l
  else
    let (columns, tokens) := endBlocks column l.columns l.tokens
    { l with columns, tokens }

/-- Start a block with the token `t` before the token number `index`, if its column lies to the
right of all blocks. -/
def startBlock (l : Lexer) (t : Token) (column index : Nat) : Lexer :=
  if l.inFlow || column ≤ l.indent then l
  else { l with columns := column :: l.columns, tokens := l.tokens.insertIdxIfInBounds index t }

/-- Start an entry of a block here, with the token `t` if the block starts with it. -/
def startEntry? (l : Lexer) (t : Token) : Option Lexer :=
  if l.inFlow then some l
  else if l.fresh then some (l.startBlock t l.column l.tokens.size)
  else none

/-! ### Keys -/

/-- The last value that may have been a key is none. -/
def dropKey? (l : Lexer) : Option Lexer :=
  if l.keyStart.any (·.required) then none else some { l with keyStart := none }

/-- The last value that may have been a key is none if it started too far back. -/
def expireKey? (l : Lexer) : Option Lexer :=
  let p := l.cursor.position
  let expired (k : KeyStart) : Bool :=
    k.position.line < p.line || k.position.octet + 1024 < p.octet
  if l.keyStart.any expired then l.dropKey? else some l

/-- A value starts here that may be a key if an entry may start here. -/
def startValue? (l : Lexer) : Option Lexer :=
  if l.fresh then do
    let l ← l.dropKey?
    let required := !l.inFlow && l.indent = l.column
    return { l with keyStart := some ⟨l.tokens.size, l.cursor.position, required⟩ }
  else some l

/-- Go on behind a value that ends at `c`. An entry may start there if `fresh` is set. -/
def passValue (l : Lexer) (t : Token) (c : Cursor) (fresh : Bool) : Lexer :=
  { l.emit t with cursor := c, fresh }

/-! ### Brackets and signs -/

/-- Read an opening bracket. -/
def readOpen? (l : Lexer) (t : Token) : Option Lexer := do
  let l ← l.startValue?
  let outerKeys := l.keyStart :: l.outerKeys
  return { l.emitSign t with fresh := true, keyStart := none, outerKeys }

/-- Read a closing bracket. -/
def readClose? (l : Lexer) (t : Token) : Option Lexer := do
  let l := { (← l.dropKey?).emitSign t with fresh := false }
  match l.outerKeys with
  | [] => return l
  | keyStart :: outerKeys => return { l with keyStart, outerKeys }

/-- Read a comma. -/
def readComma? (l : Lexer) : Option Lexer := do
  return { (← l.dropKey?).emitSign .comma with fresh := true }

/-- Read a dash before an item. -/
def readDash? (l : Lexer) : Option Lexer := do
  let l ← (← l.startEntry? .itemsStart).dropKey?
  return { l.emitSign .item with fresh := true }

/-- Read a question mark before a key. -/
def readQuestion? (l : Lexer) : Option Lexer := do
  let l ← (← l.startEntry? .entriesStart).dropKey?
  return { l.emitSign .key with fresh := !l.inFlow }

/-- Read a colon. What stands before it is a key if it may be one, and else the key has been marked
before. -/
def readColon? (l : Lexer) : Option Lexer := do
  match l.keyStart with
  | some k =>
    let l := { l with
      keyStart := none, fresh := false, tokens := l.tokens.insertIdxIfInBounds k.index .key }
    return (l.startBlock .entriesStart k.position.column k.index).emitSign .value
  | none =>
    let l ← l.startEntry? .entriesStart
    return { l.emitSign .value with fresh := !l.inFlow }

/-! ### Values -/

/-- Read a name behind its sign. -/
def readName? (l : Lexer) (t : String → Token) : Option Lexer := do
  let l ← l.startValue?
  let (name, c) := l.cursor.next.span isNameChar
  let closed := endsWord c.rest || c.rest.head?.any fun x => "?:,]\x7d%@\x60".contains x
  if name.isEmpty || !closed then none else some (l.passValue (t (String.ofList name)) c false)

/-- Read a tag. -/
def readTag? (l : Lexer) : Option Lexer := do
  let l ← l.startValue?
  let (handle, tag, c) ← l.cursor.readTag?
  let closed := endsWord c.rest || l.inFlow && c.rest.head? = some ','
  if closed then some (l.passValue (.tag handle tag) c false) else none

/-- Read a text of whole lines. -/
def readLines? (l : Lexer) (style : Style) : Option Lexer := do
  let l ← l.dropKey?
  let (content, c) ← Yaml.readLines? style l.indent l.cursor.next
  return l.passValue (.text style content) c true

/-- Read a text in quotes. -/
def readQuoted? (l : Lexer)
    (read? : List Char → Position → List Char → Gap → Option (String × Cursor)) : Option Lexer := do
  let l ← l.startValue?
  let c := l.cursor.next
  let (content, c) ← read? c.rest c.position [] {}
  return l.passValue (.text .quoted content) c false

/-- Read a plain text. Behind a line break an entry may start. -/
def readPlain? (l : Lexer) : Option Lexer := do
  let l ← l.startValue?
  let c := l.cursor
  let (content, gap, c) ← Yaml.readPlain? l.inFlow l.indent c.rest c.position [] {}
  return l.passValue (.text .plain content) c gap.broken

/-! ### Directives and markers -/

/-- End all blocks. -/
def endAll? (l : Lexer) : Option Lexer := do
  return { ← (l.outdent (-1)).dropKey? with fresh := false }

/-- Read a number of at most nine digits. -/
def readNumber? (c : Cursor) : Option (Nat × Cursor) :=
  let (digits, c) := c.span Char.isDigit
  if digits.isEmpty || 9 < digits.length then none
  else some (digits.foldl (fun n d => 10 * n + (d.toNat - '0'.toNat)) 0, c)

/-- Read what follows the name of a directive. -/
def readDirectiveRest? (name : String) (c : Cursor) : Option (Token × Cursor) :=
  match name with
  | "YAML" => do
    let (major, c) ← readNumber? c
    if c.rest.head? != some '.' then none
    let (minor, c) ← readNumber? c.next
    return (.version major minor, c)
  | "TAG" => do
    if c.rest.head? != some '!' then none
    let (middle, c) := c.next.span isNameChar
    let closed := c.rest.head? = some '!'
    if !closed && !middle.isEmpty then none
    let c := if closed then c.next else c
    if !c.rest.head?.any isBlank then none
    let (tag, c) ← c.skipBlanks.readTagPart1? true
    if !endsWord c.rest then none
    return (.handle ("!" ++ String.ofList middle ++ if closed then "!" else "") tag.upToZero, c)
  | _ => none

/-- Read a directive up to the next line. -/
def readDirective? (l : Lexer) : Option Lexer := do
  let l ← l.endAll?
  let (name, c) := l.cursor.next.span isNameChar
  if !endsWord c.rest then none
  let (t, c) ← readDirectiveRest? (String.ofList name) c.skipBlanks
  return { l.emit t with cursor := ← c.nextLine? }

/-- Read a marker of the start or end of a document. -/
def readMarker? (l : Lexer) (t : Token) : Option Lexer := do
  return { (← l.endAll?).emit t with cursor := l.cursor.pass 3 }

/-! ### All tokens -/

/-- Read the token that stands here. -/
def readToken? (l : Lexer) : Option Lexer :=
  match l.cursor.rest with
  | [] => none
  | x :: cs =>
    let isSign := l.inFlow || endsWord cs
    if l.column = 0 && x = '%' then l.readDirective?
    else if l.column = 0 && isMarker (x :: cs) then
      l.readMarker? (if x = '-' then .documentStart else .documentEnd)
    else if x = '[' then l.readOpen? .openBracket
    else if x = '\x7b' then l.readOpen? .openBrace
    else if x = ']' then l.readClose? .closeBracket
    else if x = '\x7d' then l.readClose? .closeBrace
    else if x = ',' then l.readComma?
    else if x = '-' && endsWord cs then l.readDash?
    else if x = '?' && isSign then l.readQuestion?
    else if x = ':' && isSign then l.readColon?
    else if x = '*' then l.readName? .reference
    else if x = '&' then l.readName? .name
    else if x = '!' then l.readTag?
    else if x = '|' && !l.inFlow then l.readLines? .literal
    else if x = '>' && !l.inFlow then l.readLines? .folded
    else if x = '\'' then l.readQuoted? readSingle?
    else if x = '"' then l.readQuoted? readDouble?
    else if startsPlain l.inFlow (x :: cs) then l.readPlain?
    else none

/-- Read tokens to the end. Every token takes a character at least, so `fuel` may be the number of
characters. -/
def run? : (fuel : Nat) → Lexer → Option (List Token)
  | fuel, l => do
    let l ← l.skip.expireKey?
    if l.cursor.rest.isEmpty then return (← l.endAll?).tokens.toList
    match fuel with
    | 0 => none
    | fuel + 1 => run? fuel (← (l.outdent l.column).readToken?)

end Lexer

/-- The tokens of a text. -/
def Token.ofText? (text : String) : Option (List Token) :=
  if text.toList.all isPrintable then
    let cs := unifyBreaks text.toList
    Lexer.run? cs.length { cursor := ⟨{}, cs⟩ }
  else none

end Yaml

end QueryFold
