import QueryFold.Yaml.Token.Lexer

/-!
# Reading YAML documents

A text holds one document, which may stand between markers and may be preceded by directives for
version 1.1 or 1.2 of the language and for handles of tags. A value may have a name and a tag
and may be missing. A name stands for a number: the number of names there were before it, also
where it is given again. A value with a name is shared under that number.
-/

namespace QueryFold

namespace Yaml

/-- The tokens of a document that have not been read, and what the ones before them say. -/
structure Reading where
  /-- What the handles of tags stand for. -/
  handles : List (String × Tag)
  /-- The names so far with the numbers that they stand for. -/
  names : List (String × Nat) := []
  /-- The tokens from here on. -/
  tokens : List Token

namespace Reading

/-- Go on at other tokens. -/
def goOn (r : Reading) (tokens : List Token) : Reading := { r with tokens }

/-- Whether one of the given tokens comes next. -/
def isAt (r : Reading) (ts : List Token) : Bool := r.tokens.head?.any (ts.contains ·)

/-- Pass the token `t`. -/
def pass? (r : Reading) (t : Token) : Option Reading :=
  if r.tokens.head? = some t then some (r.goOn r.tokens.tail) else none

/-- Give a name to the value that starts here, and say its number. -/
def giveName (r : Reading) (name : String) : Nat × Reading :=
  let number := r.names.length
  (number, { r with names := (name, number) :: r.names.filter (·.1 != name) })

/-- The tag with a handle. -/
def tag? (r : Reading) (handle : String) (rest : Tag) : Option Tag :=
  if handle = "" then some rest else (r.handles.lookup handle).map (· ++ rest)

/-- Read the name and the tag of a value, which may come in either order. -/
def properties? (r : Reading) : Option (Option String × Option Tag × Reading) :=
  match r.tokens with
  | .name name :: .tag handle rest :: ts => do
    return (some name, some (← r.tag? handle rest), r.goOn ts)
  | .tag handle rest :: .name name :: ts => do
    return (some name, some (← r.tag? handle rest), r.goOn ts)
  | .name name :: ts => some (some name, none, r.goOn ts)
  | .tag handle rest :: ts => do return (none, some (← r.tag? handle rest), r.goOn ts)
  | _ => some (none, none, r)

mutual

/-- Read a value. With `block` it may be a block, and with `inEntry` the items of a list may stand
in the column of the entry that they belong to. -/
def value? : (fuel : Nat) → (block inEntry : Bool) → Reading → Option (Yaml × Reading)
  | 0, _, _, _ => none
  | fuel + 1, block, inEntry, r =>
    match r.tokens with
    | .reference name :: ts => do return (.reference (← r.names.lookup name), r.goOn ts)
    | _ => do
      let (name, tag, r) ← r.properties?
      match name with
      | none => content? fuel block inEntry tag tag.isSome r
      | some name =>
        let (number, r) := r.giveName name
        let (value, r) ← content? fuel block inEntry tag true r
        return (.shared number value, r)

/-- Read a value behind its name and its tag. With `mayMiss` there may be none. -/
def content? : (fuel : Nat) → (block inEntry : Bool) → Option Tag → (mayMiss : Bool) → Reading →
    Option (Yaml × Reading)
  | 0, _, _, _, _, _ => none
  | fuel + 1, block, inEntry, tag, mayMiss, r =>
    let absent := if mayMiss then some (.text .plain tag "", r) else none
    match r.tokens with
    | .text style content :: ts => some (.text style tag content, r.goOn ts)
    | .openBracket :: ts => flowItems? fuel true [] (r.goOn ts)
    | .openBrace :: ts => flowEntries? fuel true [] (r.goOn ts)
    | .itemsStart :: ts => if block then items? fuel true [] (r.goOn ts) else absent
    | .entriesStart :: ts => if block then entries? fuel [] (r.goOn ts) else absent
    | .item :: _ => if inEntry then items? fuel false [] r else absent
    | _ => absent

/-- Read the items of a list that stand below each other. Items in a block of their own end with
it, and the others before the first token that starts no item. -/
def items? : (fuel : Nat) → (ownBlock : Bool) → (done : List Yaml) → Reading →
    Option (Yaml × Reading)
  | 0, _, _, _ => none
  | fuel + 1, ownBlock, done, r =>
    match r.tokens with
    | .item :: ts => do
      let ends : List Token := [.item, .blockEnd] ++ if ownBlock then [] else [.key, .value]
      let (item, r) ← part? fuel true false ends (r.goOn ts)
      items? fuel ownBlock (item :: done) r
    | ts =>
      if !ownBlock then some (.sequence done.reverse, r)
      else if ts.head? = some .blockEnd then some (.sequence done.reverse, r.goOn ts.tail)
      else none

/-- Read the entries of a mapping that stand below each other. -/
def entries? : (fuel : Nat) → (done : List (Yaml × Yaml)) → Reading → Option (Yaml × Reading)
  | 0, _, _ => none
  | fuel + 1, done, r =>
    match r.tokens with
    | .key :: ts => do
      let ends : List Token := [.key, .value, .blockEnd]
      let (key, r) ← part? fuel true true ends (r.goOn ts)
      let (value, r) ← match r.tokens with
        | .value :: ts => part? fuel true true ends (r.goOn ts)
        | _ => some (missing, r)
      entries? fuel ((key, value) :: done) r
    | .blockEnd :: ts => some (.mapping done.reverse, r.goOn ts)
    | _ => none

/-- Read a part of a list or mapping, which is missing before one of the tokens `ends`. -/
def part? : (fuel : Nat) → (block inEntry : Bool) → (ends : List Token) → Reading →
    Option (Yaml × Reading)
  | 0, _, _, _, _ => none
  | fuel + 1, block, inEntry, ends, r =>
    if r.isAt ends then some (missing, r) else value? fuel block inEntry r

/-- Read the items of a list up to its closing bracket. An item may be a single key with its
value. -/
def flowItems? : (fuel : Nat) → (first : Bool) → (done : List Yaml) → Reading →
    Option (Yaml × Reading)
  | 0, _, _, _ => none
  | fuel + 1, first, done, r => do
    let r ← if first || r.isAt [.closeBracket] then some r else r.pass? .comma
    match r.tokens with
    | .closeBracket :: ts => return (.sequence done.reverse, r.goOn ts)
    | .key :: ts =>
      let (entry, r) ← flowPair? fuel (r.goOn ts)
      flowItems? fuel false (.mapping [entry] :: done) r
    | _ =>
      let (item, r) ← value? fuel false false r
      flowItems? fuel false (item :: done) r

/-- Read the key and the value of a single entry in a list. A key that is missing takes the sign
behind it along. -/
def flowPair? : (fuel : Nat) → Reading → Option ((Yaml × Yaml) × Reading)
  | 0, _ => none
  | fuel + 1, r => do
    let (key, r) ←
      if r.isAt [.value, .comma, .closeBracket] then some (missing, r.goOn r.tokens.tail)
      else value? fuel false false r
    let (value, r) ← match r.tokens with
      | .value :: ts => part? fuel false false [.comma, .closeBracket] (r.goOn ts)
      | _ => some (missing, r)
    return ((key, value), r)

/-- Read the entries of a mapping up to its closing brace. A value alone is a key. -/
def flowEntries? : (fuel : Nat) → (first : Bool) → (done : List (Yaml × Yaml)) → Reading →
    Option (Yaml × Reading)
  | 0, _, _, _ => none
  | fuel + 1, first, done, r => do
    let r ← if first || r.isAt [.closeBrace] then some r else r.pass? .comma
    match r.tokens with
    | .closeBrace :: ts => return (.mapping done.reverse, r.goOn ts)
    | .key :: ts =>
      let (key, r) ← part? fuel false false [.value, .comma, .closeBrace] (r.goOn ts)
      let (value, r) ← match r.tokens with
        | .value :: ts => part? fuel false false [.comma, .closeBrace] (r.goOn ts)
        | _ => some (missing, r)
      flowEntries? fuel false ((key, value) :: done) r
    | _ =>
      let (key, r) ← value? fuel false false r
      flowEntries? fuel false ((key, missing) :: done) r

end

end Reading

/-! ### Documents -/

/-- Read the directives before a document, and say what handles of tags stand for in it. The
version may be stated once, and each handle may be given once. -/
def directives? : (versionSeen : Bool) → (handles : List (String × Tag)) → List Token →
    Option (List (String × Tag) × List Token)
  | versionSeen, handles, .version major minor :: ts =>
    if versionSeen || major != 1 || minor != 1 && minor != 2 then none
    else directives? true handles ts
  | versionSeen, handles, .handle name tag :: ts =>
    if (handles.lookup name).isSome then none
    else directives? versionSeen ((name, tag) :: handles) ts
  | _, handles, ts => some (handles ++ standardHandles, ts)

/-- Whether the content of a document ends before the given tokens. -/
def endsDocument : List Token → Bool
  | [] => true
  | .version _ _ :: _ => true
  | .handle _ _ :: _ => true
  | .documentStart :: _ => true
  | .documentEnd :: _ => true
  | _ => false

/-- Read the document that some tokens make up. Directives need a marker behind them. -/
def ofTokens? (tokens : List Token) : Option Yaml :=
  let fuel := 4 * tokens.length + 4
  if tokens.isEmpty then some missing
  else do
    let (handles, rest) ← directives? false [] tokens
    let (value, r) ← match rest with
      | .documentStart :: ts =>
        if endsDocument ts then some (missing, ⟨handles, [], ts⟩)
        else Reading.value? fuel true false ⟨handles, [], ts⟩
      | ts =>
        if ts.length < tokens.length then none
        else Reading.value? fuel true false ⟨handles, [], ts⟩
    if r.tokens.all (· = .documentEnd) then some value else none

/-- Read the document that a text holds. -/
def parse? (text : String) : Option Yaml := (Token.ofText? text).bind ofTokens?

end Yaml

end QueryFold
