import QueryFold.Yaml.Basic

/-!
# Tokens of YAML documents

The words that a document is made of. Brackets are written; where a block starts and ends, and
that a text is a key, follows from the layout, but has tokens of its own here.
-/

namespace QueryFold

namespace Yaml

/-- A token. -/
inductive Token where
  /-- A line that states the version of the language. -/
  | version (major minor : Nat)
  /-- A line that says what a handle of tags stands for. -/
  | handle (name : String) (tag : Tag)
  /-- A marker of the start of a document. -/
  | documentStart
  /-- A marker of the end of a document. -/
  | documentEnd
  /-- The start of a list of items that stand below each other. -/
  | itemsStart
  /-- The start of a mapping whose entries stand below each other. -/
  | entriesStart
  /-- The end of such a list or mapping. -/
  | blockEnd
  /-- `[`. -/
  | openBracket
  /-- `]`. -/
  | closeBracket
  /-- An opening brace. -/
  | openBrace
  /-- A closing brace. -/
  | closeBrace
  /-- `,`. -/
  | comma
  /-- A dash, with which an item starts. -/
  | item
  /-- The start of a key, which a question mark may mark. -/
  | key
  /-- The colon between a key and its value. -/
  | value
  /-- A name for the value that follows. -/
  | name (name : String)
  /-- A reference to the value with a name. -/
  | reference (name : String)
  /-- A tag for the value that follows. -/
  | tag (handle : String) (rest : Tag)
  /-- A text. -/
  | text (style : Style) (content : String)
  deriving DecidableEq

end Yaml

end QueryFold
