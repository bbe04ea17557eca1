import RuleExpr.Config.QuotedText

/-!
# Definitions of Settings Files

Settings are written in TOML, of which the part that settings can have is read.  A line holds a
pair of a key and a value, the header of a table, or nothing; a comment may follow.  A key is a path
of at most two names.  A value is a text, a truth value, a whole number, an empty table or array, or
a table whose only entry is such an empty one.  Everything else is no part of any settings, and
reading fails at it as it does at what is not TOML.
-/

namespace RuleExpr.Config

open RuleExpr.Number

-- The powers of the core library, also where another instance is known.
attribute [local instance (high)] instPowNat

inductive Setting where
  | text (value : String)
  | truth (value : Bool)
  | whole (value : Int)
  /-- An empty table or array. -/
  | empty
  /-- A table with one entry, which is an empty table or array. -/
  | only (name : String)
  deriving DecidableEq, Repr

/-- What one line defines; paths are complete. -/
inductive Definition where
  | pair (path : List String) (value : Setting)
  | table (path : List String)
  deriving DecidableEq, Repr

def Definition.path : Definition → List String
  | .pair path _ => path
  | .table path => path

/-- What follows a comment, which starts with `#` and reaches to the end of the line. -/
def skipComment : List Char → Option (List Char)
  | '#' :: rest =>
    let (comment, rest) := rest.span fun c => c ≠ '\n' && c ≠ '\r'
    if comment.all isPlain then some rest else none
  | input => some input

/-- What follows the line when nothing but a comment is left of it. -/
def readLineEnd (input : List Char) : Option (List Char) := do
  match ← skipComment (skipGaps input) with
  | [] => some []
  | rest => readNewline rest

/-- What follows blanks, line ends and comments. -/
def skipFiller (inComment : Bool) : List Char → Option (List Char)
  | [] => some []
  | '\r' :: '\n' :: rest => skipFiller false rest
  | c :: rest =>
    if c == '\n' then skipFiller false rest
    else if inComment then if isPlain c then skipFiller true rest else none
    else if c == '#' then skipFiller true rest
    else if isGap c then skipFiller false rest
    else some (c :: rest)

def isKeyChar (c : Char) : Bool := c.isAlphanum || c == '_' || c == '-'

def readName (input : List Char) : Option (String × List Char) :=
  match readQuoted input with
  | some (name, rest) => some (String.ofList name, rest)
  | none =>
    let (name, rest) := input.span isKeyChar
    if name = [] then none else some (String.ofList name, rest)

/-- One name, or two with a point between them; blanks may surround each. -/
def readPath (input : List Char) : Option (List String × List Char) := do
  let (first, rest) ← readName (skipGaps input)
  match skipGaps rest with
  | '.' :: rest =>
    let (second, rest) ← readName (skipGaps rest)
    some ([first, second], skipGaps rest)
  | rest => some ([first], rest)

/-- The digits of a numeral in which single underscores may stand between digits. -/
def withoutUnderscores : List Char → Option (List Char)
  | [] => none
  | [c] => if c = '_' then none else some [c]
  | c :: '_' :: rest => if c = '_' then none else (c :: ·) <$> withoutUnderscores rest
  | c :: rest => if c = '_' then none else (c :: ·) <$> withoutUnderscores rest

/-- Decimal numeral without needless zeros in front. -/
def readDecimal (text : List Char) : Option Nat := do
  let digits ← withoutUnderscores text
  if digits.head? = some '0' ∧ digits ≠ ['0'] then none else readRadix 10 digits

def readWhole : List Char → Option Int
  | '0' :: 'x' :: digits => do Int.ofNat <$> readRadix 16 (← withoutUnderscores digits)
  | '0' :: 'o' :: digits => do Int.ofNat <$> readRadix 8 (← withoutUnderscores digits)
  | '0' :: 'b' :: digits => do Int.ofNat <$> readRadix 2 (← withoutUnderscores digits)
  | text =>
    let (negative, digits) := splitSign text
    applySign negative <$> readDecimal digits

/-- Whole numbers have 64 bits. -/
def readWord (word : List Char) : Option Setting :=
  if word = "true".toList then some (.truth true)
  else if word = "false".toList then some (.truth false)
  else
    match readWhole word with
    | some value =>
      if -2 ^ (63 : Nat) ≤ value ∧ value < 2 ^ (63 : Nat) then some (.whole value) else none
    | none => none

def isWordEnd (c : Char) : Bool := isGap c || c == '#' || c == '\n' || c == '\r'

/-- What follows an empty table or array.  The brackets of an array may enclose comments and line
ends, those of a table only blanks. -/
def readEmpty : List Char → Option (List Char)
  | '[' :: rest => do
    match ← skipFiller false rest with
    | ']' :: rest => some rest
    | _ => none
  | '\x7b' :: rest =>
    match skipGaps rest with
    | '\x7d' :: rest => some rest
    | _ => none
  | _ => none

/-- A table with one entry that is empty, given by its name. -/
def readSoleEntry : List Char → Option (String × List Char)
  | '\x7b' :: rest => do
    let (name, rest) ← readName (skipGaps rest)
    match skipGaps rest with
    | '=' :: rest =>
      match skipGaps (← readEmpty (skipGaps rest)) with
      | '\x7d' :: rest => some (name, rest)
      | _ => none
    | _ => none
  | _ => none

def readSetting (input : List Char) : Option (Setting × List Char) :=
  match input with
  | '"' :: _ | '\'' :: _ => do
    let (text, rest) ← readText input
    some (.text (String.ofList text), rest)
  | '[' :: _ | '\x7b' :: _ =>
    match readEmpty input with
    | some rest => some (.empty, rest)
    | none => (readSoleEntry input).map fun (name, rest) => (.only name, rest)
  | _ =>
    let (word, rest) := input.span (!isWordEnd ·)
    (readWord word).map (·, rest)

/-- The definition on a line, which belongs to the table with the given path. -/
def readDefinition (table : List String) (line : List Char) :
    Option (Definition × List Char) := do
  match skipGaps line with
  | '[' :: rest =>
    let (path, rest) ← readPath rest
    match rest with
    | ']' :: rest => some (.table path, ← readLineEnd rest)
    | _ => none
  | line =>
    let (path, rest) ← readPath line
    match rest with
    | '=' :: rest =>
      let (value, rest) ← readSetting (skipGaps rest)
      some (.pair (table ++ path) value, ← readLineEnd rest)
    | _ => none

/-- All definitions of a text in their order.  The pairs behind a header belong to its table. -/
def readDefinitions (table : List String) (input : List Char) : Option (List Definition) :=
  if input = [] then some []
  else
    match readLineEnd input with
    | some rest =>
      if rest.length < input.length then readDefinitions table rest else none
    | none =>
      match readDefinition table input with
      | some (definition, rest) =>
        if rest.length < input.length then
          let table := match definition with
            | .table path => path
            | .pair .. => table
          (definition :: ·) <$> readDefinitions table rest
        else none
      | none => none
termination_by input.length

/-- Definitions of a text.  A byte order mark in front of it is skipped. -/
def definitionsOf (text : String) : Option (List Definition) :=
  match text.toList with
  | '\ufeff' :: rest => readDefinitions [] rest
  | input => readDefinitions [] input

end RuleExpr.Config
