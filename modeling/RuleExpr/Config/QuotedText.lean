import RuleExpr.Assoc
import RuleExpr.Number.Numeral

/-!
# Quoted Texts of Settings Files

A text stands in double quotes, where a backslash escapes, or in single quotes, where nothing does.
It ends on its line, unless it is opened with three quotes: then it may hold line ends, ends with
three quotes, and up to two further quotes before these belong to it.  A reader gives the text and
what follows its closing quotes.
-/

namespace RuleExpr.Config

open RuleExpr.Number

def isGap (c : Char) : Bool := c == ' ' || c == '\t'

/-- Characters that may stand in texts and comments as themselves. -/
def isPlain (c : Char) : Bool := c == '\t' || (0x20 ≤ c.toNat && c.toNat ≠ 0x7f)

def skipGaps (input : List Char) : List Char := input.dropWhile isGap

/-- What follows a line feed, which a carriage return may precede. -/
def readNewline : List Char → Option (List Char)
  | '\n' :: rest => some rest
  | '\r' :: '\n' :: rest => some rest
  | _ => none

def hexDigit? (c : Char) : Option Nat :=
  if c.isDigit then some (digitValue c)
  else if 'a' ≤ c ∧ c ≤ 'f' then some (c.toNat - 'a'.toNat + 10)
  else if 'A' ≤ c ∧ c ≤ 'F' then some (c.toNat - 'A'.toNat + 10)
  else none

/-- Number written by the given digits, each of which has to be below the radix. -/
def readRadix (radix : Nat) (digits : List Char) : Option Nat :=
  digits.foldlM (fun value c => do
    let digit ← hexDigit? c
    if digit < radix then some (radix * value + digit) else none) 0

/-- Character with the code written by hexadecimal digits. -/
def readCode (digits : List Char) : Option Char := do
  let code ← readRadix 16 digits
  if code.isValidChar then some (Char.ofNat code) else none

/-- Characters that stand for others behind a backslash. -/
def escapes : List (Char × Char) :=
  [('b', '\x08'), ('t', '\t'), ('n', '\n'), ('f', '\x0c'), ('r', '\r'), ('"', '"'), ('\\', '\\')]

/-- How many lines a text may have. -/
inductive Extent where
  | line
  | lines
  deriving DecidableEq, Repr

/-- Quotes at the end of a text that still belong to it, and what follows the closing ones; `none`
where the text goes on. -/
def readClosing (quote : Char) : Extent → List Char → Option (List Char × List Char)
  | .line, input => if input.take 1 = [quote] then some ([], input.drop 1) else none
  | .lines, input =>
    let quotes := (input.take 5).takeWhile (· = quote)
    if 3 ≤ quotes.length then some (quotes.drop 3, input.drop quotes.length) else none

/-- Rest of a text in double quotes.  A backslash at the end of a line takes away the line end and
the blanks up to the next other character; `skipping` is set among these. -/
def readEscaped (extent : Extent) (skipping : Bool) : List Char → Option (List Char × List Char)
  | [] => none
  | '\\' :: 'u' :: a :: b :: c :: d :: rest => do
    let first ← readCode [a, b, c, d]
    let (text, rest) ← readEscaped extent false rest
    some (first :: text, rest)
  | '\\' :: 'U' :: a :: b :: c :: d :: e :: f :: g :: h :: rest => do
    let first ← readCode [a, b, c, d, e, f, g, h]
    let (text, rest) ← readEscaped extent false rest
    some (first :: text, rest)
  | '\\' :: c :: rest =>
    if extent = .lines ∧ (readNewline (skipGaps (c :: rest))).isSome then
      readEscaped extent true (c :: rest)
    else do
      let first ← Assoc.get? escapes c
      let (text, rest) ← readEscaped extent false rest
      some (first :: text, rest)
  | '\r' :: '\n' :: rest => readEscaped extent skipping ('\n' :: rest)
  | c :: rest =>
    match readClosing '"' extent (c :: rest) with
    | some closing => some closing
    | none =>
      if skipping && (isGap c || c == '\n') then readEscaped extent true rest
      else if (isPlain c && c ≠ '\\') || (c == '\n' && extent = .lines) then do
        let (text, rest) ← readEscaped extent false rest
        some (c :: text, rest)
      else none

/-- Rest of a text in single quotes. -/
def readLiteral (extent : Extent) : List Char → Option (List Char × List Char)
  | [] => none
  | '\r' :: '\n' :: rest => readLiteral extent ('\n' :: rest)
  | c :: rest =>
    match readClosing '\'' extent (c :: rest) with
    | some closing => some closing
    | none =>
      if isPlain c || (c == '\n' && extent = .lines) then do
        let (text, rest) ← readLiteral extent rest
        some (c :: text, rest)
      else none

/-- A text on one line, in either kind of quotes. -/
def readQuoted : List Char → Option (List Char × List Char)
  | '"' :: rest => readEscaped .line false rest
  | '\'' :: rest => readLiteral .line rest
  | _ => none

/-- A text in either kind of quotes, single or threefold.  A line end right behind three opening
quotes is dropped. -/
def readText : List Char → Option (List Char × List Char)
  | '"' :: '"' :: '"' :: rest => readEscaped .lines false ((readNewline rest).getD rest)
  | '\'' :: '\'' :: '\'' :: rest => readLiteral .lines ((readNewline rest).getD rest)
  | input => readQuoted input

end RuleExpr.Config
