import RuleExpr.Assoc
import RuleExpr.Text.GraphemeExtend
import RuleExpr.Text.Printable

/-!
# Texts in Double Quotes

A text in double quotes shows every character: those that have no look of their own, and the marks
that would change the look of their neighbours, are written by their code points.  The sound marks
of half-width Katakana count as extending the character before them, but they are letters with a
place of their own and stay as they are.
-/

namespace RuleExpr.Text

/-- Code point of `c` in hexadecimal digits between braces. -/
def escapeCode (c : Char) : String :=
  "\\u\x7b" ++ String.ofList (Nat.toDigits 16 c.toNat) ++ "\x7d"

/-- Characters that have a short escape. -/
def shortEscapes : List (Char × String) :=
  [('"', "\\\""), ('\\', "\\\\"), ('\n', "\\n"), ('\r', "\\r"), ('\t', "\\t"), ('\x00', "\\0")]

/-- The two sound marks of half-width Katakana. -/
def soundMarks : List Char := ['\uff9e', '\uff9f']

/-- Whether `c` shows what it is wherever it stands. -/
def hasOwnLook (c : Char) : Bool :=
  isPrintable c && (!extendsGrapheme c || soundMarks.contains c)

def quoteChar (c : Char) : String :=
  match Assoc.get? shortEscapes c with
  | some escape => escape
  | none => if hasOwnLook c then String.singleton c else escapeCode c

/-- A text in double quotes, with escapes for what cannot stand in it. -/
def quote (text : String) : String := "\"" ++ String.join (text.toList.map quoteChar) ++ "\""

end RuleExpr.Text
