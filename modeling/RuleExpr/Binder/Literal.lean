import RuleExpr.Binder.Context

/-!
# Literals

The value and type of a literal text.  Blanks around the text do not count, except in characters
and strings; the suffix letters of a kind may be repeated.
-/

namespace RuleExpr

open RuleExpr.Number

def isLongSuffix (c : Char) : Bool := c = 'l' || c = 'L'

def isDoubleSuffix (c : Char) : Bool := c = 'd' || c = 'D'

def isBigSuffix (c : Char) : Bool := c = 'g' || c = 'G'

/-- Value and type of a literal; `none` if the text does not fit its kind. -/
def readLiteral (kind : LiteralKind) (text : String) : Option (Value × Ty) :=
  let trimmed := Text.trim text.toList
  match kind with
  | .integer => (readInt32 trimmed).map fun v => (.int v, .int)
  | .long =>
    (readInt64 (Text.trimEnd isLongSuffix trimmed)).map fun v => (.long v, .primitive .long)
  | .double => (readDouble (Text.trimEnd isDoubleSuffix trimmed)).map fun v => (.double v, .double)
  | .decimal => (Decimal.read trimmed).map fun v => (.bigDecimal v, .bigDecimal)
  | .bigInteger =>
    (readUnbounded (Text.trimEnd isBigSuffix trimmed)).map fun v => (.bigInteger v, .bigInteger)
  | .string => some (.string text, .string)
  | .char =>
    match text.toList with
    | [c] => some (.char c, .primitive .char)
    | _ => none
  | .boolean =>
    if trimmed = "true".toList then some (.bool true, .boolean)
    else if trimmed = "false".toList then some (.bool false, .boolean)
    else none
  | .null => some (.null, .null)

/-- A literal whose text does not fit its kind is reported. -/
def bindLiteral (node : SyntaxNode) (kind : LiteralKind) : BindM BoundNode :=
  match readLiteral kind node.text with
  | some (value, t) => return ⟨.literal value, t, node.span⟩
  | none =>
    BindM.errorNode .invalidLiteral
      ("'" ++ node.text ++ "' is not a valid " ++ kind.label ++ " literal") node.span

end RuleExpr
