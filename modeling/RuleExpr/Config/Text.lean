import RuleExpr.Config.Basic
import RuleExpr.Config.Definition

/-!
# Settings Files

The settings that a text defines.  A setting is given at most once, and only settings that exist and
values of their kind are read.  The handling of branches without a common type can be given by its
name, or as a table whose only entry has that name and is empty.
-/

namespace RuleExpr.Config

/-- The handling of branches that the definitions under its key give.  The table is written in its
place, by a header of its own, by a header of its entry, or by both headers in either order. -/
def wideningOf : List Definition → Option WideningFailure
  | [] => some standard.wideningFailure
  | [.pair [_] (.text name)]
  | [.pair [_] (.only name)]
  | [.pair [_, name] .empty]
  | [.table [_, name]]
  | [.table [_], .pair [_, name] .empty]
  | [.table [_], .table [_, name]]
  | [.table [_, name], .table [_]] => WideningFailure.ofText? name
  | _ => none

/-- The settings with one of the others replaced. -/
def assign (config : Config) : Definition → Option Config
  | .pair ["report_deprecations"] (.truth value) =>
    some { config with reportDeprecations := value }
  | .pair ["hidden_var_prefix"] (.text value) => some { config with hiddenVarStem := value }
  | .pair ["strict_variable_lookup"] (.truth value) =>
    some { config with strictVariableLookup := value }
  | .pair ["max_bind_depth"] (.whole value) =>
    if 0 ≤ value then some { config with maxBindDepth := value.toNat } else none
  | _ => none

/-- Settings that a text changes from the standard ones. -/
def read? (text : String) : Option Config := do
  let definitions ← definitionsOf text
  let (widening, others) := definitions.partition (·.path.head? = some "widening_failure")
  let config := { standard with wideningFailure := ← wideningOf widening }
  if (others.map (·.path)).Nodup then others.foldlM assign config else none

/-- What there is at the path of a settings file. -/
inductive FileState where
  | missing
  | unreadable
  | contents (text : String)
  deriving DecidableEq, Repr

inductive LoadError where
  | unreadable (path : String)
  /-- The text of the file, if it comes from one, is not that of settings. -/
  | malformed (path : Option String)
  deriving DecidableEq, Repr

def ofText (text : String) (path : Option String) : Except LoadError Config :=
  match read? text with
  | some config => .ok config.sanitized
  | none => .error (.malformed path)

/-- Settings of a file; without the file they are the standard ones. -/
def load (path : String) : FileState → Except LoadError Config
  | .missing => .ok standard
  | .unreadable => .error (.unreadable path)
  | .contents text => ofText text (some path)

end RuleExpr.Config
