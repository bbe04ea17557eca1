import RuleExpr.Text.Blank

/-!
# Settings of the Binder

The settings that binding consults.  `Config.sanitized` replaces those under which binding could
not work.
-/

namespace RuleExpr

/-- What happens when two branches have no common type. -/
inductive WideningFailure where
  /-- The conditional is an error. -/
  | error
  /-- The branches stay as they are, with a warning. -/
  | keepBranches
  deriving DecidableEq, Repr

namespace WideningFailure

def text : WideningFailure → String
  | error => "error"
  | keepBranches => "keep-branches"

def ofText? (text : String) : Option WideningFailure :=
  [error, keepBranches].find? (·.text == text)

end WideningFailure

structure Config where
  wideningFailure : WideningFailure
  reportDeprecations : Bool
  /-- How the names of loop variables begin that the source does not name. -/
  hiddenVarStem : String
  /-- Whether variables are looked up with regard to case. -/
  strictVariableLookup : Bool
  maxBindDepth : Nat
  deriving DecidableEq, Repr

namespace Config

def leastBindDepth : Nat := 16

def standard : Config := ⟨.error, true, "tmp$", true, 512⟩

/-- A nesting limit too small is raised, and a blank stem is replaced. -/
def sanitized (config : Config) : Config :=
  { config with
    maxBindDepth := max config.maxBindDepth leastBindDepth
    hiddenVarStem :=
      if Text.trim config.hiddenVarStem.toList = [] then standard.hiddenVarStem
      else config.hiddenVarStem }

end Config

end RuleExpr
