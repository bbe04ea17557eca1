import RuleExpr.Proofs.Binding.Run
import RuleExpr.Syntax.Build

/-!
# Looking Up Variables

The visible variables form one list, in which a lookup takes the first that answers to a name.  With
regard to case fewer of them answer.  So a lookup without regard to case finds a variable wherever
one with regard to case does, but not always the same one: a variable spelled in another case that
was declared nearer is taken instead.
-/

namespace RuleExpr

open BindM

namespace LocalVar

/-- Whether a lookup of `name` may find the variable. -/
def answersTo (ns name : String) (strict : Bool) (var : LocalVar) : Bool :=
  var.ns = ns && if strict then var.name == name else BindState.sameIgnoringCase var.name name

/-- The variable has the name in another case. -/
def Respells (ns name : String) (var : LocalVar) : Prop :=
  var.answersTo ns name false ∧ var.name ≠ name

/-- A read of the variable. -/
def reference (var : LocalVar) (span : Span) : BoundNode :=
  ⟨.localVar var.name var.slot, var.ty, span⟩

variable {ns name : String} {var : LocalVar}

theorem answersTo_strict_iff : var.answersTo ns name true ↔ var.ns = ns ∧ var.name = name := by
  simp [answersTo]

theorem answersTo_loose_of_strict (h : var.answersTo ns name true) :
    var.answersTo ns name false := by
  obtain ⟨hns, hname⟩ := answersTo_strict_iff.1 h
  simp [answersTo, BindState.sameIgnoringCase, hns, hname]

/-- A variable that answers only without regard to case is spelled in another one. -/
theorem respells_iff (h : ¬var.answersTo ns name true) :
    var.Respells ns name ↔ var.answersTo ns name false := by
  refine ⟨And.left, fun hloose => ⟨hloose, fun hname => h ?_⟩⟩
  rw [answersTo, Bool.and_eq_true, decide_eq_true_eq] at hloose
  exact answersTo_strict_iff.2 ⟨hloose.1, hname⟩

end LocalVar

namespace BindState

variable {s : BindState} {ns name : String} {var : LocalVar}

/-- All variables of the open scopes, the nearest in front. -/
def visible (s : BindState) : List LocalVar := s.scopes.flatMap List.reverse

theorem findVar_eq (s : BindState) (ns name : String) (strict : Bool) :
    s.findVar ns name strict = s.visible.find? (·.answersTo ns name strict) :=
  List.find?_flatMap.symm

/-- What is found with regard to case is found without it, behind the variables that are nearer. -/
theorem findVar_loose_of_strict (h : s.findVar ns name true = some var) :
    ∃ nearer farther, s.visible = nearer ++ var :: farther ∧
      (∀ other ∈ nearer, ¬other.answersTo ns name true) ∧
      s.findVar ns name false = (nearer.find? (·.answersTo ns name false)).or (some var) := by
  rw [findVar_eq, List.find?_eq_some_iff_append] at h
  obtain ⟨hvar, nearer, farther, hvisible, hnearer⟩ := h
  refine ⟨nearer, farther, hvisible, ?_, ?_⟩
  · intro other hother hstrict
    simpa [hstrict] using hnearer other hother
  · rw [findVar_eq, hvisible, List.find?_append,
      List.find?_cons_of_pos (LocalVar.answersTo_loose_of_strict hvar)]

end BindState

namespace BindSettings

/-- The settings with variables looked up with or without regard to case. -/
def lookingUp (settings : BindSettings) (strict : Bool) : BindSettings :=
  { settings with config := { settings.config with strictVariableLookup := strict } }

end BindSettings

/-- A name that stands for a variable is bound to a read of it. -/
theorem bindIdentifier_variable {settings : BindSettings} {s : BindState} {node : SyntaxNode}
    {strict : Bool} {var : LocalVar} (h : s.findVar LocalVar.localNs node.text strict = some var) :
    bindIdentifier node (settings.lookingUp strict) s = (.ok (var.reference node.span), s) := by
  have hlookup : lookupVar node.text (settings.lookingUp strict) s = (.ok (some var), s) :=
    congrArg (fun var? => (Except.ok var?, s)) h
  rw [bindIdentifier, run_bind_of_ok hlookup]
  rfl

/-- A name that a variable has exactly is resolved without regard to case as well, to that variable
just if no nearer one has the name in another case. -/
theorem loose_lookup_keeps_exact_iff {s : BindState} {ns name : String} {var : LocalVar}
    (h : s.findVar ns name true = some var) :
    ∃ nearer farther found, s.visible = nearer ++ var :: farther ∧
      s.findVar ns name false = some found ∧
      (found = var ∨ found ∈ nearer ∧ found.Respells ns name) ∧
      (found = var ↔ ∀ other ∈ nearer, ¬other.Respells ns name) ∧
      ∀ (settings : BindSettings) (node : SyntaxNode),
        ns = LocalVar.localNs → node.text = name →
        bindIdentifier node (settings.lookingUp true) s = (.ok (var.reference node.span), s) ∧
        bindIdentifier node (settings.lookingUp false) s =
          (.ok (found.reference node.span), s) := by
  obtain ⟨nearer, farther, hvisible, hnearer, hfound⟩ := BindState.findVar_loose_of_strict h
  have hname : var.name = name := by
    rw [BindState.findVar_eq] at h
    exact (LocalVar.answersTo_strict_iff.1 (List.find?_some h)).2
  have hidentifiers (found : LocalVar) (hloose : s.findVar ns name false = some found)
      (settings : BindSettings) (node : SyntaxNode) (hns : ns = LocalVar.localNs)
      (htext : node.text = name) :
      bindIdentifier node (settings.lookingUp true) s = (.ok (var.reference node.span), s) ∧
        bindIdentifier node (settings.lookingUp false) s =
          (.ok (found.reference node.span), s) := by
    subst hns htext
    exact ⟨bindIdentifier_variable h, bindIdentifier_variable hloose⟩
  cases hfirst : nearer.find? (·.answersTo ns name false) with
  | none =>
    rw [hfirst, Option.none_or] at hfound
    -- No nearer variable answers, so both lookups end at the same one.
    have hnone := List.find?_eq_none.1 hfirst
    refine ⟨nearer, farther, var, hvisible, hfound, .inl rfl, ?_, hidentifiers var hfound⟩
    refine ⟨fun _ other hother hrespells => ?_, fun _ => rfl⟩
    exact hnone other hother hrespells.1
  | some found =>
    rw [hfirst, Option.some_or] at hfound
    -- A nearer variable answers, which the strict lookup passes by.
    have hmem := List.mem_of_find?_eq_some hfirst
    have hrespells : found.Respells ns name :=
      (LocalVar.respells_iff (hnearer found hmem)).2 (List.find?_some hfirst)
    refine ⟨nearer, farther, found, hvisible, hfound, .inr ⟨hmem, hrespells⟩, ?_,
      hidentifiers found hfound⟩
    constructor
    · rintro rfl
      exact absurd hname hrespells.2
    · exact fun hnone => absurd hrespells (hnone found hmem)

namespace Totals

/-- A total of the outer scope and one of a scope inside it, in another case. -/
def outerTotal : LocalVar := ⟨LocalVar.localNs, "Total", .int, 0⟩

def innerTotal : LocalVar := ⟨LocalVar.localNs, "total", .double, 1⟩

def scopes : BindState :=
  { BindState.start (.empty "Rules" "rules" 0) .empty with scopes := [[innerTotal], [outerTotal]] }

/-- `{ int x = 1; int X = 2; x }` -/
def block : SyntaxNode :=
  .block [.varDecl (.typeName "int") "x" (.int 1), .varDecl (.typeName "int") "X" (.int 2),
    .identifier "x"]

/-- The whole number that an expression gives, if it binds without errors. -/
def number? (node : SyntaxNode) (config : Config) : Option Int :=
  match (bindExpression node (.empty "Rules" "rules" 0) .empty config).1 with
  | .ok e => if e.hasErrors then none else (e.evaluate >>= Value.expectInt).toOption
  | .error _ => none

end Totals

open Totals in
/-- The outer total gives its name to the inner one where case is disregarded. -/
theorem loose_lookup_keeps_exact_totals :
    scopes.findVar LocalVar.localNs "Total" true = some outerTotal ∧
      innerTotal.Respells LocalVar.localNs "Total" ∧
      scopes.findVar LocalVar.localNs "Total" false ≠ some outerTotal := by
  have hstrict : scopes.findVar LocalVar.localNs "Total" true = some outerTotal := rfl
  have hne : outerTotal ≠ innerTotal := fun h => absurd (congrArg LocalVar.slot h) (by decide)
  have hrespells : innerTotal.Respells LocalVar.localNs "Total" := by
    unfold LocalVar.Respells
    decide
  refine ⟨hstrict, hrespells, fun hloose => ?_⟩
  obtain ⟨nearer, farther, found, hvisible, hfound, -, hkept, -⟩ :=
    loose_lookup_keeps_exact_iff hstrict
  obtain rfl := Option.some.inj (hloose.symm.trans hfound)
  -- The inner total is the only variable that is nearer.
  have hsplit : nearer ++ outerTotal :: farther = [innerTotal, outerTotal] := hvisible.symm
  cases nearer with
  | nil => exact hne (List.cons.inj hsplit).1
  | cons first rest =>
    obtain rfl := (List.cons.inj hsplit).1
    exact hkept.1 rfl innerTotal List.mem_cons_self hrespells

open Totals in
/-- Behind the declarations of `x` and `X` the name `x` stands for the first variable, and for the
second if case is disregarded. -/
theorem loose_lookup_redirects :
    let x : LocalVar := ⟨LocalVar.localNs, "x", .int, 0⟩
    let X : LocalVar := ⟨LocalVar.localNs, "X", .int, 1⟩
    let s := { BindState.start (.empty "Rules" "rules" 0) .empty with scopes := [[x, X], []] }
    s.findVar LocalVar.localNs "x" true = some x ∧
      s.findVar LocalVar.localNs "x" false = some X ∧ X ≠ x ∧
      number? block .standard = some 1 ∧
      number? block { Config.standard with strictVariableLookup := false } = some 2 := by
  intro x X s
  have hX : X.answersTo LocalVar.localNs "x" false := by decide
  refine ⟨rfl, ?_, fun h => ?_, by decide +kernel, by decide +kernel⟩
  · rw [BindState.findVar_eq]
    exact List.find?_cons_of_pos hX
  · exact absurd (congrArg LocalVar.slot h) (by decide)

end RuleExpr
