import RuleExpr.Proofs.Binding.Context
import RuleExpr.Proofs.VariableLookup
import Mathlib.Data.List.Nodup
import Mathlib.Data.List.Perm.Subperm

/-!
# Hidden Loop Variables

A loop that names no variable gets one with a name of its own: the first of the stem, the stem with
0, the stem with 1 and so on that no visible variable has.  All these names differ, so at most as
many of them are taken as there are visible variables, and the search ends.  The variable is
therefore declared without a report, and what could be named outside of the loop can be named in its
body as before.
-/

namespace RuleExpr

open BindM BindState

/-- The stem, then the stem with each number. -/
def hiddenName (stem : String) : Nat → String
  | 0 => stem
  | n + 1 => stem ++ toString n

theorem toString_ne_empty (n : Nat) : toString n ≠ "" := by
  intro h
  have hdigits := congrArg String.toList h
  simp at hdigits

/-- A number is read back from its digits. -/
theorem toString_injective : Function.Injective (toString : Nat → String) := by
  intro m n h
  have hread := congrArg (fun text => Nat.ofDigitChars 10 text.toList 0) h
  simpa [Nat.toString_eq_ofList_toDigits] using hread

/-- A stem that ends in digits gives no name twice either: its names have one beginning. -/
theorem hiddenName_injective (stem : String) : Function.Injective (hiddenName stem) := by
  have hstem (n : Nat) : stem ≠ stem ++ toString n := by
    intro h
    have hempty : stem ++ "" = stem ++ toString n := by rwa [String.append_empty]
    exact toString_ne_empty n ((String.append_right_inj stem).1 hempty).symm
  intro m n h
  cases m with
  | zero =>
    cases n with
    | zero => rfl
    | succ n => exact absurd h (hstem n)
  | succ m =>
    cases n with
    | zero => exact absurd h.symm (hstem m)
    | succ n => rw [toString_injective ((String.append_right_inj stem).1 h)]

namespace BindState

variable {s : BindState} {ns name stem : String}

theorem hasVar_iff : s.hasVar ns name ↔ ∃ var ∈ s.visible, var.answersTo ns name true := by
  rw [hasVar, findVar_eq, List.find?_isSome]

theorem length_visible (s : BindState) : s.visible.length = s.scopes.flatten.length := by
  rw [visible, List.length_flatMap, List.length_flatten]
  simp only [List.length_reverse]

/-- The search goes through one name more than there are variables besides the stem. -/
theorem hiddenVarName_eq (s : BindState) (stem : String) :
    s.hiddenVarName stem =
      ((((List.range (s.visible.length + 2)).map (hiddenName stem)).find?
        (!s.hasVar LocalVar.localNs ·)).getD stem) := by
  rw [List.range_succ_eq_map, List.map_cons, List.map_map, length_visible]
  rfl

/-- Each visible variable takes one of the names. -/
theorem exists_free_hiddenName (s : BindState) (ns stem : String) :
    ∃ index ≤ s.visible.length, ¬s.hasVar ns (hiddenName stem index) := by
  by_contra! htaken
  have hsubset : (List.range (s.visible.length + 1)).map (hiddenName stem) ⊆
      s.visible.map (·.name) := by
    intro name hname
    obtain ⟨index, hindex, rfl⟩ := List.mem_map.1 hname
    obtain ⟨var, hvar, hanswers⟩ :=
      hasVar_iff.1 (htaken index (Nat.le_of_lt_succ (List.mem_range.1 hindex)))
    rw [← (LocalVar.answersTo_strict_iff.1 hanswers).2]
    exact List.mem_map_of_mem hvar
  have hnodup : ((List.range (s.visible.length + 1)).map (hiddenName stem)).Nodup :=
    List.Nodup.map (hiddenName_injective stem) List.nodup_range
  have hlength := (List.subperm_of_subset hnodup hsubset).length_le
  rw [List.length_map, List.length_map, List.length_range] at hlength
  omega

/-- The first of the names that is free is found. -/
theorem hiddenVarName_spec (s : BindState) (stem : String) :
    ∃ index ≤ s.visible.length, s.hiddenVarName stem = hiddenName stem index ∧
      ¬s.hasVar LocalVar.localNs (hiddenName stem index) ∧
      ∀ earlier < index, s.hasVar LocalVar.localNs (hiddenName stem earlier) := by
  obtain ⟨free, hbound, hfree⟩ := s.exists_free_hiddenName LocalVar.localNs stem
  have hsearch := s.hiddenVarName_eq stem
  rw [List.find?_map] at hsearch
  cases hfirst : (List.range (s.visible.length + 2)).find?
      ((!s.hasVar LocalVar.localNs ·) ∘ hiddenName stem) with
  | none =>
    have hnone := List.find?_eq_none.1 hfirst free (List.mem_range.2 (by omega))
    simp only [Function.comp_apply, Bool.not_eq_true, Bool.not_eq_false'] at hnone
    exact absurd hnone hfree
  | some index =>
    obtain ⟨hnew, -, hearlier⟩ := List.find?_range_eq_some.1 hfirst
    rw [hfirst] at hsearch
    have htaken : ∀ earlier < index, s.hasVar LocalVar.localNs (hiddenName stem earlier) :=
      fun earlier hlt => by simpa using hearlier earlier hlt
    refine ⟨index, ?_, hsearch, by simpa using hnew, htaken⟩
    exact Nat.le_trans (Nat.le_of_not_lt fun hlt => hfree (htaken free hlt)) hbound

end BindState

namespace BindState

/-- The context in which the body of a loop over `var` begins, when the source does not name the
variable. -/
def enterHidden (s : BindState) (var : LocalVar) : BindState :=
  { s with
    scopes := [var] :: s.scopes
    receivers := s.receivers ++ [(s.scopeDepth + 1, var)]
    nextSlot := s.nextSlot + 1 }

variable {s : BindState} {ns name : String} {var outer : LocalVar}

theorem visible_enterHidden (s : BindState) (var : LocalVar) :
    (s.enterHidden var).visible = var :: s.visible := rfl

theorem findVar_enterHidden_self :
    (s.enterHidden var).findVar var.ns var.name true = some var := by
  rw [findVar_eq, visible_enterHidden]
  exact List.find?_cons_of_pos (LocalVar.answersTo_strict_iff.2 ⟨rfl, rfl⟩)

/-- What was found before is found still, unless it has the name of the new variable. -/
theorem findVar_enterHidden (hfree : ¬s.hasVar ns var.name)
    (h : s.findVar ns name true = some outer) :
    (s.enterHidden var).findVar ns name true = some outer := by
  rw [findVar_eq, visible_enterHidden, List.find?_cons_of_neg, ← findVar_eq, h]
  intro hanswers
  rw [(LocalVar.answersTo_strict_iff.1 hanswers).2, hasVar, h] at hfree
  exact hfree rfl

end BindState

/-- A hidden variable is declared in the new scope of its loop without a report. -/
theorem hiddenLoopVar_run (settings : BindSettings) (s : BindState) (body : SyntaxNode)
    (element : Ty) :
    let name := s.hiddenVarName settings.config.hiddenVarStem
    let var : LocalVar := ⟨LocalVar.localNs, name, element, s.nextSlot⟩
    hiddenLoopVar body element settings s.pushScope =
      (.ok (some ⟨var, none⟩), s.enterHidden var) :=
  rfl

/-- A hidden loop variable has the first name that is free, and is declared without a report; what
the loop gives is what its body gives then.  In the body every name still stands for the variable
outside of the loop that it stood for. -/
theorem hidden_loop_variable_fresh (settings : BindSettings) (s : BindState) (kind : AggregateKind)
    (element : Ty) (body : Child) :
    ∃ index var inside,
      var.name = s.hiddenVarName settings.config.hiddenVarStem ∧
      var.name = hiddenName settings.config.hiddenVarStem index ∧
      index ≤ s.visible.length ∧ s.hasVar LocalVar.localNs var.name = false ∧
      (∀ earlier < index,
        s.hasVar LocalVar.localNs (hiddenName settings.config.hiddenVarStem earlier)) ∧
      bindLoop kind element none body settings s.pushScope =
        bindLoopBody kind body (some ⟨var, none⟩) settings inside ∧
      inside.diagnostics = s.diagnostics ∧
      inside.findVar LocalVar.localNs var.name true = some var ∧
      ∀ name outer, s.findVar LocalVar.localNs name true = some outer →
        inside.findVar LocalVar.localNs name true = some outer ∧
        ∀ node : SyntaxNode, node.text = name →
          bindIdentifier node (settings.lookingUp true) s =
            (.ok (outer.reference node.span), s) ∧
          bindIdentifier node (settings.lookingUp true) inside =
            (.ok (outer.reference node.span), inside) := by
  obtain ⟨index, hbound, hname, hfree, hearlier⟩ :=
    s.hiddenVarName_spec settings.config.hiddenVarStem
  let var : LocalVar :=
    ⟨LocalVar.localNs, s.hiddenVarName settings.config.hiddenVarStem, element, s.nextSlot⟩
  have hnew : ¬s.hasVar LocalVar.localNs var.name := by
    rw [← hname] at hfree
    exact hfree
  refine ⟨index, var, s.enterHidden var, rfl, hname, hbound, Bool.eq_false_iff.2 hnew, hearlier, ?_,
    rfl, findVar_enterHidden_self, fun name outer houter => ?_⟩
  · rw [bindLoop_none]
    exact run_bind_of_ok (hiddenLoopVar_run settings s body.node element)
  · have hinside := findVar_enterHidden hnew houter
    refine ⟨hinside, fun node htext => ?_⟩
    subst htext
    exact ⟨bindIdentifier_variable houter, bindIdentifier_variable hinside⟩

end RuleExpr
