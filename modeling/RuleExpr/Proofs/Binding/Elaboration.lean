import RuleExpr.Proofs.Binding.Context
import Mathlib.Data.List.Forall2

/-!
# Elaboration

What a tree is bound to, as a relation.  `Elaborates` relates a syntax tree and the context before
to a bound tree and the context after, with one rule for every way in which binding can build a
node.  Bound trees are taken apart along these rules, and no proof about them has to look at the
binders again; that every answer of `bind` follows from the rules is shown in a module of its own.

Conversions belong to the node that they are put around, so a rule speaks of the children as they
stand in the bound tree.  What is reported and interned on the way is left to `BindState.Quiet`
steps.  The rules say where methods, fields and casts come from, and which types were asked for;
that the children have these types is a property of the registry.
-/

namespace RuleExpr

open BindM BindState

namespace BindState

variable {s s₁ s' : BindState}

/-- An error was reported between `s` and `s'`. -/
def Reports (s s' : BindState) : Prop :=
  ∃ new, s'.diagnostics = s.diagnostics ++ new ∧ new.any (·.isError)

theorem Reports.after (h : s₁.Reports s') (hgrows : s.diagnostics <+: s₁.diagnostics) :
    s.Reports s' := by
  obtain ⟨new, hnew, herror⟩ := h
  obtain ⟨old, hold⟩ := hgrows
  refine ⟨old ++ new, ?_, ?_⟩
  · rw [hnew, ← hold, List.append_assoc]
  · rw [List.any_append, herror, Bool.or_true]

theorem Reports.before (h : s.Reports s₁) (hgrows : s₁.diagnostics <+: s'.diagnostics) :
    s.Reports s' := by
  obtain ⟨new, hnew, herror⟩ := h
  obtain ⟨more, hmore⟩ := hgrows
  refine ⟨new ++ more, ?_, ?_⟩
  · rw [← hmore, hnew, List.append_assoc]
  · rw [List.any_append, herror, Bool.true_or]

theorem Reports.hasErrors (h : s.Reports s') : s'.hasErrors = true := by
  obtain ⟨new, hnew, herror⟩ := h
  rw [BindState.hasErrors, hnew, List.any_append, herror, Bool.or_true]

/-- The scopes with a variable added to the innermost one. -/
def addInnermost (var : LocalVar) : List (List LocalVar) → List (List LocalVar)
  | scope :: outer => (scope ++ [var]) :: outer
  | [] => []

/-- A variable is declared in the next slot, perhaps as a receiver. -/
structure Adds (s : BindState) (var : LocalVar) (s' : BindState) : Prop where
  scopes : s'.scopes = addInnermost var s.scopes
  slot : var.slot = s.nextSlot
  nextSlot : s'.nextSlot = s.nextSlot + 1
  receivers : s'.receivers = s.receivers ∨ s'.receivers = s.receivers ++ [(s.scopeDepth, var)]
  diagnostics : s.diagnostics <+: s'.diagnostics
  program : s'.program = s.program
  owner : s.owner.Remembers s'.owner

theorem Adds.after {var : LocalVar} (h : s₁.Adds var s') (hquiet : s.Quiet s₁) :
    s.Adds var s' where
  scopes := by rw [h.scopes, hquiet.scopes]
  slot := h.slot.trans hquiet.nextSlot
  nextSlot := by rw [h.nextSlot, hquiet.nextSlot]
  receivers := by
    have hdepth : s₁.scopeDepth = s.scopeDepth := by rw [scopeDepth, scopeDepth, hquiet.scopes]
    rw [← hquiet.receivers, ← hdepth]
    exact h.receivers
  diagnostics := hquiet.diagnostics.trans h.diagnostics
  program := h.program.trans hquiet.program
  owner := hquiet.owner.trans h.owner

theorem Adds.before {var : LocalVar} (h : s.Adds var s₁) (hquiet : s₁.Quiet s') :
    s.Adds var s' where
  scopes := hquiet.scopes.trans h.scopes
  slot := h.slot
  nextSlot := hquiet.nextSlot.trans h.nextSlot
  receivers := by
    rw [hquiet.receivers]
    exact h.receivers
  diagnostics := h.diagnostics.trans hquiet.diagnostics
  program := hquiet.program.trans h.program
  owner := h.owner.trans hquiet.owner

theorem Adds.fills {var : LocalVar} (h : s.Adds var s') (hs : s.scopes ≠ []) : s.Fills s' := by
  obtain ⟨inner, outer, hscopes⟩ := List.exists_cons_of_ne_nil hs
  have hscopes' : s'.scopes = (inner ++ [var]) :: outer := by rw [h.scopes, hscopes]; rfl
  have hdepth : s'.scopeDepth = s.scopeDepth := by
    rw [scopeDepth, scopeDepth, hscopes', hscopes]
    rfl
  refine ⟨⟨⟨inner, outer, [var], hscopes, hscopes', ?_⟩, ?_, h.diagnostics, h.program, h.owner⟩, ?_⟩
  · intro other hmem
    rw [List.mem_singleton.1 hmem, h.slot, h.nextSlot]
    exact ⟨Nat.le_refl _, Nat.lt_succ_self _⟩
  · exact h.nextSlot ▸ Nat.le_succ _
  · rcases h.receivers with hreceivers | hreceivers
    · exact ⟨[], by rw [hreceivers, List.append_nil], by simp⟩
    · refine ⟨[(s.scopeDepth, var)], hreceivers, ?_⟩
      intro receiver hmem
      rw [List.mem_singleton.1 hmem, hdepth]

end BindState

/-- `c` stands for `b` where a value of type `t` is asked for. -/
inductive Converted (r : Registry) (t : Ty) (b : BoundNode) : BoundNode → Prop
  | same (h : b.ty.key = t.key) : Converted r t b b
  | cast {cast : Cast} (h : r.cast b.ty t = .ok (some cast)) : Converted r t b (b.wrap cast)
  | failed {c : BoundNode} (h : c.isError) : Converted r t b c

/-- A node where a value of type `t` is asked for. -/
def Fits (r : Registry) (t : Ty) (c : BoundNode) : Prop := ∃ b, Converted r t b c

/-- How a loop converts elements for a variable of type `t`. -/
inductive LoopCast (r : Registry) (element t : Ty) : Option Cast → Prop
  | same (h : t.key = element.key) : LoopCast r element t none
  | cast {cast : Cast} (h : r.cast element t = .ok (some cast)) : LoopCast r element t (some cast)

/-- Array types as the type space answers with them. -/
def ArrayTy (component t : Ty) : Prop := ∃ known, t = .array known ∧ known.key = component.key

/-- Type of an aggregate with a loop variable of type `loop`. -/
def AggregateTy (kind : AggregateKind) (source : Ty) (loop : Ty) (cast? : Option Cast)
    (body t : Ty) : Prop :=
  match kind with
  | .selectAll => source.isArray ∧ cast? = none ∧ t = source ∨ ArrayTy loop t
  | .selectFirst => t = loop.box
  | .collect => ArrayTy (if body.isNull || body.isVoid then .object else body) t

/-- Methods that a call may select, by the type of the receiver that it keeps. -/
inductive Program.Callable (P : Program) : Option Ty → Method → Prop
  | free {name : String} {m : Method} (h : m ∈ P.methodsNamed name) : P.Callable none m
  | operator {name : String} {m : Method} (h : m ∈ Library.operatorsNamed name) :
      P.Callable none m
  | member {t : Ty} {name : String} {m : Method} (h : m ∈ P.declarations.methodsNamed t name)
      (hm : m.head.isStatic = false) : P.Callable (some t) m
  | static {t : Ty} {name : String} {m : Method} (h : m ∈ P.declarations.methodsNamed t name)
      (hm : m.head.isStatic = true) : P.Callable none m
  | constructor {t : Ty} {m : Method} (h : m ∈ P.declarations.constructors t) :
      P.Callable none m

/-! ## Elaboration -/

/-- Kinds of nodes whose children may be bound in a scope of their own. -/
def NodeKind.opensScope : NodeKind → Bool
  | block | aggregate _ => true
  | _ => false

/-- Nodes that evaluate all their children, one after the other. -/
inductive Strict (r : Registry) (P : Program) : BoundShape → Ty → Prop
  | fieldAccess {target : BoundNode} {name : String} {field : Field}
      (h : P.declarations.field? target.ty name = some field) :
      Strict r P (.fieldAccess target field.name) field.ty
  | arrayLength {array : BoundNode} (h : array.ty.isArray) : Strict r P (.arrayLength array) .int
  | arrayElement {array index : BoundNode} {t : Ty} (h : array.ty.component? = some t)
      (hindex : Fits r .int index) : Strict r P (.arrayElement array index) t
  | newArray {element t : Ty} {size : BoundNode} (hsize : Fits r .int size)
      (ht : ArrayTy element t) : Strict r P (.newArray element size) t
  | arrayInit {elements : List BoundNode} {component t : Ty}
      (helements : ∀ element ∈ elements, Fits r component element) (ht : ArrayTy component t) :
      Strict r P (.arrayInit elements) t
  | call {m : Method} {arguments : List BoundNode} (hm : P.Callable none m)
      (hkind : m.head.kind ≠ .constructor) (harguments : List.Forall₂ (Fits r) m.params arguments) :
      Strict r P (.methodCall m none arguments) m.returns
  | construct {m : Method} {arguments : List BoundNode} (hm : P.Callable none m)
      (hkind : m.head.kind = .constructor) (harguments : List.Forall₂ (Fits r) m.params arguments) :
      Strict r P (.constructor m arguments) m.returns

/-- What relates a syntax tree and the context before to a bound tree and the context after. -/
abbrev Elaborating := SyntaxNode → BindState → BoundNode → BindState → Prop

/-- Trees related by `E`, one after the other. -/
inductive Sequence (E : Elaborating) :
    List SyntaxNode → BindState → List BoundNode → BindState → Prop
  | nil {s s' : BindState} (hs : s.Quiet s') : Sequence E [] s [] s'
  | cons {node : SyntaxNode} {nodes : List SyntaxNode} {s s₁ s' : BindState} {n : BoundNode}
      {ns : List BoundNode} (hnode : E node s n s₁) (hnodes : Sequence E nodes s₁ ns s') :
      Sequence E (node :: nodes) s (n :: ns) s'

/-- One rule of elaboration, with `E` for the trees below. -/
inductive Rule (σ : BindSettings) (E : Elaborating) : Elaborating
  | failure {node : SyntaxNode} {s s' : BindState} {n : BoundNode} (hn : n.isError)
      (hs : s.Extends s') : Rule σ E node s n s'
  | literal {node : SyntaxNode} {s s' : BindState} {kind : LiteralKind} {value : Value} {t : Ty}
      {span : Span} (hliteral : readLiteral kind node.text = some (value, t)) (hs : s.Quiet s') :
      Rule σ E node s ⟨.literal value, t, span⟩ s'
  | localVar {node : SyntaxNode} {s s' : BindState} {var : LocalVar} {span : Span}
      (hvar : s.findVar LocalVar.localNs node.text σ.config.strictVariableLookup = some var)
      (hs : s.Quiet s') : Rule σ E node s ⟨.localVar var.name var.slot, var.ty, span⟩ s'
  | receiverField {node : SyntaxNode} {s s' : BindState} {var : LocalVar} {field : Field}
      {span : Span} (hfield : s.findReceiverField node.text = some (var, field))
      (hs : s.Quiet s') :
      Rule σ E node s
        ⟨.fieldAccess ⟨.localVar var.name var.slot, var.ty, span⟩ field.name, field.ty, span⟩ s'
  | moduleField {node : SyntaxNode} {s s' : BindState} {field : Field} {span : Span}
      (hfield : s.program.field? node.text = some field) (hs : s.Quiet s') :
      Rule σ E node s ⟨.moduleField field, field.ty, span⟩ s'
  | strict {node : SyntaxNode} {s s' : BindState} {kids : List SyntaxNode} {n : BoundNode}
      (hkind : node.kind.opensScope = false) (hkids : kids.Sublist node.children)
      (hall : Sequence E kids s n.children s')
      (hstrict : Strict σ.registry s.program n.shape n.ty)
      (herror : ∀ c ∈ n.children, c.isError → s.Reports s') : Rule σ E node s n s'
  | memberCall {node : SyntaxNode} {kids : List SyntaxNode} {s s' : BindState}
      {receiver : BoundNode} {arguments : List BoundNode} {m : Method} {span : Span}
      (hkind : node.kind = .memberCall) (hkids : node.children = kids)
      (hall : Sequence E kids s (receiver :: arguments) s')
      (hm : s.program.Callable (some receiver.ty) m)
      (harguments : List.Forall₂ (Fits σ.registry) m.params arguments)
      (herror : ∀ c ∈ receiver :: arguments, c.isError → s.Reports s') :
      Rule σ E node s ⟨.methodCall m (some receiver) arguments, m.returns, span⟩ s'
  /-- A static method drops the receiver that it is called on. -/
  | staticCall {node : SyntaxNode} {kids : List SyntaxNode} {s s' : BindState}
      {receiver n : BoundNode} (hkind : node.kind = .memberCall) (hkids : node.children = kids)
      (hall : Sequence E kids s (receiver :: n.children) s')
      (hstrict : Strict σ.registry s.program n.shape n.ty)
      (hreceiver : receiver.isError = false)
      (herror : ∀ c ∈ n.children, c.isError → s.Reports s') : Rule σ E node s n s'
  | conditional {node : SyntaxNode} {kids : List SyntaxNode} {s s' : BindState}
      {condition yes : BoundNode} {no? : Option BoundNode} {t : Ty} {span : Span}
      (hkind : node.kind = .ternary ∨ node.kind = .conditional) (hkids : node.children = kids)
      (hall : Sequence E kids s (condition :: yes :: no?.toList) s')
      (hcondition : Fits σ.registry .boolean condition)
      (hbranches : (∀ branch ∈ yes :: no?.toList, Fits σ.registry t branch) ∨
        σ.config.wideningFailure = .keepBranches ∧ t = .object)
      (herror : ∀ c ∈ condition :: yes :: no?.toList, c.isError → s.Reports s') :
      Rule σ E node s ⟨.conditional condition yes no?, t, span⟩ s'
  | logical {node : SyntaxNode} {kids : List SyntaxNode} {s s' : BindState} {op : BinaryOp}
      {left right : BoundNode} {span : Span} (hkind : node.kind = .binary op)
      (hop : op.methodName? = none) (hkids : node.children = kids)
      (hall : Sequence E kids s [left, right] s')
      (hleft : Fits σ.registry .boolean left) (hright : Fits σ.registry .boolean right)
      (herror : ∀ c ∈ [left, right], c.isError → s.Reports s') :
      Rule σ E node s
        ⟨if op = .or then .or left right else .and left right, .boolean, span⟩ s'
  | cast {node : SyntaxNode} {s s' : BindState} {operand : BoundNode} {cast : Cast} {t : Ty}
      {span : Span} (hoperand : E node s operand s')
      (hcast : σ.registry.cast operand.ty t = .ok (some cast)) (hnone : cast.isIdentity = false)
      (herror : operand.isError = false) :
      Rule σ E node s ⟨.cast operand cast, cast.target, span⟩ s'
  /-- A written cast answers with what becomes of its operand. -/
  | operand {node child : SyntaxNode} {s s' : BindState} {n : BoundNode} (span : Span)
      (hkind : node.kind = .cast) (hmem : child ∈ node.children)
      (hchild : E child s n s') : Rule σ E node s { n with span } s'
  | block {node : SyntaxNode} {s s₁ s' : BindState} {statements : List BoundNode} {span : Span}
      (hkind : node.kind = .block)
      (hall : Sequence E node.children s.pushScope statements s₁)
      (hs : s₁.closeScope.Quiet s')
      (herror : ∀ c ∈ statements, c.isError → s.Reports s') :
      Rule σ E node s
        ⟨.block statements, (statements.getLast?.map (·.ty)).getD .void, span⟩ s'
  | varDecl {node child : SyntaxNode} {s s₁ s' : BindState} {initial : BoundNode}
      {var : LocalVar} {span : Span} (hkind : node.kind = .varDecl) (hmem : child ∈ node.children)
      (hinitial : E child s initial s₁) (hfits : Fits σ.registry var.ty initial)
      (hadds : s₁.Adds var s') (hreceivers : s'.receivers = s₁.receivers)
      (herror : initial.isError = false) :
      Rule σ E node s ⟨.varDecl var.slot initial, var.ty, span⟩ s'
  | aggregate {node child last : SyntaxNode} {rest : List SyntaxNode}
      {s s₁ s₂ s₃ s' : BindState} {kind : AggregateKind} {source body : BoundNode} {var : LocalVar}
      {element t : Ty} {cast? : Option Cast} {span : Span} (hkind : node.kind = .aggregate kind)
      (hchildren : node.children = child :: rest) (hmem : last ∈ rest)
      (hsource : E child s source s₁) (helement : source.ty.component? = some element)
      (hadds : s₁.pushScope.Adds var s₂) (hbody : E last s₂ body s₃)
      (hs : s₃.closeScope.Quiet s') (hcast : LoopCast σ.registry element var.ty cast?)
      (hfilter : kind.isFilter → Fits σ.registry .boolean body)
      (ht : AggregateTy kind source.ty var.ty cast? body.ty t)
      (hsourceError : source.isError = false) (hbodyError : body.isError = false) :
      Rule σ E node s ⟨.aggregate kind source var.slot cast? body, t, span⟩ s'

/-- The tree `node`, bound in the context `s`, gives `n` and leaves the context `s'`. -/
inductive Elaborates (σ : BindSettings) : Elaborating
  | rule {node : SyntaxNode} {s s' : BindState} {n : BoundNode}
      (h : Rule σ (Elaborates σ) node s n s') : Elaborates σ node s n s'

/-- The trees `nodes`, bound one after the other. -/
abbrev ElaboratesAll (σ : BindSettings) := Sequence (Elaborates σ)

theorem Sequence.mono {E F : Elaborating} (h : ∀ {node s n s'}, E node s n s' → F node s n s')
    {nodes : List SyntaxNode} {s s' : BindState} {ns : List BoundNode}
    (hall : Sequence E nodes s ns s') : Sequence F nodes s ns s' := by
  induction hall with
  | nil hs => exact .nil hs
  | cons hnode _ ih => exact .cons (h hnode) ih

section Induction

variable {σ : BindSettings}
  {motive : ∀ {node : SyntaxNode} {s s' : BindState} {n : BoundNode},
    Elaborates σ node s n s' → Prop}

/-- A property of elaborations follows from the rules, where it may be assumed of what is below. -/
theorem Elaborates.induct
    (step : ∀ {node s n s'} (h : Elaborates σ node s n s'),
      Rule σ (fun node s n s' => ∃ h : Elaborates σ node s n s', motive h) node s n s' → motive h)
    {node : SyntaxNode} {s s' : BindState} {n : BoundNode} (h : Elaborates σ node s n s') :
    motive h := by
  refine @Elaborates.rec σ (fun _ _ _ _ h => motive h)
    (fun node s n s' _ =>
      Rule σ (fun node s n s' => ∃ h : Elaborates σ node s n s', motive h) node s n s')
    (fun nodes s ns s' _ =>
      Sequence (fun node s n s' => ∃ h : Elaborates σ node s n s', motive h) nodes s ns s')
    (fun h ih => step (.rule h) ih) ?_ ?_ ?_ ?_ ?_ ?_ ?_ ?_ ?_ ?_ ?_ ?_ ?_ ?_ ?_ ?_ ?_ _ _ _ _ h
  · exact .failure
  · exact .literal
  · exact .localVar
  · exact .receiverField
  · exact .moduleField
  · exact fun hkind hkids _ hstrict herror ih => .strict hkind hkids ih hstrict herror
  · exact fun hkind hkids _ hm harguments herror ih =>
      .memberCall hkind hkids ih hm harguments herror
  · exact fun hkind hkids _ hstrict hreceiver herror ih =>
      .staticCall hkind hkids ih hstrict hreceiver herror
  · exact fun hkind hkids _ hcondition hbranches herror ih =>
      .conditional hkind hkids ih hcondition hbranches herror
  · exact fun hkind hop hkids _ hleft hright herror ih =>
      .logical hkind hop hkids ih hleft hright herror
  · exact fun h hcast hnone herror ih => .cast ⟨h, ih⟩ hcast hnone herror
  · exact fun span hkind hmem h ih => .operand span hkind hmem ⟨h, ih⟩
  · exact fun hkind _ hs herror ih => .block hkind ih hs herror
  · exact fun hkind hmem h hfits hadds hreceivers herror ih =>
      .varDecl hkind hmem ⟨h, ih⟩ hfits hadds hreceivers herror
  · exact fun hkind hchildren hmem h helement hadds h' hs hcast hfilter ht hse hbe ih ih' =>
      .aggregate hkind hchildren hmem ⟨h, ih⟩ helement hadds ⟨h', ih'⟩ hs hcast hfilter ht hse hbe
  · exact .nil
  · exact fun h _ ih ih' => .cons ⟨h, ih⟩ ih'

theorem Sequence.elaborates {nodes : List SyntaxNode} {s s' : BindState} {ns : List BoundNode}
    (h : Sequence (fun node s n s' => ∃ h : Elaborates σ node s n s', motive h) nodes s ns s') :
    ElaboratesAll σ nodes s ns s' :=
  h.mono fun ⟨h, _⟩ => h

end Induction

namespace BindState.Quiet

variable {s s' : BindState}

theorem pushScope (h : s.Quiet s') : s.pushScope.Quiet s'.pushScope where
  scopes := congrArg ([] :: ·) h.scopes
  receivers := h.receivers
  nextSlot := h.nextSlot
  diagnostics := h.diagnostics
  program := h.program
  owner := h.owner

theorem findVar (h : s.Quiet s') : s'.findVar = s.findVar := by
  funext ns name strict
  rw [BindState.findVar, BindState.findVar, h.scopes]

theorem findReceiverField (h : s.Quiet s') : s'.findReceiverField = s.findReceiverField := by
  have hdeclarations : s'.workspace.declarations = s.workspace.declarations :=
    congrArg Program.declarations h.program
  funext name
  rw [BindState.findReceiverField, BindState.findReceiverField, h.receivers, hdeclarations]

end BindState.Quiet

theorem BindState.Extends.after {s s₁ s' : BindState} (h : s₁.Extends s') (hq : s.Quiet s₁) :
    s.Extends s' := by
  obtain ⟨inner, outer, new, hscopes, -, -⟩ := h.scopes
  have hne : s.scopes ≠ [] := by
    rw [← hq.scopes, hscopes]
    exact List.cons_ne_nil _ _
  exact (hq.extends hne).trans h

variable {σ : BindSettings}

/-- A sequence can start earlier, if its first tree can. -/
theorem Sequence.after {E F : Elaborating} {nodes : List SyntaxNode} {s₀ s s' : BindState}
    {ns : List BoundNode} (hmono : ∀ {node s n s'}, E node s n s' → F node s n s')
    (hfirst : ∀ {node n s'}, E node s n s' → F node s₀ n s') (hq : s₀.Quiet s)
    (h : Sequence E nodes s ns s') : Sequence F nodes s₀ ns s' := by
  cases h with
  | nil hs => exact .nil (hq.trans hs)
  | cons hnode hnodes => exact .cons (hfirst hnode) (hnodes.mono hmono)

theorem Sequence.before {E : Elaborating} {nodes : List SyntaxNode} {s s₁ s' : BindState}
    {ns : List BoundNode} (h : Sequence E nodes s ns s₁) (hq : s₁.Quiet s') :
    Sequence E nodes s ns s' := by
  induction h with
  | nil hs => exact .nil (hs.trans hq)
  | cons hnode _ ih => exact .cons hnode (ih hq)

theorem Elaborates.after {node : SyntaxNode} {s₀ s s' : BindState} {n : BoundNode}
    (h : Elaborates σ node s n s') (hq : s₀.Quiet s) : Elaborates σ node s₀ n s' := by
  induction h using Elaborates.induct generalizing s₀ with
  | step h hrule =>
    refine .rule ?_
    -- Only the child that a rule binds first starts earlier; the loop body starts where it did.
    cases hrule with
    | failure hn hs => exact .failure hn (hs.after hq)
    | literal hliteral hs => exact .literal hliteral (hq.trans hs)
    | localVar hvar hs => exact .localVar (hq.findVar ▸ hvar) (hq.trans hs)
    | receiverField hfield hs =>
      exact .receiverField (hq.findReceiverField ▸ hfield) (hq.trans hs)
    | moduleField hfield hs => exact .moduleField (hq.program ▸ hfield) (hq.trans hs)
    | strict hkind hkids hall hstrict herror =>
      exact .strict hkind hkids (hall.after (fun ⟨h, _⟩ => h) (fun ⟨_, ih⟩ => ih hq) hq)
        (hq.program ▸ hstrict)
        fun c hc he => (herror c hc he).after hq.diagnostics
    | memberCall hkind hkids hall hm harguments herror =>
      exact .memberCall hkind hkids (hall.after (fun ⟨h, _⟩ => h) (fun ⟨_, ih⟩ => ih hq) hq)
        (hq.program ▸ hm) harguments
        fun c hc he => (herror c hc he).after hq.diagnostics
    | staticCall hkind hkids hall hstrict hreceiver herror =>
      exact .staticCall hkind hkids (hall.after (fun ⟨h, _⟩ => h) (fun ⟨_, ih⟩ => ih hq) hq)
        (hq.program ▸ hstrict) hreceiver
        fun c hc he => (herror c hc he).after hq.diagnostics
    | conditional hkind hkids hall hcondition hbranches herror =>
      exact .conditional hkind hkids (hall.after (fun ⟨h, _⟩ => h) (fun ⟨_, ih⟩ => ih hq) hq)
        hcondition hbranches
        fun c hc he => (herror c hc he).after hq.diagnostics
    | logical hkind hop hkids hall hleft hright herror =>
      exact .logical hkind hop hkids (hall.after (fun ⟨h, _⟩ => h) (fun ⟨_, ih⟩ => ih hq) hq)
        hleft hright
        fun c hc he => (herror c hc he).after hq.diagnostics
    | cast hoperand hcast hnone herror =>
      obtain ⟨-, ih⟩ := hoperand
      exact .cast (ih hq) hcast hnone herror
    | operand span hkind hmem hchild =>
      obtain ⟨-, ih⟩ := hchild
      exact .operand span hkind hmem (ih hq)
    | block hkind hall hs herror =>
      exact .block hkind (hall.after (fun ⟨h, _⟩ => h) (fun ⟨_, ih⟩ => ih hq.pushScope)
        hq.pushScope) hs
        fun c hc he => (herror c hc he).after hq.diagnostics
    | varDecl hkind hmem hinitial hfits hadds hreceivers herror =>
      obtain ⟨-, ih⟩ := hinitial
      exact .varDecl hkind hmem (ih hq) hfits hadds hreceivers herror
    | aggregate hkind hchildren hmem hsource helement hadds hbody hs hcast hfilter ht hse hbe =>
      obtain ⟨-, ih⟩ := hsource
      obtain ⟨hbody, -⟩ := hbody
      exact .aggregate hkind hchildren hmem (ih hq) helement hadds hbody hs hcast hfilter ht hse
        hbe

theorem ElaboratesAll.after {nodes : List SyntaxNode} {s₀ s s' : BindState}
    {ns : List BoundNode} (h : ElaboratesAll σ nodes s ns s') (hq : s₀.Quiet s) :
    ElaboratesAll σ nodes s₀ ns s' :=
  Sequence.after (fun h => h) (fun h => h.after hq) hq h

theorem Elaborates.before {node : SyntaxNode} {s s₁ s' : BindState} {n : BoundNode}
    (h : Elaborates σ node s n s₁) (hq : s₁.Quiet s') : Elaborates σ node s n s' := by
  induction h using Elaborates.induct with
  | step h hrule =>
    refine .rule ?_
    cases hrule with
    | failure hn hs => exact .failure hn (hs.trans (hq.extends hs.scopes_ne_nil))
    | literal hliteral hs => exact .literal hliteral (hs.trans hq)
    | localVar hvar hs => exact .localVar hvar (hs.trans hq)
    | receiverField hfield hs => exact .receiverField hfield (hs.trans hq)
    | moduleField hfield hs => exact .moduleField hfield (hs.trans hq)
    | strict hkind hkids hall hstrict herror =>
      exact .strict hkind hkids (hall.elaborates.before hq) hstrict
        fun c hc he => (herror c hc he).before hq.diagnostics
    | memberCall hkind hkids hall hm harguments herror =>
      exact .memberCall hkind hkids (hall.elaborates.before hq) hm harguments
        fun c hc he => (herror c hc he).before hq.diagnostics
    | staticCall hkind hkids hall hstrict hreceiver herror =>
      exact .staticCall hkind hkids (hall.elaborates.before hq) hstrict hreceiver
        fun c hc he => (herror c hc he).before hq.diagnostics
    | conditional hkind hkids hall hcondition hbranches herror =>
      exact .conditional hkind hkids (hall.elaborates.before hq) hcondition hbranches
        fun c hc he => (herror c hc he).before hq.diagnostics
    | logical hkind hop hkids hall hleft hright herror =>
      exact .logical hkind hop hkids (hall.elaborates.before hq) hleft hright
        fun c hc he => (herror c hc he).before hq.diagnostics
    | cast hoperand hcast hnone herror =>
      obtain ⟨-, ih⟩ := hoperand
      exact .cast (ih hq) hcast hnone herror
    | operand span hkind hmem hchild =>
      obtain ⟨-, ih⟩ := hchild
      exact .operand span hkind hmem (ih hq)
    | block hkind hall hs herror =>
      exact .block hkind hall.elaborates (hs.trans hq)
        fun c hc he => (herror c hc he).before hq.diagnostics
    | varDecl hkind hmem hinitial hfits hadds hreceivers herror =>
      obtain ⟨hinitial, -⟩ := hinitial
      exact .varDecl hkind hmem hinitial hfits (hadds.before hq) (hq.receivers.trans hreceivers)
        herror
    | aggregate hkind hchildren hmem hsource helement hadds hbody hs hcast hfilter ht hse hbe =>
      obtain ⟨hsource, -⟩ := hsource
      obtain ⟨hbody, -⟩ := hbody
      exact .aggregate hkind hchildren hmem hsource helement hadds hbody (hs.trans hq) hcast
        hfilter ht hse hbe

namespace BindState

variable {s s₁ s₂ s₃ s' : BindState} {var : LocalVar}

/-- A scope is opened in `s`, left as `s₁` and closed again. -/
structure Encloses (s s₁ s' : BindState) : Prop where
  wellScoped : s.WellScoped
  fills : s.pushScope.Fills s₁
  closes : s₁.closeScope.Quiet s'

theorem Encloses.extends (h : s.Encloses s₁ s') : s.Extends s' := by
  have hclosed := closeScope_extends h.wellScoped h.fills
  exact hclosed.trans (h.closes.extends hclosed.scopes_ne_nil)

theorem Encloses.nextSlot (h : s.Encloses s₁ s') : s'.nextSlot = s₁.nextSlot := by
  rw [h.closes.nextSlot, closeScope_nextSlot]

theorem Encloses.diagnostics (h : s.Encloses s₁ s') : s₁.diagnostics <+: s'.diagnostics := by
  rw [← closeScope_diagnostics s₁]
  exact h.closes.diagnostics

/-- What reports no error as a whole reports none before a step in between, and none after it. -/
theorem not_reports_parts (hclean : ¬s.Reports s') (hbefore : s.diagnostics <+: s₁.diagnostics)
    (hafter : s₁.diagnostics <+: s'.diagnostics) : ¬s.Reports s₁ ∧ ¬s₁.Reports s' :=
  ⟨fun hreports => hclean (hreports.before hafter), fun hreports => hclean (hreports.after hbefore)⟩

theorem Encloses.not_reports (h : s.Encloses s₁ s') (hclean : ¬s.Reports s') :
    ¬s.pushScope.Reports s₁ :=
  (not_reports_parts hclean h.fills.diagnostics h.diagnostics).1

/-- The contexts of a loop: `s₁` after its source, `s₂` with its variable in a scope of its own,
`s₃` after its body, and `s'` with that scope closed. -/
structure Loops (s s₁ : BindState) (var : LocalVar) (s₂ s₃ s' : BindState) : Prop where
  source : s.Extends s₁
  adds : s₁.pushScope.Adds var s₂
  body : s₂.Extends s₃
  encloses : s₁.Encloses s₃ s'

namespace Loops

theorem of_extends (hs : s.WellScoped) (hsource : s.Extends s₁) (hadds : s₁.pushScope.Adds var s₂)
    (hbody : s₂.WellScoped → s₂.Extends s₃) (hq : s₃.closeScope.Quiet s') :
    s.Loops s₁ var s₂ s₃ s' := by
  have hs₁ := hsource.wellScoped hs
  have hopen := pushScope_wellScoped hs₁
  have hvariable := hadds.fills hopen.scopes
  have hextends := hbody (hvariable.wellScoped hopen)
  exact ⟨hsource, hadds, hextends, hs₁, hvariable.trans hextends.fills, hq⟩

variable (h : s.Loops s₁ var s₂ s₃ s')

include h

theorem fills : s₁.pushScope.Fills s₂ := h.adds.fills (List.cons_ne_nil _ _)

theorem wellScoped : s₂.WellScoped :=
  h.fills.wellScoped (pushScope_wellScoped h.encloses.wellScoped)

theorem program : s₂.program = s.program := h.fills.program.trans h.source.program

theorem body_nextSlot : s₂.nextSlot ≤ s'.nextSlot := h.encloses.nextSlot ▸ h.body.nextSlot

theorem not_reports (hclean : ¬s.Reports s') : ¬s.Reports s₁ ∧ ¬s₂.Reports s₃ := by
  obtain ⟨hsource, hrest⟩ :=
    not_reports_parts hclean h.source.diagnostics h.encloses.extends.diagnostics
  refine ⟨hsource, (not_reports_parts (s := s₁.pushScope) ?_ h.fills.diagnostics
    h.body.diagnostics).2⟩
  exact h.encloses.not_reports hrest

end Loops

end BindState

theorem Sequence.extends {E : Elaborating}
    (hE : ∀ {node s n s'}, E node s n s' → s.WellScoped → s.Extends s') {nodes : List SyntaxNode}
    {s s' : BindState} {ns : List BoundNode} (h : Sequence E nodes s ns s') (hs : s.WellScoped) :
    s.Extends s' := by
  induction h with
  | nil hq => exact hq.extends hs.scopes
  | cons hnode _ ih =>
    have hfirst := hE hnode hs
    exact hfirst.trans (ih (hfirst.wellScoped hs))

theorem Elaborates.extends {node : SyntaxNode} {s s' : BindState} {n : BoundNode}
    (h : Elaborates σ node s n s') (hs : s.WellScoped) : s.Extends s' := by
  induction h using Elaborates.induct with
  | step h hrule =>
    cases hrule with
    | failure _ hextends => exact hextends
    | literal _ hq => exact hq.extends hs.scopes
    | localVar _ hq => exact hq.extends hs.scopes
    | receiverField _ hq => exact hq.extends hs.scopes
    | moduleField _ hq => exact hq.extends hs.scopes
    | strict _ _ hall => exact hall.extends (fun ⟨_, ih⟩ => ih) hs
    | memberCall _ _ hall => exact hall.extends (fun ⟨_, ih⟩ => ih) hs
    | staticCall _ _ hall => exact hall.extends (fun ⟨_, ih⟩ => ih) hs
    | conditional _ _ hall => exact hall.extends (fun ⟨_, ih⟩ => ih) hs
    | logical _ _ _ hall => exact hall.extends (fun ⟨_, ih⟩ => ih) hs
    | cast hoperand =>
      obtain ⟨-, ih⟩ := hoperand
      exact ih hs
    | operand _ _ _ hchild =>
      obtain ⟨-, ih⟩ := hchild
      exact ih hs
    | block _ hall hq _ =>
      have hinside := (hall.extends (fun ⟨_, ih⟩ => ih) (pushScope_wellScoped hs)).fills
      exact (Encloses.mk hs hinside hq).extends
    | varDecl _ _ hinitial _ hadds hreceivers _ =>
      obtain ⟨-, ih⟩ := hinitial
      have hfirst := ih hs
      exact hfirst.trans ⟨(hadds.fills hfirst.scopes_ne_nil).toDeclares, hreceivers⟩
    | aggregate _ _ _ hsource _ hadds hbody hq =>
      obtain ⟨-, ihsource⟩ := hsource
      obtain ⟨-, ihbody⟩ := hbody
      have hloops := Loops.of_extends hs (ihsource hs) hadds ihbody hq
      exact hloops.source.trans hloops.encloses.extends

theorem ElaboratesAll.extends {nodes : List SyntaxNode} {s s' : BindState}
    {ns : List BoundNode} (h : ElaboratesAll σ nodes s ns s') (hs : s.WellScoped) :
    s.Extends s' :=
  Sequence.extends Elaborates.extends h hs

/-- Where a tree and the ones after it report no error together, each part reports none. -/
theorem Elaborates.not_reports_parts {node : SyntaxNode} {nodes : List SyntaxNode}
    {s s₁ s' : BindState} {n : BoundNode} {ns : List BoundNode} (h : Elaborates σ node s n s₁)
    (hnodes : ElaboratesAll σ nodes s₁ ns s') (hs : s.WellScoped) (hclean : ¬s.Reports s') :
    ¬s.Reports s₁ ∧ ¬s₁.Reports s' := by
  have hextends := h.extends hs
  exact BindState.not_reports_parts hclean hextends.diagnostics
    (hnodes.extends (hextends.wellScoped hs)).diagnostics

theorem ElaboratesAll.encloses {nodes : List SyntaxNode} {s s₁ s' : BindState}
    {ns : List BoundNode} (h : ElaboratesAll σ nodes s.pushScope ns s₁) (hs : s.WellScoped)
    (hq : s₁.closeScope.Quiet s') : s.Encloses s₁ s' :=
  ⟨hs, (h.extends (pushScope_wellScoped hs)).fills, hq⟩

theorem Elaborates.loops {child last : SyntaxNode} {s s₁ s₂ s₃ s' : BindState}
    {source body : BoundNode} {var : LocalVar} (hsource : Elaborates σ child s source s₁)
    (hadds : s₁.pushScope.Adds var s₂) (hbody : Elaborates σ last s₂ body s₃)
    (hq : s₃.closeScope.Quiet s') (hs : s.WellScoped) : s.Loops s₁ var s₂ s₃ s' :=
  .of_extends hs (hsource.extends hs) hadds hbody.extends hq

/-- A node bound at one type stands for its syntax where another type is asked for. -/
theorem Elaborates.converted {node : SyntaxNode} {s s' : BindState} {n c : BoundNode} {t : Ty}
    (hs : s.WellScoped) (h : Elaborates σ node s n s') (hn : n.isError = false)
    (hc : Converted σ.registry t n c) : Elaborates σ node s c s' := by
  cases hc with
  | same => exact h
  | cast hcast =>
    unfold BoundNode.wrap
    split
    · exact h
    case isFalse hidentity =>
      exact .rule (.cast h hcast (Bool.eq_false_iff.2 hidentity) hn)
  | failed hc => exact .rule (.failure hc (h.extends hs))

/-- Each of the nodes stands for one of the others where some type is asked for. -/
def ConvertedAll (r : Registry) : List BoundNode → List BoundNode → Prop :=
  List.Forall₂ fun b c => ∃ t, Converted r t b c

theorem ElaboratesAll.converted {nodes : List SyntaxNode} {s s' : BindState}
    {bs cs : List BoundNode} (hs : s.WellScoped) (h : ElaboratesAll σ nodes s bs s')
    (hbs : ∀ b ∈ bs, b.isError = false) (hc : ConvertedAll σ.registry bs cs) :
    ElaboratesAll σ nodes s cs s' := by
  induction hc generalizing nodes s with
  | nil => exact h
  | cons hc hcs ih =>
    obtain ⟨t, hc⟩ := hc
    cases h with
    | cons hnode hnodes =>
      have hs₁ := (hnode.extends hs).wellScoped hs
      have hrest := ih hs₁ hnodes fun b hb => hbs b (List.mem_cons_of_mem _ hb)
      exact .cons (hnode.converted hs (hbs _ List.mem_cons_self) hc) hrest

end RuleExpr
