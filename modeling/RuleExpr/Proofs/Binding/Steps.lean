import RuleExpr.Proofs.Binding.Run

/-!
# Steps of Binding

The relations between the contexts before and after a step of binding, and the steps that declare
nothing.  `BindState.Still` is what those do: they read the program, report, and intern array
types.  `BindState.Extends` is what a step does that binds a whole tree: variables are added at the
end of the innermost scope and all else is given back as it was.  Inside of a scope that is closed
again, receivers are added too, and the step is one of `BindState.Fills`.

Receivers are taken away by the number of their scope, so a context has to be
`BindState.WellScoped` for a tree to leave the right ones.
-/

namespace RuleExpr

/-- What binding reads of the module and of the members of types. -/
structure Program where
  declarations : Declarations
  methodsNamed : String → List Method
  field? : String → Option Field
  findType : String → Option Ty

def BindState.program (s : BindState) : Program where
  declarations := s.workspace.declarations
  methodsNamed := s.owner.methodsNamed
  field? name := (s.owner.getField name).1
  findType := s.owner.findType

/-- The module itself, or the module with the fields of its dependencies remembered. -/
def RuleModule.Remembers (m m' : RuleModule) : Prop :=
  m' = m ∨ m.fieldCache = none ∧ m' = { m with fieldCache := some (mergedFields m.dependencies) }

theorem RuleModule.Remembers.refl (m : RuleModule) : m.Remembers m := .inl rfl

theorem RuleModule.Remembers.trans {m m₁ m' : RuleModule} (h : m.Remembers m₁)
    (h' : m₁.Remembers m') : m.Remembers m' := by
  rcases h with rfl | ⟨hcache, rfl⟩
  · exact h'
  · rcases h' with rfl | ⟨hnone, -⟩
    · exact .inr ⟨hcache, rfl⟩
    · cases hnone

/-- Reading a field at most fills the table of the fields of the dependencies. -/
theorem RuleModule.getField_snd (m : RuleModule) (name : String) :
    m.Remembers (m.getField name).2 := by
  unfold getField dependencyFields
  split
  · exact .inl rfl
  · cases hcache : m.fieldCache with
    | none => exact .inr ⟨hcache, rfl⟩
    | some known => exact .inl rfl

/-- Remembering the fields of the dependencies changes no answer. -/
theorem RuleModule.getField_remembered {m : RuleModule} (h : m.fieldCache = none)
    (name : String) :
    (RuleModule.getField { m with fieldCache := some (mergedFields m.dependencies) } name).1 =
      (m.getField name).1 := by
  simp only [getField, dependencyFields, h]
  split <;> rfl

namespace BindState

variable {s s₁ s' : BindState}

/-- That a module remembers its merged fields makes no difference to a tree. -/
theorem program_getField (s : BindState) (name : String) :
    BindState.program { s with owner := (s.owner.getField name).2 } = s.program := by
  rcases s.owner.getField_snd name with howner | ⟨hcache, howner⟩
  · rw [howner]
  · rw [howner]
    simp only [program, RuleModule.getField_remembered hcache]
    rfl

/-- Variables, receivers and the program stay, reports are added at the end.  Of the module itself
at most the fields of its dependencies are remembered. -/
structure Quiet (s s' : BindState) : Prop where
  scopes : s'.scopes = s.scopes
  receivers : s'.receivers = s.receivers
  nextSlot : s'.nextSlot = s.nextSlot
  diagnostics : s.diagnostics <+: s'.diagnostics
  program : s'.program = s.program
  owner : s.owner.Remembers s'.owner

theorem Quiet.refl (s : BindState) : s.Quiet s :=
  ⟨rfl, rfl, rfl, List.prefix_rfl, rfl, .refl _⟩

theorem Quiet.trans (h : s.Quiet s₁) (h' : s₁.Quiet s') : s.Quiet s' where
  scopes := h'.scopes.trans h.scopes
  receivers := h'.receivers.trans h.receivers
  nextSlot := h'.nextSlot.trans h.nextSlot
  diagnostics := h.diagnostics.trans h'.diagnostics
  program := h'.program.trans h.program
  owner := h.owner.trans h'.owner

theorem quiet_depth (s : BindState) (depth : Nat) : s.Quiet { s with depth } :=
  ⟨rfl, rfl, rfl, List.prefix_rfl, rfl, .refl _⟩

/-- A quiet step on one level of nesting. -/
def Still (s s' : BindState) : Prop := s.Quiet s' ∧ s'.depth = s.depth

instance : Std.Refl Still := ⟨fun s => ⟨.refl s, rfl⟩⟩

instance : IsTrans BindState Still :=
  ⟨fun _ _ _ h h' => ⟨h.1.trans h'.1, h'.2.trans h.2⟩⟩

/-- There is a scope to declare variables in, and no receiver is recorded for a scope further
inside. -/
structure WellScoped (s : BindState) : Prop where
  scopes : s.scopes ≠ []
  receivers : ∀ receiver ∈ s.receivers, receiver.1 ≤ s.scopeDepth

/-- Variables are added at the end of the innermost scope, with new slots. -/
structure Declares (s s' : BindState) : Prop where
  scopes : ∃ inner outer new, s.scopes = inner :: outer ∧ s'.scopes = (inner ++ new) :: outer ∧
    ∀ var ∈ new, s.nextSlot ≤ var.slot ∧ var.slot < s'.nextSlot
  nextSlot : s.nextSlot ≤ s'.nextSlot
  diagnostics : s.diagnostics <+: s'.diagnostics
  program : s'.program = s.program
  owner : s.owner.Remembers s'.owner

/-- What binding does to the scope it runs in: new receivers belong to that scope. -/
structure Fills (s s' : BindState) : Prop extends Declares s s' where
  receivers : ∃ new, s'.receivers = s.receivers ++ new ∧
    ∀ receiver ∈ new, receiver.1 = s'.scopeDepth

/-- What binding a tree does to its context. -/
structure Extends (s s' : BindState) : Prop extends Declares s s' where
  receivers : s'.receivers = s.receivers

/-- Declarations open no scope and close none. -/
theorem Declares.scopeDepth (h : s.Declares s') : s'.scopeDepth = s.scopeDepth := by
  obtain ⟨inner, outer, new, hs, hs', -⟩ := h.scopes
  rw [BindState.scopeDepth, BindState.scopeDepth, hs, hs']
  rfl

theorem Declares.scopes_ne_nil (h : s.Declares s') : s'.scopes ≠ [] := by
  obtain ⟨inner, outer, new, -, hs', -⟩ := h.scopes
  rw [hs']
  exact List.cons_ne_nil _ _

theorem Declares.trans (h : s.Declares s₁) (h' : s₁.Declares s') : s.Declares s' where
  scopes := by
    obtain ⟨inner, outer, new, hs, hs₁, hnew⟩ := h.scopes
    obtain ⟨inner', outer', new', hs₁', hs', hnew'⟩ := h'.scopes
    obtain ⟨rfl, rfl⟩ := List.cons.inj (hs₁.symm.trans hs₁')
    refine ⟨inner, outer, new ++ new', hs, by rw [hs', List.append_assoc], ?_⟩
    intro var hvar
    have hle := h.nextSlot
    have hle' := h'.nextSlot
    rcases List.mem_append.1 hvar with hvar | hvar
    · have := hnew var hvar
      omega
    · have := hnew' var hvar
      omega
  nextSlot := Nat.le_trans h.nextSlot h'.nextSlot
  diagnostics := h.diagnostics.trans h'.diagnostics
  program := h'.program.trans h.program
  owner := h.owner.trans h'.owner

theorem Extends.trans (h : s.Extends s₁) (h' : s₁.Extends s') : s.Extends s' :=
  ⟨h.toDeclares.trans h'.toDeclares, h'.receivers.trans h.receivers⟩

theorem Extends.fills (h : s.Extends s') : s.Fills s' :=
  ⟨h.toDeclares, [], by rw [h.receivers, List.append_nil], by simp⟩

/-- The receivers of both steps belong to the one scope. -/
theorem Fills.trans (h : s.Fills s₁) (h' : s₁.Fills s') : s.Fills s' := by
  obtain ⟨new, hnew, hnumbers⟩ := h.receivers
  obtain ⟨new', hnew', hnumbers'⟩ := h'.receivers
  refine ⟨h.toDeclares.trans h'.toDeclares, new ++ new', ?_, ?_⟩
  · rw [hnew', hnew, List.append_assoc]
  · intro receiver hmem
    rcases List.mem_append.1 hmem with hmem | hmem
    · rw [hnumbers receiver hmem, h'.scopeDepth]
    · exact hnumbers' receiver hmem

/-- A context is extended by no variables, if there is a scope to declare them in. -/
theorem Quiet.extends (h : s.Quiet s') (hs : s.scopes ≠ []) : s.Extends s' := by
  obtain ⟨inner, outer, hscopes⟩ := List.exists_cons_of_ne_nil hs
  refine ⟨⟨⟨inner, outer, [], hscopes, ?_, by simp⟩, ?_, h.diagnostics, h.program, h.owner⟩,
    h.receivers⟩
  · rw [h.scopes, hscopes, List.append_nil]
  · exact Nat.le_of_eq h.nextSlot.symm

theorem Fills.wellScoped (h : s.Fills s') (hs : s.WellScoped) : s'.WellScoped where
  scopes := h.scopes_ne_nil
  receivers := by
    obtain ⟨new, hnew, hnumbers⟩ := h.receivers
    intro receiver hmem
    rw [hnew] at hmem
    rcases List.mem_append.1 hmem with hmem | hmem
    · rw [h.scopeDepth]
      exact hs.receivers receiver hmem
    · exact Nat.le_of_eq (hnumbers receiver hmem)

theorem Extends.wellScoped (h : s.Extends s') (hs : s.WellScoped) : s'.WellScoped :=
  h.fills.wellScoped hs

/-- What an action does to the level of nesting, and to a context in which receivers are recorded
as they should be. -/
def Restored (s s' : BindState) : Prop := (s.WellScoped → s.Extends s') ∧ s'.depth = s.depth

/-- As `Restored`, for actions inside of a scope that is closed after them. -/
def Filled (s s' : BindState) : Prop := (s.WellScoped → s.Fills s') ∧ s'.depth = s.depth

instance : Std.Refl Restored := ⟨fun s => ⟨fun hs => (Quiet.refl s).extends hs.scopes, rfl⟩⟩

instance : IsTrans BindState Restored :=
  ⟨fun _ _ _ h h' => ⟨fun hs => (h.1 hs).trans (h'.1 ((h.1 hs).wellScoped hs)),
    h'.2.trans h.2⟩⟩

theorem Restored.filled (h : s.Restored s') : s.Filled s' := ⟨fun hs => (h.1 hs).fills, h.2⟩

instance : Std.Refl Filled := ⟨fun s => (refl_of Restored s).filled⟩

instance : IsTrans BindState Filled :=
  ⟨fun _ _ _ h h' => ⟨fun hs => (h.1 hs).trans (h'.1 ((h.1 hs).wellScoped hs)),
    h'.2.trans h.2⟩⟩

theorem Still.restored (h : s.Still s') : s.Restored s' :=
  ⟨fun hs => h.1.extends hs.scopes, h.2⟩

end BindState

section Reading

variable {R : BindState → BindState → Prop} [Std.Refl R] [IsTrans BindState R]

namespace BindM

theorem lookupVar_moves (name : String) : Moves R (lookupVar name) :=
  Moves.get.bind fun _ => Moves.read.bind fun _ => .pure _

theorem findType_moves (name : String) : Moves R (findType name) :=
  Moves.get.bind fun _ => .pure _

theorem fieldOf_moves (t : Ty) (name : String) : Moves R (fieldOf t name) :=
  Moves.get.bind fun _ => .pure _

theorem findMethods_moves (name : String) : Moves R (findMethods name) :=
  Moves.get.bind fun _ => .pure _

/-- The registry is a setting, and asking it is no step. -/
theorem castBetween_moves (source target : Ty) : Moves R (castBetween source target) :=
  Moves.read.bind fun _ => .ofCast _

theorem implicitCast_moves (source target : Ty) : Moves R (implicitCast source target) :=
  Moves.read.bind fun _ => .ofCast _

theorem commonType_moves (a b : Ty) : Moves R (commonType a b) :=
  Moves.read.bind fun _ => .ofCast _

theorem resolve_moves (candidates : List Method) (name : String) (arguments : List Ty) :
    Moves R (resolve candidates name arguments) :=
  Moves.read.bind fun _ => .ofCast _

end BindM

open BindM

theorem castsTo_moves (target : Ty) (operands : List BoundNode) :
    Moves R (castsTo target operands) := by
  induction operands with
  | nil => exact .pure _
  | cons operand rest ih =>
    refine (implicitCast_moves _ _).bind fun cast? => ?_
    split
    · exact ih.bind fun _ => .pure _
    · exact .pure _

theorem coerceAll_moves (operands : List BoundNode) (target : Ty) :
    Moves R (coerceAll operands target) := by
  refine (castsTo_moves _ _).bind fun casts? => ?_
  split <;> exact .pure _

/-- Operands are lifted by looking for casts. -/
theorem liftOperands_moves (methodName : String) (operands : List BoundNode) :
    Moves R (liftOperands methodName operands) := by
  unfold liftOperands
  split
  · exact coerceAll_moves _ _
  · split
    · split
      · exact coerceAll_moves _ _
      · exact .pure _
    · exact .pure _

end Reading

namespace BindM

open BindState (Still Restored)

/-- A report adds to the diagnostics alone. -/
theorem report_still (diagnostic : Diagnostic) : Moves Still (report diagnostic) :=
  fun _ _ => ⟨⟨rfl, rfl, rfl, List.prefix_append _ _, rfl, .refl _⟩, rfl⟩

theorem reportError_still (code : Code) (message : String) (span : Span) :
    Moves Still (reportError code message span) :=
  report_still _

theorem errorNode_still (code : Code) (message : String) (span : Span) :
    Moves Still (errorNode code message span) :=
  (reportError_still code message span).bind fun _ => .pure _

theorem malformed_still (node : SyntaxNode) (arity : Arity) : Moves Still (malformed node arity) :=
  errorNode_still _ _ _

/-- Array types are remembered by the module, not by the scopes. -/
theorem arrayOf_still (component : Ty) : Moves Still (arrayOf component) :=
  fun _ _ => ⟨⟨rfl, rfl, rfl, List.prefix_rfl, rfl, .refl _⟩, rfl⟩

/-- So are the merged fields. -/
theorem getField_still (name : String) : Moves Still (getField name) :=
  fun _ s => ⟨⟨rfl, rfl, rfl, List.prefix_rfl, s.program_getField name,
    s.owner.getField_snd name⟩, rfl⟩

theorem coerce_still (node : BoundNode) (target : Ty) : Moves Still (coerce node target) := by
  unfold coerce
  split
  · exact .pure _
  · refine (implicitCast_moves _ _).bind fun cast? => ?_
    split
    · exact .pure _
    · exact errorNode_still _ _ _

end BindM

open BindM BindState

theorem resolveType_still (node : SyntaxNode) : Moves Still (resolveType node) := by
  fun_induction resolveType node with
  | case1 text? children span =>
    refine (findType_moves _).bind fun t? => ?_
    split
    · exact .pure _
    · exact (reportError_still _ _ _).bind fun _ => .pure _
  | case2 text? element rest span ih =>
    refine ih.bind fun t? => ?_
    split
    · exact (arrayOf_still _).bind fun _ => .pure _
    · exact .pure _
  | case3 => exact (reportError_still _ _ _).bind fun _ => .pure _
  | case4 => exact (reportError_still _ _ _).bind fun _ => .pure _

theorem bindLiteral_still (node : SyntaxNode) (kind : LiteralKind) :
    Moves Still (bindLiteral node kind) := by
  unfold bindLiteral
  split
  · exact .pure _
  · exact errorNode_still _ _ _

theorem bindIdentifier_still (node : SyntaxNode) : Moves Still (bindIdentifier node) := by
  unfold bindIdentifier
  refine (lookupVar_moves _).bind fun var? => ?_
  split
  · exact .pure _
  · refine Moves.get.bind fun s => ?_
    split
    · exact .pure _
    · refine (getField_still _).bind fun field? => ?_
      split
      · exact .pure _
      · exact errorNode_still _ _ _

theorem accessField_still (node : SyntaxNode) (target : BoundNode) :
    Moves Still (accessField node target) := by
  unfold accessField
  split
  · exact .pure _
  · split
    · exact .pure _
    · refine (fieldOf_moves _ _).bind fun field? => ?_
      split
      · exact .pure _
      · exact errorNode_still _ _ _

theorem accessElement_still (node : SyntaxNode) (array index : BoundNode) :
    Moves Still (accessElement node array index) := by
  unfold accessElement
  split
  · exact .pure _
  · split
    · exact errorNode_still _ _ _
    · refine (coerce_still _ _).bind fun index => ?_
      split <;> exact .pure _

theorem reportDeprecation_still (method : Method) (span : Span) :
    Moves Still (reportDeprecation method span) := by
  unfold reportDeprecation
  split
  · refine Moves.read.bind fun settings => ?_
    split
    · exact report_still _
    · exact .pure _
  · exact .pure _

/-- A call may report that its method is deprecated. -/
theorem buildCall_still (selection : Selection) (target : Option BoundNode)
    (arguments : List BoundNode) (span : Span) :
    Moves Still (buildCall selection target arguments span) :=
  (reportDeprecation_still _ _).bind fun _ => .pure _

theorem callResolved_still (candidates : List Method) (name : String)
    (receiver : Option BoundNode) (arguments : List BoundNode) (span : Span) :
    Moves Still (callResolved candidates name receiver arguments span) := by
  refine (resolve_moves _ _ _).bind fun resolution => ?_
  split
  · exact buildCall_still _ _ _ _
  · exact errorNode_still _ _ _
  · exact errorNode_still _ _ _

theorem construct_still (t : Ty) (arguments : List BoundNode) (span : Span) :
    Moves Still (construct t arguments span) := by
  refine Moves.get.bind fun s => (resolve_moves _ _ _).bind fun resolution => ?_
  split
  · exact buildCall_still _ _ _ _
  · exact errorNode_still _ _ _
  · exact errorNode_still _ _ _

theorem operatorCall_still (methodName symbol : String) (operands : List BoundNode)
    (span : Span) : Moves Still (operatorCall methodName symbol operands span) := by
  refine (liftOperands_moves _ _).bind fun operands => ?_
  refine (findMethods_moves _).bind fun candidates => ?_
  refine (resolve_moves _ _ _).bind fun resolution => ?_
  split
  · exact buildCall_still _ _ _ _
  · exact errorNode_still _ _ _
  · exact errorNode_still _ _ _

theorem asCondition_still (condition : BoundNode) : Moves Still (asCondition condition) := by
  unfold asCondition
  split
  · exact .pure _
  · split
    · exact coerce_still _ _
    · exact errorNode_still _ _ _

theorem coerceBoth_still (yes no : BoundNode) (t : Ty) : Moves Still (coerceBoth yes no t) :=
  (coerce_still _ _).bind fun _ => (coerce_still _ _).bind fun _ => .pure _

/-- What is made of two branches once their common type has been looked for. -/
def widenedTo (yes no : BoundNode) : Option Ty → BindM (Option Unified)
  | some t => some <$> coerceBoth yes no t
  | none => do
    match (← read).config.wideningFailure with
    | .error => return none
    | .keepBranches =>
      report (.ofWarning .branchesKept
        ("branches of type '" ++ yes.ty.name ++ "' and '" ++ no.ty.name ++
          "' share no type; the result is typed as Object")
        (some (yes.span.merge no.span)))
      return some ⟨yes, no, .object⟩

/-- With a common superclass the registry is not asked. -/
theorem widenBoth_of_superclass {yes no : BoundNode} {t : Ty}
    (h : commonSuperclass yes.ty no.ty = some t) :
    widenBoth yes no = widenedTo yes no (some t) := by
  rw [widenBoth, h]
  rfl

theorem widenBoth_of_no_superclass {yes no : BoundNode}
    (h : commonSuperclass yes.ty no.ty = none) :
    widenBoth yes no = commonType yes.ty no.ty >>= widenedTo yes no := by
  rw [widenBoth, h]
  rfl

theorem widenedTo_still (yes no : BoundNode) (common : Option Ty) :
    Moves Still (widenedTo yes no common) := by
  cases common with
  | some t => exact (coerceBoth_still _ _ _).map
  | none =>
    refine Moves.read.bind fun settings => ?_
    split
    · exact .pure _
    · exact (report_still _).bind fun _ => .pure _

theorem widenBoth_still (yes no : BoundNode) : Moves Still (widenBoth yes no) := by
  cases h : commonSuperclass yes.ty no.ty with
  | some t =>
    rw [widenBoth_of_superclass h]
    exact widenedTo_still _ _ _
  | none =>
    rw [widenBoth_of_no_superclass h]
    exact (commonType_moves _ _).bind (widenedTo_still yes no)

theorem unify_still (yes no : BoundNode) : Moves Still (unify yes no) := by
  unfold unify
  split
  · exact .pure _
  · split
    · exact (coerceBoth_still _ _ _).bind fun _ => .pure _
    · refine (implicitCast_moves _ _).bind fun forward => ?_
      refine (implicitCast_moves _ _).bind fun backward => ?_
      split
      · split <;> exact .pure _
      · exact .pure _
      · exact .pure _
      · exact widenBoth_still _ _

theorem conditional_still (node : SyntaxNode) (condition yes : BoundNode)
    (no? : Option BoundNode) : Moves Still (conditional node condition yes no?) := by
  unfold conditional
  split
  · exact .pure _
  · split
    · exact .pure _
    · split
      · exact .pure _
      · refine (unify_still _ _).bind fun unified? => ?_
        split
        · exact .pure _
        · exact errorNode_still _ _ _

theorem castTo_still (node : SyntaxNode) (operand : BoundNode) (target : Ty) :
    Moves Still (castTo node operand target) := by
  unfold castTo
  split
  · exact .pure _
  · split
    · exact .pure _
    · refine (castBetween_moves _ _).bind fun cast? => ?_
      split
      · exact .pure _
      · exact errorNode_still _ _ _

theorem commonElementType_still (current : Ty) (elements : List BoundNode) :
    Moves Still (commonElementType current elements) := by
  induction elements generalizing current with
  | nil => exact .pure _
  | cons element rest ih =>
    refine (commonType_moves _ _).bind fun common? => ?_
    split
    · exact ih _
    · exact (errorNode_still _ _ _).bind fun _ => .pure _

theorem coerceElements_still (component : Ty) (elements : List BoundNode) :
    Moves Still (coerceElements component elements) := by
  induction elements with
  | nil => exact .pure _
  | cons element rest ih => exact (coerce_still _ _).bind fun _ => ih.bind fun _ => .pure _

theorem buildArray_still (node : SyntaxNode) (elements : List BoundNode) (common : Ty) :
    Moves Still (buildArray node elements common) :=
  (coerceElements_still _ _).bind fun _ => (arrayOf_still _).bind fun _ => .pure _

theorem declaredLoopType_still (node : SyntaxNode) (element : Ty) :
    Moves Still (declaredLoopType node element) := by
  unfold declaredLoopType
  split
  · exact resolveType_still _
  · exact .pure _

/-- The type of an aggregate may be a new array type. -/
theorem aggregateType_still (kind : AggregateKind) (source : BoundNode) (loop : LoopVariable)
    (body : BoundNode) : Moves Still (aggregateType kind source loop body) := by
  unfold aggregateType
  split
  · split
    · exact .pure _
    · exact arrayOf_still _
  · exact .pure _
  · exact arrayOf_still _

end RuleExpr
