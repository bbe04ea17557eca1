import RuleExpr.Proofs.Binding.Context
import RuleExpr.Proofs.InternalErrors
import RuleExpr.Syntax.Build

/-!
# The Nesting Limit

Binding enters a node only if fewer nodes than the limit are being bound around it, and reports the
node as too deep otherwise.  The limit does nothing else: what binds without such a report binds to
the same under every higher limit, and a tree that is no higher than the limit is never reported.

How far binding goes down is counted by a second binder, `bindWithin`, which has a budget for the
calls that are nested in each other and hands over to anything else, a `Beyond`, where a budget is
used up.  Where it agrees with `bind` whatever lies beyond, `bind` never has more calls open than
the budget allows.  There are two budgets, one for nodes that are bound, and one for these together
with the type references that are resolved.  The limit bounds the first.  It does not bound the
second: an array type of any height is followed to its innermost element, and nothing is reported.
-/

namespace RuleExpr

open BindM

namespace BindState

variable {s s₁ s' : BindState}

/-- Between the two contexts a node was reported as too deep. -/
def TooDeep (s s' : BindState) : Prop :=
  ∃ new, s'.diagnostics = s.diagnostics ++ new ∧ ∃ d ∈ new, d.code = .nestingTooDeep

theorem tooDeep_append {new : List Diagnostic} (h : s'.diagnostics = s.diagnostics ++ new) :
    s.TooDeep s' ↔ ∃ d ∈ new, d.code = .nestingTooDeep := by
  constructor
  · rintro ⟨added, hadded, hcode⟩
    have hsame : added = new := List.append_cancel_left (hadded.symm.trans h)
    rwa [← hsame]
  · exact fun hcode => ⟨new, h, hcode⟩

theorem not_tooDeep_of_eq (h : s'.diagnostics = s.diagnostics) : ¬s.TooDeep s' := by
  rw [tooDeep_append (h.trans (List.append_nil _).symm)]
  simp

/-- Reports are added at the end, and the nesting level is as before. -/
structure Resumes (s s' : BindState) : Prop where
  depth : s'.depth = s.depth
  diagnostics : s.diagnostics <+: s'.diagnostics

theorem Resumes.of_eq (hdepth : s'.depth = s.depth) (h : s'.diagnostics = s.diagnostics) :
    s.Resumes s' :=
  ⟨hdepth, h ▸ List.prefix_rfl⟩

theorem Resumes.trans (h : s.Resumes s₁) (h' : s₁.Resumes s') : s.Resumes s' :=
  ⟨h'.depth.trans h.depth, h.diagnostics.trans h'.diagnostics⟩

theorem resumes_closeScope (s : BindState) : s.Resumes s.closeScope := by
  obtain ⟨scopes, receivers, hclosed⟩ := closeScope_eq s
  rw [hclosed]
  exact .of_eq rfl rfl

/-- What a run reports as too deep is reported by one of its parts. -/
theorem tooDeep_iff_or (h : s.Resumes s₁) (h' : s₁.Resumes s') :
    s.TooDeep s' ↔ s.TooDeep s₁ ∨ s₁.TooDeep s' := by
  obtain ⟨first, hfirst⟩ := h.diagnostics
  obtain ⟨second, hsecond⟩ := h'.diagnostics
  have hboth : s'.diagnostics = s.diagnostics ++ (first ++ second) := by
    rw [← hsecond, ← hfirst, List.append_assoc]
  simp only [tooDeep_append hfirst.symm, tooDeep_append hsecond.symm, tooDeep_append hboth,
    List.mem_append, or_and_right, exists_or]

end BindState

/-- The settings with another nesting limit. -/
def Config.withLimit (config : Config) (limit : Nat) : Config :=
  { config with maxBindDepth := limit }

def BindSettings.withLimit (σ : BindSettings) (limit : Nat) : BindSettings :=
  { σ with config := σ.config.withLimit limit }

variable {σ : BindSettings} {limit level : Nat} {lenient : Prop}

/-- Entered at the nesting level `level`, the first action resumes there, and the second one does
the same under another limit.  If `lenient`, it need not where the first one reports a node as too
deep. -/
def BindM.Follows (σ : BindSettings) (limit : Nat) (lenient : Prop) (level : Nat) {α : Type}
    (act act' : BindM α) : Prop :=
  ∀ s, s.depth = level → s.Resumes (act σ s).2 ∧
    (act' (σ.withLimit limit) s = act σ s ∨ lenient ∧ s.TooDeep (act σ s).2)

/-- An action that does the same under every limit. -/
theorem BindM.Follows.of_eq {α : Type} {act : BindM α}
    (h : ∀ s : BindState, s.Resumes (act σ s).2 ∧ act (σ.withLimit limit) s = act σ s) :
    Follows σ limit lenient level act act :=
  fun s _ => (h s).imp_right .inl

/-- What holds of the parts at every level carries over from the parts at every level. -/
theorem BindM.Compositional.all {ι : Type} {Φ : ι → ∀ {α : Type}, BindM α → BindM α → Prop}
    (h : ∀ i, Compositional (Φ i)) : Compositional fun act act' => ∀ i, Φ i act act' where
  pure a i := (h i).pure a
  bind hx hf i := (h i).bind (hx i) fun a => hf a i
  step g hg i := (h i).step g hg
  read hf hread i := (h i).read hf fun σ => hread σ i
  query q hq i := (h i).query q hq
  report d hd i := (h i).report d hd
  deprecation method span i := (h i).deprecation method span
  inScope hx i := (h i).inScope (hx i)

theorem BindM.follows_compositional (σ : BindSettings) (limit : Nat) (lenient : Prop)
    (level : Nat) : Compositional (Follows σ limit lenient level) where
  pure a := .of_eq fun _ => ⟨.of_eq rfl rfl, rfl⟩
  bind {α β x x' f f'} hx hf s hs := by
    obtain ⟨hresumes, hsame⟩ := hx s hs
    match hrun : x σ s with
    | (.error e, s₁) =>
      rw [hrun] at hresumes hsame
      rw [run_bind_of_error hrun]
      refine ⟨hresumes, ?_⟩
      rcases hsame with hsame | hdeep
      · exact .inl (run_bind_of_error hsame)
      · exact .inr hdeep
    | (.ok a, s₁) =>
      rw [hrun] at hresumes hsame
      rw [run_bind_of_ok hrun]
      obtain ⟨hresumes', hsame'⟩ := hf a s₁ (hresumes.depth.trans hs)
      refine ⟨hresumes.trans hresumes', ?_⟩
      rcases hsame with hsame | ⟨hlenient, hdeep⟩
      · rw [run_bind_of_ok hsame]
        refine hsame'.imp_right fun ⟨hlenient, hdeep⟩ => ⟨hlenient, ?_⟩
        exact (BindState.tooDeep_iff_or hresumes hresumes').2 (.inr hdeep)
      · exact .inr ⟨hlenient, (BindState.tooDeep_iff_or hresumes hresumes').2 (.inl hdeep)⟩
  step g hg := .of_eq fun s => ⟨.of_eq (hg s s.diagnostics).2 (hg.diagnostics_eq s), rfl⟩
  read {β f} hf h s hs := by
    obtain ⟨hresumes, hsame⟩ := h σ s hs
    refine ⟨hresumes, ?_⟩
    have hread : f (σ.withLimit limit) = f σ := hf σ limit σ.config.reportDeprecations
    change f (σ.withLimit limit) (σ.withLimit limit) s = _ ∨ _
    rw [hread]
    exact hsame
  query q _ := by
    refine .of_eq fun s => ?_
    change s.Resumes (ofCast (q σ.registry) σ s).2 ∧
      ofCast (q σ.registry) (σ.withLimit limit) s = ofCast (q σ.registry) σ s
    cases q σ.registry <;> exact ⟨.of_eq rfl rfl, rfl⟩
  report d _ := .of_eq fun s => ⟨⟨rfl, List.prefix_append _ _⟩, rfl⟩
  deprecation method span := by
    refine .of_eq fun s => ⟨?_, ?_⟩
    · rcases reportDeprecation_cases method span σ with hnothing | ⟨d, -, hreport⟩
      · rw [hnothing s]
        exact .of_eq rfl rfl
      · rw [hreport s]
        exact ⟨rfl, List.prefix_append _ _⟩
    · unfold reportDeprecation
      cases method.head.deprecated with
      | none => rfl
      | some note =>
        change (if σ.config.reportDeprecations then _ else _ : BindM Unit) (σ.withLimit limit) s =
          (if σ.config.reportDeprecations then _ else _ : BindM Unit) σ s
        split <;> rfl
  inScope {α x x'} hx s hs := by
    obtain ⟨hresumes, hsame⟩ := hx s.pushScope hs
    have hinside : s.Resumes (x σ s.pushScope).2 := ⟨hresumes.depth, hresumes.diagnostics⟩
    have hclosed := BindState.resumes_closeScope (x σ s.pushScope).2
    refine ⟨hinside.trans hclosed, ?_⟩
    rcases hsame with hsame | ⟨hlenient, hdeep⟩
    · refine .inl ?_
      simp only [BindM.inScope, hsame]
    · refine .inr ⟨hlenient, (BindState.tooDeep_iff_or hinside hclosed).2 (.inl ?_)⟩
      exact hdeep

/-- What is bound below a node follows one level deeper.  The limit of the second run is no lower,
and the same one unless the comparison is lenient. -/
theorem BindM.Follows.nested {act act' : BindM BoundNode} (span : Span)
    (hlimit : σ.config.maxBindDepth ≤ limit) (hlenient : lenient ∨ limit = σ.config.maxBindDepth)
    (hact : level < σ.config.maxBindDepth → Follows σ limit lenient (level + 1) act act') :
    Follows σ limit lenient level (nested span act) (nested span act') := by
  intro s hs
  by_cases hdepth : s.depth < σ.config.maxBindDepth
  · obtain ⟨hresumes, hsame⟩ := hact (hs ▸ hdepth) { s with depth := s.depth + 1 } (by rw [← hs])
    match hrun : act σ { s with depth := s.depth + 1 } with
    | (result, s₁) =>
      rw [hrun] at hresumes hsame
      rw [nested_of_lt hdepth hrun]
      have hleft : s₁.depth - 1 = s.depth := by rw [hresumes.depth]; rfl
      refine ⟨⟨hleft, hresumes.diagnostics⟩, hsame.imp_left fun hsame => ?_⟩
      exact nested_of_lt (Nat.lt_of_lt_of_le hdepth hlimit) hsame
  · rw [nested_of_not_lt hdepth]
    refine ⟨⟨rfl, List.prefix_append _ _⟩, ?_⟩
    rcases hlenient with hlenient | rfl
    · exact .inr ⟨hlenient, _, rfl, _, List.mem_singleton_self _, rfl⟩
    · exact .inl (nested_of_not_lt hdepth)

/-- Binding does the same under a higher limit, unless it reports a node as too deep. -/
theorem bind_follows (hlimit : σ.config.maxBindDepth ≤ limit) (node : SyntaxNode) (level : Nat) :
    Follows σ limit True level (bind node) (bind node) := by
  have hparts : Compositional fun act act' => ∀ level, Follows σ limit True level act act' :=
    .all fun level => follows_compositional σ limit True level
  refine hparts.bindTree (fun span act act' hact level => ?_) node level
  exact .nested span hlimit (.inl trivial) fun _ => hact (level + 1)

/-- Entered at the nesting level `level`, the action resumes there and reports nothing as too
deep. -/
def BindM.Shallow (σ : BindSettings) (level : Nat) {α : Type} (act : BindM α) : Prop :=
  ∀ s : BindState, s.depth = level → s.Resumes (act σ s).2 ∧ ¬s.TooDeep (act σ s).2

theorem BindM.Shallow.of_eq {α : Type} {act : BindM α}
    (h : ∀ s, (act σ s).2.depth = s.depth ∧ (act σ s).2.diagnostics = s.diagnostics) :
    Shallow σ level act :=
  fun s _ => ⟨.of_eq (h s).1 (h s).2, BindState.not_tooDeep_of_eq (h s).2⟩

theorem BindM.shallow_report {d : Diagnostic} (hd : d.code ≠ .nestingTooDeep) :
    Shallow σ level (report d) := by
  intro s _
  refine ⟨⟨rfl, List.prefix_append _ _⟩, ?_⟩
  rw [BindState.tooDeep_append (show (report d σ s).2.diagnostics = s.diagnostics ++ [d] from rfl)]
  simpa using hd

theorem BindM.shallow_compositional (σ : BindSettings) (level : Nat) :
    Compositional fun act _ => Shallow σ level act where
  pure a := .of_eq fun _ => ⟨rfl, rfl⟩
  bind {α β x _ f _} hx hf s hs := by
    obtain ⟨hresumes, hdeep⟩ := hx s hs
    match hrun : x σ s with
    | (.error e, s₁) =>
      rw [hrun] at hresumes hdeep
      rw [run_bind_of_error hrun]
      exact ⟨hresumes, hdeep⟩
    | (.ok a, s₁) =>
      rw [hrun] at hresumes hdeep
      rw [run_bind_of_ok hrun]
      obtain ⟨hresumes', hdeep'⟩ := hf a s₁ (hresumes.depth.trans hs)
      refine ⟨hresumes.trans hresumes', ?_⟩
      rw [BindState.tooDeep_iff_or hresumes hresumes']
      exact not_or.2 ⟨hdeep, hdeep'⟩
  step g hg := .of_eq fun s => ⟨(hg s s.diagnostics).2, hg.diagnostics_eq s⟩
  read _ h s hs := h σ s hs
  query q _ := by
    refine .of_eq fun s => ?_
    change (ofCast (q σ.registry) σ s).2.depth = s.depth ∧
      (ofCast (q σ.registry) σ s).2.diagnostics = s.diagnostics
    cases q σ.registry <;> exact ⟨rfl, rfl⟩
  report d hd := shallow_report hd
  deprecation method span s hs := by
    rcases reportDeprecation_cases method span σ with hnothing | ⟨d, hcode, hreport⟩
    · rw [hnothing s]
      exact ⟨.of_eq rfl rfl, BindState.not_tooDeep_of_eq rfl⟩
    · rw [hreport s]
      exact shallow_report (hcode ▸ nofun) s hs
  inScope {α x _} hx s hs := by
    obtain ⟨hresumes, hdeep⟩ := hx s.pushScope hs
    have hinside : s.Resumes (x σ s.pushScope).2 := ⟨hresumes.depth, hresumes.diagnostics⟩
    have hclosed := BindState.resumes_closeScope (x σ s.pushScope).2
    refine ⟨hinside.trans hclosed, ?_⟩
    apply mt (BindState.tooDeep_iff_or hinside hclosed).1
    exact not_or.2 ⟨hdeep, BindState.not_tooDeep_of_eq (closeScope_diagnostics _)⟩

/-- A node that is entered below the limit is shallow if what is bound below it is. -/
theorem BindM.Shallow.nested {act : BindM BoundNode} (span : Span)
    (hlevel : level < σ.config.maxBindDepth) (hact : Shallow σ (level + 1) act) :
    Shallow σ level (nested span act) := by
  intro s hs
  obtain ⟨hresumes, hdeep⟩ := hact { s with depth := s.depth + 1 } (by rw [← hs])
  match hrun : act σ { s with depth := s.depth + 1 } with
  | (result, s₁) =>
    rw [hrun] at hresumes hdeep
    rw [nested_of_lt (hs ▸ hlevel) hrun]
    have hleft : s₁.depth - 1 = s.depth := by rw [hresumes.depth]; rfl
    exact ⟨⟨hleft, hresumes.diagnostics⟩, hdeep⟩

mutual

/-- Number of levels of a tree; a leaf has one. -/
def SyntaxNode.height : SyntaxNode → Nat
  | ⟨_, _, children, _⟩ => heights children + 1

def SyntaxNode.heights : List SyntaxNode → Nat
  | [] => 0
  | node :: rest => max node.height (heights rest)

end

/-- Type references that are resolved one inside the other to resolve a node. -/
def SyntaxNode.typeHeight : SyntaxNode → Nat
  | ⟨.arrayType, _, element :: _, _⟩ => element.typeHeight + 1
  | _ => 1

mutual

/-- Largest `typeHeight` in a tree. -/
def SyntaxNode.highestType : SyntaxNode → Nat
  | ⟨kind, text?, children, span⟩ =>
    max (typeHeight ⟨kind, text?, children, span⟩) (highestTypes children)

def SyntaxNode.highestTypes : List SyntaxNode → Nat
  | [] => 0
  | node :: rest => max node.highestType (highestTypes rest)

end

namespace SyntaxNode

variable {node : SyntaxNode} {nodes : List SyntaxNode}

/-- A measure of lists of nodes that takes the largest of the nodes. -/
theorem le_of_largest {f : SyntaxNode → Nat} {g : List SyntaxNode → Nat}
    (hg : ∀ first rest, g (first :: rest) = max (f first) (g rest)) (h : node ∈ nodes) :
    f node ≤ g nodes := by
  induction nodes with
  | nil => exact absurd h List.not_mem_nil
  | cons first rest ih =>
    rw [hg]
    rcases List.mem_cons.1 h with rfl | h
    · exact Nat.le_max_left _ _
    · exact Nat.le_trans (ih h) (Nat.le_max_right _ _)

theorem highestType_child {child : SyntaxNode} (h : child ∈ node.children) :
    child.highestType ≤ node.highestType := by
  obtain ⟨kind, text?, children, span⟩ := node
  rw [highestType]
  exact Nat.le_trans (le_of_largest (fun _ _ => highestTypes.eq_2 _ _) h) (Nat.le_max_right _ _)

theorem typeHeight_pos (node : SyntaxNode) : 0 < node.typeHeight := by
  unfold typeHeight
  split <;> exact Nat.succ_pos _

theorem typeHeight_le_highestType (node : SyntaxNode) : node.typeHeight ≤ node.highestType := by
  obtain ⟨kind, text?, children, span⟩ := node
  rw [highestType]
  exact Nat.le_max_left _ _

end SyntaxNode

mutual

/-- A tree that fits between the level where it is bound and the limit has no node too deep. -/
theorem shallow_bind : ∀ (node : SyntaxNode) (level : Nat),
    level + node.height ≤ σ.config.maxBindDepth → Shallow σ level (bind node)
  | ⟨_, _, children, span⟩, level, hheight => by
    rw [SyntaxNode.height] at hheight
    have hchildren := shallow_childrenOf children (level + 1) (by omega)
    rw [bind]
    exact .nested span (by omega) ((shallow_compositional σ (level + 1)).bindKind hchildren _)

theorem shallow_childrenOf : ∀ (nodes : List SyntaxNode) (level : Nat),
    level + SyntaxNode.heights nodes ≤ σ.config.maxBindDepth →
      ChildrenRelated (fun act _ => Shallow σ level act) (childrenOf nodes) (childrenOf nodes)
  | [], _, _ => .nil
  | node :: rest, level, hheight => by
    rw [SyntaxNode.heights] at hheight
    rw [childrenOf]
    exact .cons ⟨rfl, shallow_bind node level (by omega)⟩
      (shallow_childrenOf rest level (by omega))

end

/-! ## Binding within a budget -/

namespace SyntaxNode

variable {node : SyntaxNode} {nodes : List SyntaxNode}

/-- The type reference with what lies `budget` levels below its top replaced. -/
def cutType (beyond : SyntaxNode) : Nat → SyntaxNode → SyntaxNode
  | 0, _ => beyond
  | budget + 1, ⟨.arrayType, text?, element :: rest, span⟩ =>
    ⟨.arrayType, text?, cutType beyond budget element :: rest, span⟩
  | _ + 1, node => node

/-- A child of a node of the given kind with its types cut.  Of a child of an aggregate only the
type of a loop variable is a type reference. -/
def cutChild (beyond : SyntaxNode) (budget : Nat) : NodeKind → SyntaxNode → SyntaxNode
  | .aggregate _, ⟨.loopVar, text?, type :: rest, span⟩ =>
    ⟨.loopVar, text?, cutType beyond budget type :: rest, span⟩
  | .aggregate _, child => child
  | _, child => cutType beyond budget child

theorem cutType_eq {beyond : SyntaxNode} {budget : Nat} (h : node.typeHeight ≤ budget) :
    cutType beyond budget node = node := by
  fun_induction cutType beyond budget node with
  | case1 node => exact absurd (typeHeight_pos node) (Nat.not_lt.2 h)
  | case2 budget text? element rest span ih => rw [ih (Nat.le_of_succ_le_succ h)]
  | case3 => rfl

theorem cutChild_eq {beyond : SyntaxNode} {budget : Nat} (kind : NodeKind)
    (h : node.highestType ≤ budget) : cutChild beyond budget kind node = node := by
  fun_cases cutChild beyond budget kind node with
  | case1 _ text? type rest span =>
    have htype : type.highestType ≤ highestType ⟨.loopVar, text?, type :: rest, span⟩ :=
      highestType_child List.mem_cons_self
    rw [cutType_eq (Nat.le_trans (typeHeight_le_highestType type) (Nat.le_trans htype h))]
  | case2 => rfl
  | case3 => exact cutType_eq (Nat.le_trans (typeHeight_le_highestType _) h)

end SyntaxNode

/-- What takes the place of calls that are out of the budget. -/
structure Beyond where
  bind : SyntaxNode → BindM BoundNode
  type : SyntaxNode

/-- An error node in place of a bound one, without a report, and no type in place of a type. -/
def Beyond.silent : Beyond := ⟨fun node => pure node.poisoned, .null⟩

/-- Binds a node with at most `values` nodes being bound at a time, and at most `total` nodes being
bound or resolved as types. -/
def bindWithin (beyond : Beyond) : (values total : Nat) → SyntaxNode → BindM BoundNode
  | values + 1, total + 1, ⟨kind, text?, children, span⟩ =>
    nested span (bindKind ⟨kind, text?, children, span⟩ (children.map fun child =>
      ⟨.cutChild beyond.type total kind child, bindWithin beyond values total child⟩))
  | _, _, node => beyond.bind node

theorem childrenRelated_map {Φ : ∀ {α : Type}, BindM α → BindM α → Prop} {f : SyntaxNode → Child}
    {nodes : List SyntaxNode}
    (h : ∀ node ∈ nodes, node = (f node).node ∧ Φ (bind node) (f node).bind) :
    ChildrenRelated Φ (childrenOf nodes) (nodes.map f) := by
  induction nodes with
  | nil => exact .nil
  | cons node rest ih =>
    rw [childrenOf]
    exact .cons (h node List.mem_cons_self) (ih fun other hother =>
      h other (List.mem_cons_of_mem _ hother))

/-- With a budget of one node more than there is room for below the limit, and of all types on top
of it, binding is as without.  If too deep nodes may be bound otherwise, the one more is not
needed. -/
theorem bind_follows_within (beyond : Beyond) {values total : Nat} (node : SyntaxNode)
    (hvalues : σ.config.maxBindDepth - level ≤ values)
    (hlenient : lenient ∨ σ.config.maxBindDepth - level < values)
    (htotal : σ.config.maxBindDepth - level + node.highestType ≤ total) :
    Follows σ σ.config.maxBindDepth lenient level (bind node)
      (bindWithin beyond values total node) := by
  induction values generalizing level total node with
  | zero =>
    -- There is no room, and the node is reported.
    have hlenient : lenient := hlenient.resolve_right (Nat.not_lt_zero _)
    obtain ⟨kind, text?, children, span⟩ := node
    intro s hs
    rw [bind, nested_of_not_lt (by omega)]
    exact ⟨⟨rfl, List.prefix_append _ _⟩,
      .inr ⟨hlenient, _, rfl, _, List.mem_singleton_self _, rfl⟩⟩
  | succ values ih =>
    have htype := Nat.lt_of_lt_of_le node.typeHeight_pos node.typeHeight_le_highestType
    obtain ⟨total, rfl⟩ : ∃ t, total = t + 1 := ⟨total - 1, by omega⟩
    obtain ⟨kind, text?, children, span⟩ := node
    rw [bind, bindWithin]
    refine .nested span (Nat.le_refl _) (.inr rfl) fun hlevel => ?_
    apply (follows_compositional _ _ _ _).bindKind
    apply childrenRelated_map
    intro child hchild
    have hhighest : child.highestType ≤ SyntaxNode.highestType ⟨kind, text?, children, span⟩ :=
      SyntaxNode.highestType_child hchild
    exact ⟨(SyntaxNode.cutChild_eq kind (by omega)).symm,
      ih child (by omega) (hlenient.imp_right fun h => by omega) (by omega)⟩

/-- Nothing is too deep for a budget within the limit, if nothing is reported beyond it. -/
theorem shallow_bindWithin {values : Nat} (hvalues : values ≤ σ.config.maxBindDepth - level)
    (total : Nat) (node : SyntaxNode) :
    Shallow σ level (bindWithin .silent values total node) := by
  induction values generalizing level total node with
  | zero => exact (shallow_compositional σ level).pure _
  | succ values ih =>
    cases total with
    | zero => exact (shallow_compositional σ level).pure _
    | succ total =>
      obtain ⟨kind, text?, children, span⟩ := node
      rw [bindWithin]
      refine .nested span (by omega) ?_
      have hchildren (child : SyntaxNode) :
          Shallow σ (level + 1) (bindWithin .silent values total child) := ih (by omega) total child
      refine (shallow_compositional σ (level + 1)).bindKind (List.forall₂_same.2 ?_) _
      simp only [List.forall_mem_map]
      exact fun child _ => ⟨trivial, hchildren child⟩

/-- What is open at a time while a tree is bound: no more nodes than there is room for below the
limit and one more, which is then the one that is reported; and on top of those that are not, type
references as far as the highest type of the tree goes. -/
theorem open_calls_bounded (node : SyntaxNode) (σ : BindSettings) (s : BindState) :
    let room := σ.config.maxBindDepth - s.depth
    (∀ beyond, bindWithin beyond (room + 1) (room + node.highestType) node σ s = bind node σ s) ∧
      ((∀ beyond, bindWithin beyond room (room + node.highestType) node σ s = bind node σ s) ↔
        ¬s.TooDeep (bind node σ s).2) := by
  intro room
  constructor
  · intro beyond
    have hfollows : Follows σ _ False s.depth _ _ :=
      bind_follows_within beyond node (Nat.le_succ room) (.inr (Nat.lt_succ_self room))
        (Nat.le_refl _)
    exact (hfollows s rfl).2.resolve_right fun h => h.1
  constructor
  · intro hall
    rw [← hall .silent]
    exact (shallow_bindWithin (Nat.le_refl room) _ node s rfl).2
  · intro hshallow beyond
    have hfollows : Follows σ _ True s.depth _ _ :=
      bind_follows_within beyond node (Nat.le_refl room) (.inl trivial) (Nat.le_refl _)
    exact (hfollows s rfl).2.resolve_right fun h => hshallow h.2

/-- A type reference far higher than the limit is resolved to its end, and nothing is reported; a
binder with no more than one call over the limit open at a time answers otherwise. -/
theorem array_type_passes_limit :
    let settings := BindSettings.standard (Config.standard.withLimit 16)
    let s := BindState.start (.empty "Rules" "rules" 0) .empty
    let type := Nat.repeat SyntaxNode.arrayType 40 (.typeName "int")
    let node := SyntaxNode.newArray type (.literal .integer "1")
    settings.config.maxBindDepth = 16 ∧ s.depth = 0 ∧
      (bind node settings s).2.diagnostics = [] ∧
      ∃ beyond, bindWithin beyond 17 17 node settings s ≠ bind node settings s := by
  intro settings s type node
  have hcheck : (bind node settings s).2.diagnostics.length = 0 ∧
      (bindWithin .silent 17 17 node settings s).2.diagnostics.length = 1 := by decide +kernel
  refine ⟨rfl, rfl, List.eq_nil_of_length_eq_zero hcheck.1, .silent, fun hsame => ?_⟩
  have hdifferent := hcheck.2
  rw [hsame, hcheck.1] at hdifferent
  cases hdifferent

/-- Raising the nesting limit changes nothing where it was not reported: the expression is bound to
the same tree, with the same frame and the same reports, unless a sum of distances does not fit.
Under a limit that a tree is no higher than, no node of it is reported as too deep, whatever was
bound before in the context. -/
theorem higher_limit_conservative {d d' : Nat} (hd : d ≤ d') (config : Config)
    (node : SyntaxNode) :
    (∀ owner w, (bindExpression node owner w (config.withLimit d)).1 = .error (.cast .overflow) ∨
      ∃ e, (bindExpression node owner w (config.withLimit d)).1 = .ok e ∧
        ((∀ report ∈ e.diagnostics, report.code ≠ .nestingTooDeep) →
          bindExpression node owner w (config.withLimit d') =
            bindExpression node owner w (config.withLimit d))) ∧
      (∀ r s, ¬s.TooDeep (bind node ⟨r, config.withLimit d⟩ s).2 →
        bind node ⟨r, config.withLimit d'⟩ s = bind node ⟨r, config.withLimit d⟩ s) ∧
      (node.height ≤ d → ∀ r earlier s, s.depth = 0 →
        let s' := (bindAll (childrenOf earlier) ⟨r, config.withLimit d⟩ s).2
        ¬s'.TooDeep (bind node ⟨r, config.withLimit d⟩ s').2) := by
  refine ⟨fun owner w => ?_, fun r s hshallow => ?_, fun hheight r earlier s hs => ?_⟩
  · have hlimit : max d Config.leastBindDepth ≤ max d' Config.leastBindDepth := by omega
    have hfollows : Follows (.standard (config.withLimit d)) _ True 0 _ _ :=
      bind_follows hlimit node 0
    have htrusts : (BindSettings.standard (config.withLimit d)).registry.Trusts :=
      Library.registry_answers.trusts
    rcases (bind_onlyOverflows htrusts node).ok_or_overflow (.start owner w) with
      ⟨root, s', hrun⟩ | ⟨s', hrun⟩
    · refine .inr ⟨⟨root, s'.nextSlot, s'.diagnostics⟩, ?_, fun hreports => ?_⟩
      · simp only [bindExpression, hrun]
        rfl
      · obtain ⟨-, hsame⟩ := hfollows (.start owner w) rfl
        rw [hrun] at hsame
        -- A fresh context has no reports, so those of the expression are all new.
        have hshallow : ¬(BindState.start owner w).TooDeep s' := by
          rintro ⟨new, hnew, report, hreport, hcode⟩
          exact hreports report (hnew ▸ hreport) hcode
        have hagain : bind node (.standard (config.withLimit d')) (.start owner w) =
            (.ok root, s') := hsame.resolve_right fun h => hshallow h.2
        simp only [bindExpression, hrun, hagain]
    · refine .inl ?_
      simp only [bindExpression, hrun]
      rfl
  · have hfollows : Follows ⟨r, config.withLimit d⟩ d' True s.depth _ _ :=
      bind_follows hd node s.depth
    exact (hfollows s rfl).2.resolve_right fun h => hshallow h.2
  · have hdepth := (bindAll_restored (childrenOf_restore earlier) ⟨r, config.withLimit d⟩ s).2
    exact (shallow_bind node 0 (by rwa [Nat.zero_add]) _ (hdepth.trans hs)).2

/-- Blocks as deep as the limit of sixteen, bound after ones that are too deep for it. -/
theorem higher_limit_conservative_blocks :
    let blocks (depth : Nat) := Nat.repeat (fun node => SyntaxNode.block [node]) depth .null
    let owner := RuleModule.empty "Rules" "rules" 0
    let config := Config.standard
    let settings : BindSettings := ⟨Library.registry, config.withLimit 16⟩
    let s := (bindAll (childrenOf [blocks 16]) settings (.start owner .empty)).2
    (blocks 15).height = 16 ∧ s.diagnostics.map (·.code) = [.nestingTooDeep] ∧
      ¬s.TooDeep (bind (blocks 15) settings s).2 ∧
      bindExpression (blocks 15) owner .empty (config.withLimit 512) =
        bindExpression (blocks 15) owner .empty (config.withLimit 16) := by
  intro blocks owner config settings s
  obtain ⟨hexpression, -, hheight⟩ :=
    higher_limit_conservative (show 16 ≤ 512 by decide) config (blocks 15)
  have hclean : (bindExpression (blocks 15) owner .empty (config.withLimit 16)).1.toOption.any
      (fun e => e.diagnostics.length = 0) = true := by decide +kernel
  obtain hfails | ⟨e, he, hsame⟩ := hexpression owner .empty
  · rw [hfails] at hclean
    cases hclean
  rw [he] at hclean
  have hnone : e.diagnostics = [] := List.eq_nil_of_length_eq_zero (of_decide_eq_true hclean)
  refine ⟨by decide +kernel, by decide +kernel,
    hheight (by decide +kernel) Library.registry [blocks 16] (.start owner .empty) rfl, hsame ?_⟩
  rw [hnone]
  exact fun report hreport => absurd hreport List.not_mem_nil

end RuleExpr
