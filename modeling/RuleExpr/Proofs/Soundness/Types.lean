import RuleExpr.Proofs.Binding.Answers
import RuleExpr.Proofs.Binding.Scoping
import RuleExpr.Proofs.Soundness.Targets

/-!
# Types of a Bound Tree

Binding stays within the types of its module: where these are closed, every node of a bound tree
has a type among them, and so have the variables that are declared on the way and the components of
the arrays that are interned.  No other types are looked up in the registry, so that binding fails
only where the registry does for two of them.  `BindM.Stays` says of an action that it keeps to such
types and what its answer is made of; there is one statement for each action of the binder.
-/

namespace RuleExpr

open BindM BindState

/-- The types that a node mentions beside its own. -/
def BoundShape.mentioned : BoundShape → List Ty
  | .methodCall m _ _ => m.params
  | .constructor m _ => m.params
  | .newArray element _ => [element]
  | .aggregate _ _ _ cast? _ => cast?.toList.map (·.target)
  | _ => []

/-- All types that the nodes of a tree have or mention are in `O`. -/
def BoundNode.TypesIn (O : Ty → Prop) (n : BoundNode) : Prop :=
  n.AllNodes fun shape t => ∀ u ∈ t :: shape.mentioned, O u

/-- Methods that a module sees: its own, those that it imports, and those of the types in `O`. -/
inductive Program.Declares (P : Program) (O : Ty → Prop) : Method → Prop
  | free {name : String} {m : Method} (h : m ∈ P.methodsNamed name) : P.Declares O m
  | member {t : Ty} {name : String} {m : Method} (ht : O t)
      (h : m ∈ P.declarations.methodsNamed t name) : P.Declares O m
  | constructor {t : Ty} {m : Method} (ht : O t) (h : m ∈ P.declarations.constructors t) :
      P.Declares O m

/-- The types that a method takes and answers with are in `O`. -/
def Method.SignatureIn (O : Ty → Prop) (m : Method) : Prop := ∀ u ∈ m.returns :: m.params, O u

/-- A closed set has all types that a module can name, and those of its fields and methods. -/
structure Program.TypesIn (P : Program) (O : Ty → Prop) : Prop extends Ty.Closed O where
  named : ∀ {name : String} {t : Ty}, P.findType name = some t → O t
  moduleField : ∀ {name : String} {field : Field}, P.field? name = some field → O field.ty
  memberField : ∀ {t : Ty} {name : String} {field : Field}, O t →
    P.declarations.field? t name = some field → O field.ty
  signature : ∀ {m : Method}, P.Declares O m → m.SignatureIn O

/-- The types that the registry finds for those of the program are among them as well. -/
structure BindSettings.TypesIn (σ : BindSettings) (P : Program) (O : Ty → Prop) : Prop
    extends P.TypesIn O where
  registry : σ.registry.Keeps O

theorem Program.TypesIn.standard {P : Program} {O : Ty → Prop} (h : P.TypesIn O) (config : Config) :
    (BindSettings.standard config).TypesIn P O :=
  ⟨h, Library.registry_keeps h.toClosed⟩

/-- Components of the array types in the type space of the module. -/
def BindState.interned (s : BindState) : List Ty := (s.workspace.space s.owner.space).components

/-- A context over the program in which visible variables and interned arrays have types in `O`. -/
structure BindState.Knows (P : Program) (O : Ty → Prop) (s : BindState) : Prop where
  program : s.program = P
  interned : ∀ t ∈ s.interned, O t
  vars : ∀ var, s.Sees var → O var.ty

/-! ## Actions that stay within types -/

variable {P : Program} {O : Ty → Prop} {σ : BindSettings} {α β : Type} {Q Q' : α → Prop}
  {R : β → Prop}

/-- A run that succeeds keeps to the types in `O`, and its answer is in `Q`.  A run that fails does
so for a failure of the registry with such types. -/
def BindM.Stays (P : Program) (O : Ty → Prop) (σ : BindSettings) (act : BindM α) (Q : α → Prop) :
    Prop :=
  ∀ s, s.Knows P O →
    match act σ s with
    | (.ok a, s') => s'.Knows P O ∧ Q a
    | (.error e, _) => ∃ failure, e = .cast failure ∧ σ.registry.FailsIn O failure

namespace BindM.Stays

theorem run {act : BindM α} (h : Stays P O σ act Q) {s s' : BindState} {a : α} (hs : s.Knows P O)
    (hrun : act σ s = (.ok a, s')) : s'.Knows P O ∧ Q a := by
  have hstays := h s hs
  rwa [hrun] at hstays

/-- A run fails by a question to the registry about types in `O`. -/
theorem fails {act : BindM α} (h : Stays P O σ act Q) {s s' : BindState} {e : BindError}
    (hs : s.Knows P O) (hrun : act σ s = (.error e, s')) :
    ∃ failure, e = .cast failure ∧ σ.registry.FailsIn O failure := by
  have hstays := h s hs
  rwa [hrun] at hstays

/-- An action that always succeeds. -/
theorem of_ok {act : BindM α} (hok : ∀ s, s.Knows P O →
    ∃ a s', act σ s = (.ok a, s') ∧ s'.Knows P O ∧ Q a) : Stays P O σ act Q := by
  intro s hs
  obtain ⟨a, s', hrun, hstays⟩ := hok s hs
  rw [hrun]
  exact hstays

theorem pure {a : α} (h : Q a) : Stays P O σ (Pure.pure a) Q := fun _ hs => ⟨hs, h⟩

theorem bind {x : BindM α} {f : α → BindM β} (hx : Stays P O σ x Q)
    (hf : ∀ a, Q a → Stays P O σ (f a) R) : Stays P O σ (x >>= f) R := by
  intro s hs
  match hfirst : x σ s with
  | (.ok a, s₁) =>
    obtain ⟨hs₁, ha⟩ := hx.run hs hfirst
    rw [run_bind_of_ok hfirst]
    exact hf a ha s₁ hs₁
  | (.error e, s₁) =>
    rw [run_bind_of_error hfirst]
    exact hx.fails hs hfirst

theorem map {x : BindM α} {f : α → β} (hx : Stays P O σ x Q) (hf : ∀ a, Q a → R (f a)) :
    Stays P O σ (f <$> x) R := by
  rw [map_eq_pure_bind]
  exact hx.bind fun a ha => .pure (hf a ha)

theorem get : Stays P O σ MonadState.get (Knows P O) := fun _ hs => ⟨hs, hs⟩

theorem read : Stays P O σ MonadReader.read (· = σ) := fun _ hs => ⟨hs, rfl⟩

/-- A question to the registry that fails only where a lookup of types in `O` does. -/
theorem query {q : Registry → Except CastError α} (hok : ∀ a, q σ.registry = .ok a → Q a)
    (hfails : ∀ e, q σ.registry = .error e → σ.registry.FailsIn O e) :
    Stays P O σ (do BindM.ofCast (q (← MonadReader.read).registry)) Q := by
  intro s hs
  rw [run_bind_of_ok (read_eq_ok.2 ⟨rfl, rfl⟩)]
  match hq : q σ.registry with
  | .ok a => exact ⟨hs, hok a hq⟩
  | .error e => exact ⟨e, rfl, hfails e hq⟩

end BindM.Stays

section Trees

variable {n : BoundNode} {t : Ty}

theorem BoundNode.TypesIn.ty (h : n.TypesIn O) : O n.ty := h.head n.ty List.mem_cons_self

theorem BoundNode.TypesIn.wrap {c : Cast} (h : n.TypesIn O) (hc : O c.target) :
    (n.wrap c).TypesIn O := by
  unfold BoundNode.wrap
  split
  · exact h
  · exact .intro (List.forall_mem_singleton.2 hc) (List.forall_mem_singleton.2 h)

/-- A node that mentions no types beside its own. -/
theorem typesIn_plain {shape : BoundShape} {span : Span} (ht : O t) (hshape : shape.mentioned = [])
    (hchildren : ∀ c ∈ (⟨shape, t, span⟩ : BoundNode).children, c.TypesIn O) :
    BoundNode.TypesIn O ⟨shape, t, span⟩ := by
  refine .intro ?_ hchildren
  rw [hshape]
  exact List.forall_mem_singleton.2 ht

theorem typesIn_leaf {shape : BoundShape} {span : Span} (ht : O t) (hshape : shape.mentioned = [])
    (hleaf : (⟨shape, t, span⟩ : BoundNode).children = []) :
    BoundNode.TypesIn O ⟨shape, t, span⟩ := by
  refine typesIn_plain ht hshape ?_
  rw [hleaf]
  exact List.forall_mem_nil _

/-- The type of an error node is built in. -/
theorem typesIn_failure (h : Ty.Closed O) (message : String) (span : Span) :
    (BoundNode.failure message span).TypesIn O :=
  typesIn_leaf (h.builtin rfl) rfl rfl

end Trees

theorem report_stays (diagnostic : Diagnostic) :
    Stays P O σ (report diagnostic) fun _ => True :=
  fun _ hs => ⟨⟨hs.program, hs.interned, hs.vars⟩, trivial⟩

/-- An array type that is found or entered has its component in `O`. -/
theorem TypeSpace.arrayOf_typesIn (h : Ty.Closed O) {space : TypeSpace} {component : Ty}
    (hspace : ∀ t ∈ space.components, O t) (hcomponent : O component) :
    O (space.arrayOf component).1 ∧ ∀ t ∈ (space.arrayOf component).2.components, O t := by
  unfold arrayOf
  split
  case h_1 known hfind =>
    exact ⟨h.array (hspace known (List.mem_of_find?_eq_some hfind)), hspace⟩
  case h_2 =>
    refine ⟨h.array hcomponent, List.forall_mem_append.2 ⟨hspace, ?_⟩⟩
    exact List.forall_mem_singleton.2 hcomponent

/-- A space that is put back holds what it was given. -/
theorem Workspace.mem_space_setSpace {w : Workspace} {number : Nat} {space : TypeSpace} {t : Ty}
    (h : t ∈ ((w.setSpace number space).space number).components) : t ∈ space.components := by
  unfold Workspace.space setSpace at h
  rw [List.getElem?_set_self'] at h
  cases hold : w.spaces[number]? with
  | none =>
    rw [hold] at h
    cases h
  | some old =>
    rw [hold] at h
    exact h

/-- Operators take and give built-in types. -/
theorem Library.operators_signatureIn (h : Ty.Closed O) {m : Method} (hm : m ∈ operators) :
    m.SignatureIn O := by
  have hall : (operators.all fun m =>
      (m.returns :: m.params).all fun u => u.id? = some (.builtin u.key)) = true := by
    decide +kernel
  intro u hu
  have hbuiltin := List.all_eq_true.1 (List.all_eq_true.1 hall m hm) u hu
  exact h.builtin (of_decide_eq_true hbuiltin)

section Actions

variable (hP : σ.TypesIn P O)

include hP

theorem errorNode_stays (code : Code) (message : String) (span : Span) :
    Stays P O σ (errorNode code message span) (·.TypesIn O) :=
  (report_stays _).bind fun _ _ => .pure (typesIn_failure hP.toClosed message span)

omit hP in
theorem lookupVar_stays (name : String) :
    Stays P O σ (lookupVar name) fun var? => ∀ var ∈ var?, O var.ty := by
  refine Stays.get.bind fun s hs => Stays.read.bind fun settings _ => .pure ?_
  exact fun var hvar => hs.vars var (sees_of_findVar hvar)

theorem findType_stays (name : String) :
    Stays P O σ (findType name) fun t? => ∀ t ∈ t?, O t := by
  refine Stays.get.bind fun s hs => .pure fun t ht => ?_
  obtain rfl := hs.program
  exact hP.named ht

theorem arrayOf_stays {component : Ty} (h : O component) :
    Stays P O σ (arrayOf component) O := by
  intro s hs
  have hspace := TypeSpace.arrayOf_typesIn hP.toClosed hs.interned h
  refine ⟨⟨hs.program, ?_, hs.vars⟩, hspace.1⟩
  intro u hu
  exact hspace.2 u (Workspace.mem_space_setSpace hu)

theorem getField_stays (name : String) :
    Stays P O σ (getField name) fun field? => ∀ field ∈ field?, O field.ty := by
  intro s hs
  have hfield : s.program.field? name = (s.owner.getField name).1 := rfl
  refine ⟨⟨(s.program_getField name).trans hs.program, ?_, hs.vars⟩, ?_⟩
  -- A field that is remembered enters no array type.
  · have hspace : (s.owner.getField name).2.space = s.owner.space := by
      rcases s.owner.getField_snd name with howner | ⟨-, howner⟩ <;> rw [howner]
    intro t ht
    refine hs.interned t ?_
    rw [interned, ← hspace]
    exact ht
  · intro field hmem
    exact hP.moduleField (hs.program ▸ hfield.trans hmem)

theorem fieldOf_stays {t : Ty} (ht : O t) (name : String) :
    Stays P O σ (fieldOf t name) fun field? => ∀ field ∈ field?, O field.ty := by
  refine Stays.get.bind fun s hs => .pure fun field hfield => ?_
  obtain rfl := hs.program
  exact hP.memberField ht hfield

/-- A call by name chooses among declared methods and operators. -/
theorem findMethods_stays (name : String) :
    Stays P O σ (findMethods name) fun ms => ∀ m ∈ ms, m.SignatureIn O := by
  refine Stays.get.bind fun s hs => .pure fun m hm => ?_
  obtain rfl := hs.program
  rcases List.mem_append.1 hm with hm | hm
  · exact hP.signature (.free hm)
  · exact Library.operators_signatureIn hP.toClosed (List.mem_filter.1 hm).1

theorem castBetween_stays {a b : Ty} (ha : O a) (hb : O b) :
    Stays P O σ (castBetween a b) fun c? => ∀ c ∈ c?, O c.target := by
  refine .query (q := fun r => r.cast a b) ?_ fun e he => ⟨a, b, ha, hb, .inl he⟩
  rintro _ hcast c rfl
  exact hP.registry.cast ha hb hcast

omit hP in
theorem Registry.failsIn_of_implicitCast {r : Registry} {a b : Ty} {e : CastError} (ha : O a)
    (hb : O b) (h : r.implicitCast a b = .error e) : r.FailsIn O e :=
  ⟨a, b, ha, hb, .inl (Registry.implicitCast_eq_error_iff.1 h).2⟩

theorem implicitCast_stays {a b : Ty} (ha : O a) (hb : O b) :
    Stays P O σ (implicitCast a b) fun c? => ∀ c ∈ c?, O c.target := by
  refine .query (q := fun r => r.implicitCast a b) ?_ fun e =>
    Registry.failsIn_of_implicitCast ha hb
  rintro _ hcast c rfl
  exact hP.registry.implicitCast ha hb hcast

theorem commonType_stays {a b : Ty} (ha : O a) (hb : O b) :
    Stays P O σ (commonType a b) fun t? => ∀ t ∈ t?, O t := by
  refine .query (q := fun r => r.commonType a b) ?_ fun e he => ⟨a, b, ha, hb, .inr he⟩
  rintro _ hcommon t rfl
  exact hP.registry.commonType ha hb hcommon

theorem coerce_stays {n : BoundNode} {t : Ty} (hn : n.TypesIn O) (ht : O t) :
    Stays P O σ (coerce n t) (·.TypesIn O) := by
  unfold coerce
  split
  · exact .pure hn
  · refine (implicitCast_stays hP hn.ty ht).bind fun c? hc? => ?_
    split
    case h_1 c => exact .pure (hn.wrap (hc? c rfl))
    case h_2 => exact errorNode_stays hP _ _ _

theorem resolveType_stays (node : SyntaxNode) :
    Stays P O σ (resolveType node) fun t? => ∀ t ∈ t?, O t := by
  fun_induction resolveType node with
  | case1 text? children span =>
    refine (findType_stays hP _).bind fun t? ht? => ?_
    split
    · exact .pure ht?
    · exact (report_stays _).bind fun _ _ => .pure nofun
  | case2 text? element rest span ih =>
    refine ih.bind fun t? ht? => ?_
    split
    case h_1 t =>
      refine (arrayOf_stays hP (ht? t rfl)).bind fun array harray => .pure ?_
      rintro _ ⟨⟩
      exact harray
    case h_2 => exact .pure nofun
  | case3 => exact (report_stays _).bind fun _ _ => .pure nofun
  | case4 => exact (report_stays _).bind fun _ _ => .pure nofun

omit hP in
/-- Literals have built-in types. -/
theorem readLiteral_builtin {kind : LiteralKind} {text : String} {value : Value} {t : Ty}
    (h : readLiteral kind text = some (value, t)) : t.id? = some (.builtin t.key) := by
  cases kind with
  | string | null =>
    cases h
    rfl
  | boolean | char => grind [readLiteral, Ty.id?]
  | _ =>
    obtain ⟨v, -, hpair⟩ := Option.map_eq_some_iff.1 h
    cases hpair
    rfl

theorem bindLiteral_stays (node : SyntaxNode) (kind : LiteralKind) :
    Stays P O σ (bindLiteral node kind) (·.TypesIn O) := by
  unfold bindLiteral
  split
  case h_1 value t hliteral =>
    exact .pure (typesIn_leaf (hP.builtin (readLiteral_builtin hliteral)) rfl rfl)
  case h_2 => exact errorNode_stays hP _ _ _

theorem bindIdentifier_stays (node : SyntaxNode) :
    Stays P O σ (bindIdentifier node) (·.TypesIn O) := by
  unfold bindIdentifier
  refine (lookupVar_stays _).bind fun var? hvar? => ?_
  split
  case h_1 var => exact .pure (typesIn_leaf (hvar? var rfl) rfl rfl)
  case h_2 =>
    refine Stays.get.bind fun s hs => ?_
    split
    case h_1 receiver field hfield =>
      have hreceiver := hs.vars receiver (sees_of_findReceiverField hfield)
      have hvisible := field?_of_findReceiverField hfield
      obtain rfl := hs.program
      refine .pure (typesIn_plain (hP.memberField hreceiver hvisible) rfl ?_)
      exact List.forall_mem_singleton.2 (typesIn_leaf hreceiver rfl rfl)
    case h_2 =>
      refine (getField_stays hP _).bind fun field? hfield? => ?_
      split
      case h_1 field => exact .pure (typesIn_leaf (hfield? field rfl) rfl rfl)
      case h_2 => exact errorNode_stays hP _ _ _

theorem accessField_stays (node : SyntaxNode) {target : BoundNode} (h : target.TypesIn O) :
    Stays P O σ (accessField node target) (·.TypesIn O) := by
  have hchild := List.forall_mem_singleton.2 h
  unfold accessField
  split
  · exact .pure (typesIn_failure hP.toClosed _ _)
  · split
    · exact .pure (typesIn_plain (hP.builtin rfl) rfl hchild)
    · refine (fieldOf_stays hP h.ty _).bind fun field? hfield? => ?_
      split
      case h_1 field => exact .pure (typesIn_plain (hfield? field rfl) rfl hchild)
      case h_2 => exact errorNode_stays hP _ _ _

theorem accessElement_stays (node : SyntaxNode) {array index : BoundNode}
    (harray : array.TypesIn O) (hindex : index.TypesIn O) :
    Stays P O σ (accessElement node array index) (·.TypesIn O) := by
  unfold accessElement
  split
  · exact .pure (typesIn_failure hP.toClosed _ _)
  · split
    · exact errorNode_stays hP _ _ _
    case h_2 component hcomponent =>
      refine (coerce_stays hP hindex (hP.builtin rfl)).bind fun converted hconverted => ?_
      split
      · exact .pure (typesIn_failure hP.toClosed _ _)
      · refine .pure (typesIn_plain (hP.component harray.ty hcomponent) rfl ?_)
        exact List.forall_mem_cons.2 ⟨harray, List.forall_mem_singleton.2 hconverted⟩

omit hP in
/-- Arguments are converted to parameters, or stay what they are. -/
theorem Overload.Converts.targets {r : Registry} (hr : r.Keeps O) {arguments params : List Ty}
    {casts : List Cast} (h : Converts r arguments params casts) (harguments : ∀ t ∈ arguments, O t)
    (hparams : ∀ t ∈ params, O t) : ∀ c ∈ casts, O c.target := by
  induction h with
  | nil => exact List.forall_mem_nil _
  | cons hcast _ ih =>
    rw [List.forall_mem_cons] at harguments hparams
    refine List.forall_mem_cons.2 ⟨?_, ih harguments.2 hparams.2⟩
    exact hr.implicitCast harguments.1 hparams.1 hcast

/-- A selected method and its conversions keep to `O`. -/
def Selection.TypesIn (O : Ty → Prop) (selection : Selection) : Prop :=
  selection.method.SignatureIn O ∧ ∀ c ∈ selection.casts, O c.target

theorem resolve_stays {candidates : List Method} {name : String} {arguments : List Ty}
    (hcandidates : ∀ m ∈ candidates, m.SignatureIn O) (harguments : ∀ t ∈ arguments, O t) :
    Stays P O σ (resolve candidates name arguments)
      fun resolution => ∀ selection, resolution = .found selection → selection.TypesIn O := by
  refine .query (q := fun r => Overload.resolve r candidates name arguments) ?_ fun e he => ?_
  · rintro _ hresolve selection rfl
    have hselects := Overload.selects_of_resolve hresolve
    have hsignature := hcandidates _ hselects.mem
    have hparams := (List.forall_mem_cons.1 hsignature).2
    exact ⟨hsignature, hselects.converts.targets hP.registry harguments hparams⟩
  · obtain ⟨m, hm, argument, hargument, param, hparam, hcast⟩ := Overload.resolve_eq_error he
    have hparams := (List.forall_mem_cons.1 (hcandidates m hm)).2
    exact Registry.failsIn_of_implicitCast (harguments _ hargument) (hparams _ hparam) hcast

omit hP in
theorem typesIn_wrap_zip {ns : List BoundNode} {casts : List Cast} (hns : ∀ n ∈ ns, n.TypesIn O)
    (hcasts : ∀ c ∈ casts, O c.target) :
    ∀ n ∈ (ns.zip casts).map fun (n, c) => n.wrap c, n.TypesIn O := by
  intro wrapped hmem
  obtain ⟨⟨n, c⟩, hpair, rfl⟩ := List.mem_map.1 hmem
  have hboth := List.of_mem_zip hpair
  exact (hns n hboth.1).wrap (hcasts c hboth.2)

omit hP in
theorem reportDeprecation_stays (method : Method) (span : Span) :
    Stays P O σ (reportDeprecation method span) fun _ => True := by
  unfold reportDeprecation
  split
  · refine Stays.read.bind fun settings _ => ?_
    split
    · exact report_stays _
    · exact .pure trivial
  · exact .pure trivial

omit hP in
theorem buildCall_stays {selection : Selection} {target : Option BoundNode}
    {arguments : List BoundNode} {span : Span} (h : selection.TypesIn O)
    (htarget : ∀ n ∈ target, n.TypesIn O) (harguments : ∀ n ∈ arguments, n.TypesIn O) :
    Stays P O σ (buildCall selection target arguments span) (·.TypesIn O) := by
  refine (reportDeprecation_stays _ _).bind fun _ _ => .pure ?_
  have hwrapped := typesIn_wrap_zip harguments h.2
  split
  · exact .intro h.1 hwrapped
  · refine .intro h.1 (List.forall_mem_append.2 ⟨?_, hwrapped⟩)
    exact fun n hn => htarget n (Option.mem_toList.1 hn)

theorem callResolved_stays {candidates : List Method} {name : String} {receiver : Option BoundNode}
    {arguments : List BoundNode} {span : Span} (hcandidates : ∀ m ∈ candidates, m.SignatureIn O)
    (hreceiver : ∀ n ∈ receiver, n.TypesIn O) (harguments : ∀ n ∈ arguments, n.TypesIn O) :
    Stays P O σ (callResolved candidates name receiver arguments span) (·.TypesIn O) := by
  have htypes := List.forall_mem_map.2 fun n hn => (harguments n hn).ty
  refine (resolve_stays hP hcandidates htypes).bind fun resolution hresolution => ?_
  split
  case h_1 selection =>
    refine buildCall_stays (hresolution selection rfl) ?_ harguments
    split
    · nofun
    · exact hreceiver
  case h_2 => exact errorNode_stays hP _ _ _
  case h_3 => exact errorNode_stays hP _ _ _

theorem construct_stays {t : Ty} {arguments : List BoundNode} {span : Span} (ht : O t)
    (harguments : ∀ n ∈ arguments, n.TypesIn O) :
    Stays P O σ (construct t arguments span) (·.TypesIn O) := by
  have htypes := List.forall_mem_map.2 fun n hn => (harguments n hn).ty
  refine Stays.get.bind fun s hs => ?_
  have hcandidates : ∀ m ∈ s.workspace.declarations.constructors t, m.SignatureIn O := by
    obtain rfl := hs.program
    exact fun m hm => hP.signature (.constructor ht hm)
  refine (resolve_stays hP hcandidates htypes).bind fun resolution hresolution => ?_
  split
  case h_1 selection => exact buildCall_stays (hresolution selection rfl) nofun harguments
  case h_2 => exact errorNode_stays hP _ _ _
  case h_3 => exact errorNode_stays hP _ _ _

theorem castsTo_stays {t : Ty} (ht : O t) {operands : List BoundNode}
    (h : ∀ n ∈ operands, n.TypesIn O) :
    Stays P O σ (castsTo t operands)
      fun casts? => ∀ casts ∈ casts?, ∀ c ∈ casts, O c.target := by
  induction operands with
  | nil =>
    refine .pure ?_
    rintro _ ⟨⟩
    exact List.forall_mem_nil _
  | cons operand rest ih =>
    rw [List.forall_mem_cons] at h
    refine (implicitCast_stays hP h.1.ty ht).bind fun c? hc? => ?_
    split
    case h_1 c =>
      refine (ih h.2).bind fun casts? hcasts? => .pure fun casts hcasts => ?_
      obtain ⟨others, hothers, rfl⟩ := Option.map_eq_some_iff.1 hcasts
      exact List.forall_mem_cons.2 ⟨hc? c rfl, hcasts? others hothers⟩
    case h_2 => exact .pure nofun

theorem coerceAll_stays {t : Ty} (ht : O t) {operands : List BoundNode}
    (h : ∀ n ∈ operands, n.TypesIn O) :
    Stays P O σ (coerceAll operands t) fun ns => ∀ n ∈ ns, n.TypesIn O := by
  refine (castsTo_stays hP ht h).bind fun casts? hcasts? => ?_
  split
  case h_1 casts => exact .pure (typesIn_wrap_zip h (hcasts? casts rfl))
  case h_2 => exact .pure h

omit hP in
/-- Operands are lifted to boxed types, which are built in. -/
theorem liftedType?_builtin (h : Ty.Closed O) {types : List Ty} {t : Ty}
    (ht : liftedType? types = some t) : O t := by
  unfold liftedType? at ht
  split at ht
  · dsimp only at ht
    split at ht
    · cases ht
      exact h.builtin rfl
    · obtain ⟨kind, -, rfl⟩ := Option.map_eq_some_iff.1 ht
      exact h.box (h.ofNumericKind kind)
  · cases ht

theorem liftOperands_stays (methodName : String) {operands : List BoundNode}
    (h : ∀ n ∈ operands, n.TypesIn O) :
    Stays P O σ (liftOperands methodName operands) fun ns => ∀ n ∈ ns, n.TypesIn O := by
  unfold liftOperands
  split
  · exact coerceAll_stays hP (hP.builtin rfl) h
  · split
    · split
      case h_1 t ht => exact coerceAll_stays hP (liftedType?_builtin hP.toClosed ht) h
      case h_2 => exact .pure h
    · exact .pure h

theorem operatorCall_stays (methodName symbol : String) {operands : List BoundNode} (span : Span)
    (h : ∀ n ∈ operands, n.TypesIn O) :
    Stays P O σ (operatorCall methodName symbol operands span) (·.TypesIn O) := by
  refine (liftOperands_stays hP _ h).bind fun lifted hlifted => ?_
  refine (findMethods_stays hP _).bind fun candidates hcandidates => ?_
  have htypes := List.forall_mem_map.2 fun n hn => (hlifted n hn).ty
  refine (resolve_stays hP hcandidates htypes).bind fun resolution hresolution => ?_
  split
  case h_1 selection => exact buildCall_stays (hresolution selection rfl) nofun hlifted
  case h_2 => exact errorNode_stays hP _ _ _
  case h_3 => exact errorNode_stays hP _ _ _

theorem asCondition_stays {n : BoundNode} (hn : n.TypesIn O) :
    Stays P O σ (asCondition n) (·.TypesIn O) := by
  unfold asCondition
  split
  · exact .pure hn
  · split
    · exact coerce_stays hP hn (hP.builtin rfl)
    · exact errorNode_stays hP _ _ _

/-- Both branches and their type keep to `O`. -/
structure Unified.TypesIn (O : Ty → Prop) (u : Unified) : Prop where
  yes : u.yes.TypesIn O
  no : u.no.TypesIn O
  ty : O u.ty

section Branches

variable {yes no : BoundNode} (hyes : yes.TypesIn O) (hno : no.TypesIn O)

include hyes hno

theorem coerceBoth_stays {t : Ty} (ht : O t) :
    Stays P O σ (coerceBoth yes no t) (·.TypesIn O) := by
  refine (coerce_stays hP hyes ht).bind fun y hy => ?_
  exact (coerce_stays hP hno ht).bind fun n hn => .pure ⟨hy, hn, ht⟩

theorem widenedTo_stays {common : Option Ty} (hcommon : ∀ t ∈ common, O t) :
    Stays P O σ (widenedTo yes no common) fun u? => ∀ u ∈ u?, u.TypesIn O := by
  cases common with
  | some t =>
    refine (coerceBoth_stays hP hyes hno (hcommon t rfl)).map fun u hu => ?_
    rintro _ ⟨⟩
    exact hu
  | none =>
    refine Stays.read.bind fun settings _ => ?_
    split
    · refine .pure ?_
      rintro _ ⟨⟩
    · refine (report_stays _).bind fun _ _ => .pure ?_
      rintro _ ⟨⟩
      exact ⟨hyes, hno, hP.builtin rfl⟩

theorem widenBoth_stays :
    Stays P O σ (widenBoth yes no) fun u? => ∀ u ∈ u?, u.TypesIn O := by
  cases h : commonSuperclass yes.ty no.ty with
  | some t =>
    rw [widenBoth_of_superclass h]
    refine widenedTo_stays hP hyes hno fun u hu => ?_
    obtain rfl := Option.some.inj hu
    exact hP.toClosed.commonSuperclass hyes.ty h
  | none =>
    rw [widenBoth_of_no_superclass h]
    exact (commonType_stays hP hyes.ty hno.ty).bind fun _ => widenedTo_stays hP hyes hno

/-- Branches end at a type of theirs, boxed beside null, at one found for both, or at Object. -/
theorem unify_stays : Stays P O σ (unify yes no) fun u? => ∀ u ∈ u?, u.TypesIn O := by
  have hsome {u : Unified} (hu : u.TypesIn O) :
      Stays P O σ (pure (some u)) fun u? => ∀ u ∈ u?, u.TypesIn O :=
    .pure fun _ hmem => Option.some.inj hmem ▸ hu
  unfold unify
  split
  · exact hsome ⟨hyes, hno, hyes.ty⟩
  · split
    · refine (coerceBoth_stays hP hyes hno (hP.toClosed.box ?_)).bind fun u hu => hsome hu
      split
      · exact hno.ty
      · exact hyes.ty
    · refine (implicitCast_stays hP hyes.ty hno.ty).bind fun forward hforward => ?_
      refine (implicitCast_stays hP hno.ty hyes.ty).bind fun backward hbackward => ?_
      split
      case h_1 f b =>
        split
        · exact hsome ⟨hyes.wrap (hforward f rfl), hno, hno.ty⟩
        · exact hsome ⟨hyes, hno.wrap (hbackward b rfl), hyes.ty⟩
      case h_2 f => exact hsome ⟨hyes.wrap (hforward f rfl), hno, hno.ty⟩
      case h_3 b => exact hsome ⟨hyes, hno.wrap (hbackward b rfl), hyes.ty⟩
      case h_4 => exact widenBoth_stays hP hyes hno

end Branches

theorem conditional_stays (node : SyntaxNode) {condition yes : BoundNode} {no? : Option BoundNode}
    (hcondition : condition.TypesIn O) (hyes : yes.TypesIn O) (hno : ∀ no ∈ no?, no.TypesIn O) :
    Stays P O σ (conditional node condition yes no?) (·.TypesIn O) := by
  unfold conditional
  split
  · exact .pure hcondition
  · split
    · exact .pure (typesIn_failure hP.toClosed _ _)
    · cases no? with
      | none =>
        refine .pure (typesIn_plain hyes.ty rfl (List.forall_mem_cons.2 ⟨hcondition, ?_⟩))
        exact List.forall_mem_singleton.2 hyes
      | some no =>
        refine (unify_stays hP hyes (hno no rfl)).bind fun u? hu? => ?_
        split
        case h_1 u =>
          have hu := hu? u rfl
          refine .pure (typesIn_plain hu.ty rfl (List.forall_mem_cons.2 ⟨hcondition, ?_⟩))
          exact List.forall_mem_cons.2 ⟨hu.yes, List.forall_mem_singleton.2 hu.no⟩
        case h_2 => exact errorNode_stays hP _ _ _

theorem castTo_stays (node : SyntaxNode) {operand : BoundNode} {t : Ty} (h : operand.TypesIn O)
    (ht : O t) : Stays P O σ (castTo node operand t) (·.TypesIn O) := by
  unfold castTo
  split
  · exact .pure (typesIn_failure hP.toClosed _ _)
  · split
    · exact .pure h
    · refine (castBetween_stays hP h.ty ht).bind fun c? hc? => ?_
      split
      case h_1 c => exact .pure ((h.wrap (hc? c rfl)).respan _)
      case h_2 => exact errorNode_stays hP _ _ _

theorem commonElementType_stays {current : Ty} {elements : List BoundNode} (hcurrent : O current)
    (h : ∀ n ∈ elements, n.TypesIn O) :
    Stays P O σ (commonElementType current elements) fun result =>
      match result with
      | .ok t => O t
      | .error failed => failed.TypesIn O := by
  induction elements generalizing current with
  | nil => exact .pure hcurrent
  | cons element rest ih =>
    rw [List.forall_mem_cons] at h
    refine (commonType_stays hP hcurrent h.1.ty).bind fun common? hcommon? => ?_
    split
    case h_1 next => exact ih (hcommon? next rfl) h.2
    case h_2 => exact (errorNode_stays hP _ _ _).bind fun failed hfailed => .pure hfailed

theorem coerceElements_stays {component : Ty} {elements : List BoundNode} (ht : O component)
    (h : ∀ n ∈ elements, n.TypesIn O) :
    Stays P O σ (coerceElements component elements) fun ns => ∀ n ∈ ns, n.TypesIn O := by
  induction elements with
  | nil => exact .pure h
  | cons element rest ih =>
    rw [List.forall_mem_cons] at h
    refine (coerce_stays hP h.1 ht).bind fun converted hconverted => ?_
    exact (ih h.2).bind fun others hothers => .pure (List.forall_mem_cons.2 ⟨hconverted, hothers⟩)

theorem buildArray_stays (node : SyntaxNode) {elements : List BoundNode} {common : Ty}
    (h : ∀ n ∈ elements, n.TypesIn O) (hcommon : O common) :
    Stays P O σ (buildArray node elements common) (·.TypesIn O) := by
  have hcomponent : O (if common.isNull then .object else common) := by
    split
    · exact hP.builtin rfl
    · exact hcommon
  refine (coerceElements_stays hP hcomponent h).bind fun converted hconverted => ?_
  exact (arrayOf_stays hP hcomponent).bind fun t ht => .pure (typesIn_plain ht rfl hconverted)

end Actions

end RuleExpr
