import RuleExpr.Proofs.Binding.Declared
import RuleExpr.Proofs.Binding.Typing
import RuleExpr.Proofs.Soundness.Evaluation
import RuleExpr.Proofs.Soundness.Modules

/-!
# Type Soundness

An expression that was bound without errors evaluates to a value that is assignable to its type, or
fails in one of six expected ways.  This is what the types of bound nodes are for.  It holds in
every module that keeps its promises, as far as no cast of the tree goes down to a type that its
value need not have: a cast down is not checked when it is applied, so that otherwise a value
reaches a type that it does not belong to.
-/

namespace RuleExpr

open BindM BindState Fallible

mutual

/-- Below the node, variables are declared directly in blocks only. -/
def SyntaxNode.declaresInBlocks : SyntaxNode → Bool
  | ⟨kind, _, children, _⟩ =>
    allDeclareInBlocks children && (kind = .block || children.all (·.kind ≠ .varDecl))

def allDeclareInBlocks : List SyntaxNode → Bool
  | [] => true
  | node :: rest => node.declaresInBlocks && allDeclareInBlocks rest

end

theorem allDeclareInBlocks_iff {nodes : List SyntaxNode} :
    allDeclareInBlocks nodes = true ↔ ∀ node ∈ nodes, node.declaresInBlocks = true := by
  induction nodes with
  | nil => simp [allDeclareInBlocks]
  | cons node rest ih => simp [allDeclareInBlocks, ih]

theorem SyntaxNode.declaresInBlocks_iff {node : SyntaxNode} :
    node.declaresInBlocks = true ↔ (∀ child ∈ node.children, child.declaresInBlocks = true) ∧
      (node.kind = .block ∨ ∀ child ∈ node.children, child.kind ≠ .varDecl) := by
  obtain ⟨kind, text?, children, span⟩ := node
  simp [declaresInBlocks, allDeclareInBlocks_iff]

theorem headExports_of_anyExports {nodes : List SyntaxNode} (h : anyExports nodes = false) :
    headExports nodes = false := by
  cases nodes with
  | nil => rfl
  | cons node rest => exact anyExports_eq_false_iff.1 h node List.mem_cons_self

mutual

/-- Only a declaration itself leaves a variable in scope then. -/
theorem SyntaxNode.exports_of_declaresInBlocks : ∀ node : SyntaxNode,
    node.declaresInBlocks = true → node.kind ≠ .varDecl → node.exports = false
  | ⟨kind, text?, children, span⟩, h, hkind => by
    obtain ⟨hchildren, hdirect⟩ := SyntaxNode.declaresInBlocks_iff.1 h
    rcases hdirect with hblock | hdirect
    · exact SyntaxNode.exports_of_block hblock
    · have hany := anyExports_of_declaresInBlocks children hchildren hdirect
      unfold SyntaxNode.exports
      split
      · exact absurd rfl hkind
      · rfl
      · exact headExports_of_anyExports hany
      · exact hany

theorem anyExports_of_declaresInBlocks : ∀ nodes : List SyntaxNode,
    (∀ node ∈ nodes, node.declaresInBlocks = true) → (∀ node ∈ nodes, node.kind ≠ .varDecl) →
      anyExports nodes = false
  | [], _, _ => by rw [anyExports]
  | node :: rest, h, hkind => by
    rw [List.forall_mem_cons] at h hkind
    rw [anyExports, node.exports_of_declaresInBlocks h.1 hkind.1,
      anyExports_of_declaresInBlocks rest h.2 hkind.2]
    rfl

end

theorem SyntaxNode.children_export_nothing {node : SyntaxNode}
    (h : node.declaresInBlocks = true) (hkind : node.kind ≠ .block) :
    ∀ child ∈ node.children, child.exports = false := by
  obtain ⟨hchildren, hdirect⟩ := declaresInBlocks_iff.1 h
  intro child hmem
  exact child.exports_of_declaresInBlocks (hchildren child hmem)
    (hdirect.resolve_left hkind child hmem)

namespace BindState

variable {d : Declarations} {O : Ty → Prop} {s s₁ s' : BindState} {frames : Frames}

/-- The frames hold a value of its type for every visible variable. -/
structure Valued (d : Declarations) (O : Ty → Prop) (s : BindState) (frames : Frames) : Prop where
  stack : frames.stack ≠ []
  vars : ∀ var, s.Sees var →
    ∃ v t, frames.load var.slot = .ok v ∧ O t ∧ t.key = var.ty.key ∧ Assignable d v t

theorem Valued.of_sees (h : s.Valued d O frames) (hsees : ∀ var, s'.Sees var → s.Sees var) :
    s'.Valued d O frames :=
  ⟨h.stack, fun var hvar => h.vars var (hsees var hvar)⟩

/-- A new variable is stored in a slot of its own. -/
theorem Valued.store {var : LocalVar} {v : Value} {t : Ty} (h : s.Valued d O frames)
    (hslots : s.SlotsBelow) (hadds : s.Adds var s') (ht : O t) (hkey : t.key = var.ty.key)
    (hv : Assignable d v t) :
    ∃ frames', frames.store var.slot v = .ok frames' ∧ s'.Valued d O frames' := by
  obtain ⟨top, rest, hstack⟩ := List.exists_cons_of_ne_nil h.stack
  have hstore : frames.store var.slot v = .ok ⟨Frames.write top var.slot v :: rest⟩ := by
    rw [Frames.store, hstack]
  refine ⟨_, hstore, List.cons_ne_nil _ _, ?_⟩
  intro other hother
  rcases hadds.sees hother with hother | rfl
  · obtain ⟨w, u, hload, hu⟩ := h.vars other hother
    have hlt := hslots other hother
    rw [← hadds.slot] at hlt
    exact ⟨w, u, Frames.load_store_other hstore (Nat.ne_of_lt hlt) hload, hu⟩
  · exact ⟨v, t, Frames.load_store_same hstore, ht, hkey, hv⟩

theorem start_valued (owner : RuleModule) (w : Workspace) (size : Nat) :
    (start owner w).Valued d O (.single size) :=
  ⟨List.cons_ne_nil _ _, fun var hvar =>
    absurd (start_slotsBelow owner w var hvar) (Nat.not_lt_zero _)⟩

end BindState

/-- The casts that a node applies itself. -/
def BoundShape.ownCasts : BoundShape → List Cast
  | .cast _ c => [c]
  | .aggregate _ _ _ c? _ => c?.toList
  | _ => []

/-- All casts that the nodes of a tree apply. -/
def BoundNode.casts (n : BoundNode) : List Cast :=
  n.shape.ownCasts ++ n.children.attach.flatMap fun ⟨c, _⟩ => c.casts
termination_by sizeOf n
decreasing_by exact sizeOf_lt_of_mem_children ‹_›

theorem BoundNode.Within.casts_subset {n root : BoundNode} (h : n.Within root) :
    n.casts ⊆ root.casts := by
  induction h with
  | refl => exact List.Subset.refl _
  | @child c root hc _ ih =>
    intro cast hcast
    rw [BoundNode.casts, List.mem_append, List.mem_flatMap]
    exact .inr ⟨⟨c, hc⟩, List.mem_attach _ _, ih hcast⟩

/-- A node mentions types of `O` alone, and its casts are safe. -/
structure Admissible (d : Declarations) (O : Ty → Prop) (shape : BoundShape) (t : Ty) : Prop where
  types : ∀ u ∈ t :: shape.mentioned, O u
  casts : ∀ cast ∈ shape.ownCasts, cast.Safe d

theorem BoundNode.TypesIn.admissible {d : Declarations} {O : Ty → Prop} {root : BoundNode}
    (h : root.TypesIn O) (hcasts : ∀ cast ∈ root.casts, cast.Safe d) :
    root.AllNodes (Admissible d O) := by
  intro n hn
  refine ⟨h n hn, fun cast hcast => hcasts cast (hn.casts_subset ?_)⟩
  rw [BoundNode.casts]
  exact List.mem_append_left _ hcast

variable {P : Program} {O : Ty → Prop} {I : Frames → Prop}

theorem Program.Sound.callable (hP : P.Sound O) {receiver? : Option Ty} {m : Method}
    (h : P.Callable receiver? m) (ht : ∀ t ∈ receiver?, O t) :
    m.Preserves P.declarations receiver? := by
  cases h with
  | free h => exact hP.free h
  | operator h => exact Library.operators_preserve (List.mem_filter.1 h).1
  | member h hm => exact hP.member (ht _ rfl) h hm
  | static h hm => exact hP.static h hm
  | constructor h => exact hP.constructor h

section Fits

variable {d : Declarations} (hd : Coherent d O)

include hd

theorem Fits.ty_eq {t : Ty} {c : BoundNode} (h : Fits Library.registry t c)
    (hc : c.isError = false) (hO : O c.ty) (ht : O t) : c.ty = t :=
  hd.eq_of_key hO ht (h.hasType Library.registry_faithful hc)

theorem fits_map_ty {params : List Ty} {arguments : List BoundNode}
    (h : List.Forall₂ (Fits Library.registry) params arguments)
    (hbound : ∀ c ∈ arguments, c.isError = false) (hO : ∀ c ∈ arguments, O c.ty)
    (hparams : ∀ t ∈ params, O t) : arguments.map (·.ty) = params := by
  induction h with
  | nil => rfl
  | cons hfits _ ih =>
    rw [List.forall_mem_cons] at hbound hO hparams
    rw [List.map_cons, hfits.ty_eq hd hbound.1 hO.1 hparams.1, ih hbound.2 hO.2 hparams.2]

theorem ArrayTy.component_eq {component t : Ty} (h : ArrayTy component t) (ht : O t)
    (hcomponent : O component) : t.component? = some component := by
  obtain ⟨known, rfl, hkey⟩ := h
  rw [Ty.component?, hd.eq_of_key (hd.component ht rfl) hcomponent hkey]

end Fits

theorem readLiteral_assignable {d : Declarations} {kind : LiteralKind} {text : String}
    {value : Value} {t : Ty} (h : readLiteral kind text = some (value, t)) :
    Assignable d value t := by
  cases kind with
  | string | null =>
    cases h
    first | exact .string | exact .null rfl
  | boolean =>
    simp only [readLiteral] at h
    split at h
    · cases h
      exact .bool rfl
    · split at h
      · cases h
        exact .bool rfl
      · cases h
  | char =>
    simp only [readLiteral] at h
    split at h
    · cases h
      exact .number rfl rfl
    · cases h
  | _ =>
    simp only [readLiteral, Option.map_eq_some_iff] at h
    obtain ⟨v, -, hpair⟩ := h
    cases hpair
    exact .number rfl rfl

section Strict

variable {n : BoundNode} (hP : P.Sound O) (hn : n.AllNodes (Admissible P.declarations O))
  (hbound : ∀ c ∈ n.children, c.isError = false)
  (hchildren : ∀ c ∈ n.children, c.Evaluates P.declarations I I)

include hP hn hbound hchildren

theorem Strict.evaluates (h : Strict Library.registry P n.shape n.ty) :
    n.Evaluates P.declarations I I := by
  have hd := hP.toCoherent
  have hO : ∀ c ∈ n.children, O c.ty := fun c hc => (hn.child hc).head.types _ List.mem_cons_self
  have hmentioned := hn.head.types
  obtain ⟨shape, t, span⟩ := n
  cases h with
  | fieldAccess hfield =>
    exact evaluates_fieldAccess hd (hO _ List.mem_cons_self) hfield
      (hchildren _ List.mem_cons_self)
  | arrayLength harray => exact evaluates_arrayLength harray (hchildren _ List.mem_cons_self)
  | @arrayElement array index _ hcomponent hindex =>
    have harray : array ∈ [array, index] := List.mem_cons_self
    have hposition : index ∈ [array, index] := List.mem_cons_of_mem _ List.mem_cons_self
    have hint := hindex.ty_eq hd (hbound _ hposition) (hO _ hposition) (hd.builtin rfl)
    exact evaluates_arrayElement hcomponent hint (hchildren _ harray) (hchildren _ hposition)
  | @newArray element _ size hsize ht =>
    have hmem : size ∈ [size] := List.mem_cons_self
    have hint := hsize.ty_eq hd (hbound _ hmem) (hO _ hmem) (hd.builtin rfl)
    have hcomponent := ht.component_eq hd (hmentioned t List.mem_cons_self)
      (hmentioned element (List.mem_cons_of_mem _ List.mem_cons_self))
    exact evaluates_newArray hcomponent hint (hchildren _ hmem)
  | arrayInit helements ht =>
    obtain ⟨known, rfl, hkey⟩ := ht
    refine evaluates_arrayInit rfl ?_ hchildren
    intro c hc
    have hkeys := (helements c hc).hasType Library.registry_faithful (hbound c hc)
    have hknown := hd.component (hmentioned _ List.mem_cons_self) rfl
    exact hd.eq_of_key (hO c hc) hknown (hkeys.trans hkey.symm)
  | @call m arguments hm _ harguments =>
    have hparams := fits_map_ty hd harguments hbound hO
      fun t ht => hmentioned t (List.mem_cons_of_mem _ ht)
    exact evaluates_call (hP.callable hm nofun) hparams hchildren
  | @construct m arguments hm _ harguments =>
    have hparams := fits_map_ty hd harguments hbound hO
      fun t ht => hmentioned t (List.mem_cons_of_mem _ ht)
    exact evaluates_constructor (hP.callable hm nofun) hparams hchildren

end Strict

/-- A loop gives values of the type that it is bound at, if its variable holds values of type `u`
and its body gives values of its own type. -/
theorem AggregateTy.assignable {d : Declarations} (hd : Coherent d O) {kind : AggregateKind}
    {source loop body t element u : Ty} {cast? : Option Cast} {v : Value}
    (h : AggregateTy kind source loop cast? body t) (ht : O t) (hu : O u)
    (hkey : u.key = loop.key) (hbody : O body) (helement : source.component? = some element)
    (hsame : cast? = none → element = u)
    (hv : Loop.Gives kind (Assignable d · u) (Assignable d · body) v) : Assignable d v t := by
  cases kind with
  | selectAll =>
    obtain ⟨selected, rfl, hselected⟩ := hv
    -- A source that is an array passes its type on, unless its elements are converted.
    rcases h with ⟨-, hcast, rfl⟩ | ⟨known, rfl, hknown⟩
    · exact .array helement (hsame hcast ▸ hselected)
    · have hcomponent := hd.eq_of_key (hd.component ht rfl) hu (hknown.trans hkey.symm)
      exact .array rfl (hcomponent ▸ hselected)
  | selectFirst =>
    obtain rfl : t = loop.box := h
    -- The variable may be typed by an equal key; boxing looks at the kind of the type alone.
    have hloop : u = loop := by
      cases loop with
      | primitive p => exact hd.eq_of_key hu (hd.builtin rfl) hkey
      | _ => exact hd.eq_of_key hu ht hkey
    rcases hv with rfl | hv
    · refine .null ?_
      cases loop <;> rfl
    · exact (hloop ▸ hv).box
  | collect =>
    obtain ⟨outcomes, rfl, houtcomes⟩ := hv
    obtain ⟨known, rfl, hknown⟩ := h
    have hO := hd.component ht rfl
    refine .array rfl fun e he => ?_
    split at hknown
    · rw [hd.eq_of_key hO (hd.builtin rfl) hknown]
      exact .top rfl
    · rw [hd.eq_of_key hO hbody hknown]
      exact houtcomes e he

/-- The variable of a loop holds the elements as its cast gives them. -/
theorem LoopCast.exists_type {d : Declarations} (hd : Coherent d O) {element t : Ty}
    {cast? : Option Cast} (h : LoopCast Library.registry element t cast?) (helement : O element)
    (hcasts : ∀ c ∈ cast?, O c.target ∧ c.Safe d) :
    ∃ u, O u ∧ u.key = t.key ∧ (cast? = none → element = u) ∧
      ∀ c ∈ cast?, ∀ v (frames : Frames), Assignable d v element →
        Lands (Assignable d · u) (c.apply v frames).1 := by
  cases h with
  | same hkey => exact ⟨element, helement, hkey.symm, fun _ => rfl, nofun⟩
  | @cast c hcast =>
    obtain ⟨htarget, hsafe⟩ := hcasts c rfl
    refine ⟨c.target, htarget, (Registry.cast_endpoints hcast).2, nofun, ?_⟩
    rintro _ ⟨⟩ v frames hv
    exact Library.registry_cast_lands hd helement hcast htarget hsafe hv frames

/-! ## Elaborated trees -/

/-- What `Elaborates.sound` says of one tree. -/
def SoundTree (P : Program) (O : Ty → Prop) (node : SyntaxNode) (s : BindState) (n : BoundNode)
    (s' : BindState) : Prop :=
  s.program = P → s.WellScoped → s.SlotsBelow → ¬s.Reports s' → n.isError = false →
    node.declaresInBlocks = true → n.AllNodes (Admissible P.declarations O) →
    n.Evaluates P.declarations (s.Valued P.declarations O) (s'.Valued P.declarations O)

/-- Elaborated trees of which it is known. -/
abbrev ElaboratesSound (σ : BindSettings) (P : Program) (O : Ty → Prop) : Elaborating :=
  fun node s n s' => ∃ _ : Elaborates σ node s n s', SoundTree P O node s n s'

section Sequences

variable {σ : BindSettings} {nodes : List SyntaxNode} {s s' : BindState} {ns : List BoundNode}
  (h : Sequence (ElaboratesSound σ P O) nodes s ns s')
  (hprogram : s.program = P) (hs : s.WellScoped) (hslots : s.SlotsBelow) (hclean : ¬s.Reports s')
  (hbound : ∀ n ∈ ns, n.isError = false) (hnodes : ∀ node ∈ nodes, node.declaresInBlocks = true)
  (hns : ∀ n ∈ ns, n.AllNodes (Admissible P.declarations O))

include h hprogram hs hslots hclean hbound hnodes hns

/-- Statements, of which each sees what the ones before it declare. -/
theorem Sequence.sound :
    Yields (s.Valued P.declarations O) (evalAll ns)
      (fun vs => List.Forall₂ (Assignable P.declarations) vs (ns.map (·.ty)))
      (s'.Valued P.declarations O) := by
  induction h with
  | nil hq =>
    unfold evalAll
    exact (Yields.pure .nil).frames (fun _ hframes => hframes)
      fun _ hframes => hframes.of_sees fun _ => hq.sees_iff.1
  | cons hnode hrest ih =>
    obtain ⟨hnode, ihnode⟩ := hnode
    have hextends := hnode.extends hs
    obtain ⟨hclean₁, hclean'⟩ := hnode.not_reports_parts hrest.elaborates hs hclean
    rw [List.forall_mem_cons] at hbound hnodes hns
    have hfirst := ihnode hprogram hs hslots hclean₁ hbound.1 hnodes.1 hns.1
    have hothers := ih (hextends.program.trans hprogram) (hextends.wellScoped hs)
      (hextends.slotsBelow hslots) hclean' hbound.2 hnodes.2 hns.2
    unfold evalAll
    refine Yields.bind hfirst fun v hv => ?_
    exact Yields.bind hothers fun vs hvs => .pure (.cons hv hvs)

/-- Trees that declare nothing for each other can be evaluated in any order. -/
theorem Sequence.sound_each (hexports : ∀ node ∈ nodes, node.exports = false) :
    (∀ n ∈ ns, n.Evaluates P.declarations (s.Valued P.declarations O)
        (s.Valued P.declarations O)) ∧
      ∀ var, s'.Sees var ↔ s.Sees var := by
  induction h with
  | nil hq => exact ⟨List.forall_mem_nil _, fun _ => hq.sees_iff⟩
  | cons hnode hrest ih =>
    obtain ⟨hnode, ihnode⟩ := hnode
    have hextends := hnode.extends hs
    obtain ⟨hclean₁, hclean'⟩ := hnode.not_reports_parts hrest.elaborates hs hclean
    rw [List.forall_mem_cons] at hbound hnodes hns hexports
    have hsees₁ : ∀ var : LocalVar, _ ↔ _ := fun var =>
      ⟨fun (hvar : Sees _ var) => hnode.sees_of_not_exports hs hclean₁ hbound.1 hexports.1 hvar,
        hextends.fills.sees_mono⟩
    have hfirst := ihnode hprogram hs hslots hclean₁ hbound.1 hnodes.1 hns.1
    obtain ⟨hothers, hsees⟩ := ih (hextends.program.trans hprogram) (hextends.wellScoped hs)
      (hextends.slotsBelow hslots) hclean' hbound.2 hnodes.2 hns.2 hexports.2
    refine ⟨List.forall_mem_cons.2 ⟨?_, ?_⟩, fun var => (hsees var).trans (hsees₁ var)⟩
    · exact Yields.frames hfirst (fun _ hframes => hframes)
        fun _ hframes => hframes.of_sees fun var => (hsees₁ var).2
    · intro n hn
      exact Yields.frames (hothers n hn)
        (fun _ hframes => hframes.of_sees fun var => (hsees₁ var).1)
        fun _ hframes => hframes.of_sees fun var => (hsees₁ var).2

omit hbound hnodes in
/-- Children of a tree other than a block, where none of them declares anything. -/
theorem Sequence.sound_children {node : SyntaxNode} (hkind : node.kind ≠ .block)
    (hsub : nodes.Sublist node.children) (hdeclares : node.declaresInBlocks = true)
    (herror : ∀ n ∈ ns, n.isError → s.Reports s') :
    (∀ n ∈ ns, n.isError = false) ∧
      (∀ n ∈ ns, n.Evaluates P.declarations (s.Valued P.declarations O)
        (s.Valued P.declarations O)) ∧
      ∀ var, s'.Sees var → s.Sees var := by
  have hbound := no_errors_of_not_reports hclean herror
  have hkids := (SyntaxNode.declaresInBlocks_iff.1 hdeclares).1
  have hexports := SyntaxNode.children_export_nothing hdeclares hkind
  obtain ⟨heach, hsees⟩ := h.sound_each hprogram hs hslots hclean hbound
    (fun child hmem => hkids child (hsub.subset hmem)) hns
    fun child hmem => hexports child (hsub.subset hmem)
  exact ⟨hbound, heach, fun var => (hsees var).1⟩

end Sequences

theorem BoundNode.Evaluates.of_sees {d : Declarations} {s s₁ s' : BindState} {n : BoundNode}
    (h : n.Evaluates d (s.Valued d O) (s₁.Valued d O)) (hsees : ∀ var, s'.Sees var → s₁.Sees var) :
    n.Evaluates d (s.Valued d O) (s'.Valued d O) :=
  Yields.frames h (fun _ hframes => hframes) fun _ hframes => hframes.of_sees hsees

theorem BoundNode.Evaluates.respan {d : Declarations} {I I' : Frames → Prop} {n : BoundNode}
    (h : n.Evaluates d I I') (span : Span) : BoundNode.Evaluates d I I' { n with span } := by
  obtain ⟨shape, t, old⟩ := n
  rw [Evaluates, eval] at h
  exact evaluates_of_shape h

theorem evaluates_of_sees {d : Declarations} {s : BindState} {var : LocalVar} {span : Span}
    (hd : Coherent d O) (hvar : s.Sees var) (ht : O var.ty) :
    BoundNode.Evaluates d (s.Valued d O) (s.Valued d O)
      ⟨.localVar var.name var.slot, var.ty, span⟩ := by
  refine evaluates_localVar fun frames hframes => ?_
  obtain ⟨v, t, hload, ht', hkey, hv⟩ := hframes.vars var hvar
  exact ⟨v, hload, hd.eq_of_key ht' ht hkey ▸ hv⟩

/-- In frames with a value for every visible variable, a tree gives values of its type and a value
for every variable that it leaves visible. -/
theorem Elaborates.sound {config : Config} (hP : P.Sound O) {node : SyntaxNode}
    {s s' : BindState} {n : BoundNode} (h : Elaborates (.standard config) node s n s') :
    SoundTree P O node s n s' := by
  have hd := hP.toCoherent
  induction h using Elaborates.induct with
  | step h hrule =>
    intro hprogram hs hslots hclean hn hdeclares hall
    obtain ⟨hkids, -⟩ := SyntaxNode.declaresInBlocks_iff.1 hdeclares
    have hO : ∀ t ∈ _, O t := hall.head.types
    cases hrule with
    | failure herror _ => exact absurd herror (Bool.eq_false_iff.1 hn)
    | literal hliteral hq =>
      exact (evaluates_literal (readLiteral_assignable hliteral)).of_sees fun _ => hq.sees_iff.1
    | localVar hvar hq =>
      exact (evaluates_of_sees hd (sees_of_findVar hvar) (hO _ List.mem_cons_self)).of_sees
        fun _ => hq.sees_iff.1
    | receiverField hfield hq =>
      have ht := (hall.child List.mem_cons_self).head.types _ List.mem_cons_self
      have hvisible := hprogram ▸ field?_of_findReceiverField hfield
      refine (evaluates_fieldAccess hd ht hvisible ?_).of_sees fun _ => hq.sees_iff.1
      exact evaluates_of_sees hd (sees_of_findReceiverField hfield) ht
    | moduleField hfield hq =>
      obtain ⟨v, hconstant, hv⟩ := hP.constant (hprogram ▸ hfield)
      exact (evaluates_moduleField hconstant hv).of_sees fun _ => hq.sees_iff.1
    | strict hkind hsub hseq hstrict herror =>
      obtain ⟨hbound, heach, hsees⟩ := hseq.sound_children hprogram hs hslots hclean
        (fun c hc => hall.child hc) (fun hblock => nomatch hblock ▸ hkind) hsub hdeclares herror
      exact (Strict.evaluates hP hall hbound heach (hprogram ▸ hstrict)).of_sees hsees
    | memberCall hkind hchildren hseq hm harguments herror =>
      obtain ⟨hbound, heach, hsees⟩ := hseq.sound_children hprogram hs hslots hclean
        (fun c hc => hall.child hc) (fun hblock => nomatch hblock.symm.trans hkind)
        (hchildren ▸ .refl _) hdeclares herror
      rw [List.forall_mem_cons] at heach hbound
      have hreceiver := (hall.child List.mem_cons_self).head.types _ List.mem_cons_self
      have hm := hP.callable (hprogram ▸ hm) (by rintro t ⟨⟩; exact hreceiver)
      have hparams := fits_map_ty hd harguments hbound.2
        (fun c hc => (hall.child (List.mem_cons_of_mem _ hc)).head.types _ List.mem_cons_self)
        fun t ht => hO t (List.mem_cons_of_mem _ ht)
      exact (evaluates_memberCall hm hparams heach.1 heach.2).of_sees hsees
    | staticCall hkind hchildren hseq hstrict hreceiver herror =>
      have hbound := no_errors_of_not_reports hclean herror
      have hexports := SyntaxNode.children_export_nothing hdeclares
        fun hblock => nomatch hblock.symm.trans hkind
      cases hseq with
      | cons hfirst hrest =>
        -- The receiver is not evaluated, but it leaves nothing in scope.
        obtain ⟨hfirst, -⟩ := hfirst
        have hextends := hfirst.extends hs
        obtain ⟨hclean₁, hclean'⟩ := hfirst.not_reports_parts hrest.elaborates hs hclean
        rw [hchildren, List.forall_mem_cons] at hkids hexports
        have hsees₁ : ∀ var, Sees _ var → Sees _ var := fun _ =>
          hfirst.sees_of_not_exports hs hclean₁ hreceiver hexports.1
        obtain ⟨heach, hsees⟩ := hrest.sound_each (hextends.program.trans hprogram)
          (hextends.wellScoped hs) (hextends.slotsBelow hslots) hclean' hbound hkids.2
          (fun c hc => hall.child hc) hexports.2
        have hcall := Strict.evaluates hP hall hbound heach (hprogram ▸ hstrict)
        exact Yields.frames hcall (fun _ hframes => hframes.of_sees hsees₁)
          fun _ hframes => hframes.of_sees fun var => (hsees var).1
    | @conditional _ _ _ _ condition yes no? _ _ hkind hchildren hseq hcondition hbranches herror =>
      have hnotBlock : _ ≠ NodeKind.block := fun hblock => by
        rcases hkind with hkind | hkind <;> exact nomatch hblock.symm.trans hkind
      obtain ⟨hbound, heach, hsees⟩ := hseq.sound_children hprogram hs hslots hclean
        (fun c hc => hall.child hc) hnotBlock (hchildren ▸ .refl _) hdeclares herror
      have htypes := fun c hc => (hall.child (c := c) hc).head.types _ List.mem_cons_self
      have hboolean := hcondition.ty_eq hd (hbound _ List.mem_cons_self)
        (htypes _ List.mem_cons_self) (hd.builtin rfl)
      refine (evaluates_conditional hboolean (heach _ List.mem_cons_self) ?_).of_sees hsees
      intro branch hbranch
      have hmem : branch ∈ condition :: yes :: no?.toList := List.mem_cons_of_mem _ hbranch
      refine Yields.imp (heach branch hmem) fun v hv => ?_
      rcases hbranches with hbranches | ⟨-, rfl⟩
      · have hty := (hbranches branch hbranch).ty_eq hd (hbound branch hmem) (htypes branch hmem)
          (hO _ List.mem_cons_self)
        exact hty ▸ hv
      · exact .top rfl
    | @logical _ _ _ _ op left right _ hkind _ hchildren hseq hleft hright herror =>
      have hoperands : ∀ c ∈ [left, right], c.AllNodes (Admissible P.declarations O) := by
        intro c hc
        refine hall.child ?_
        split <;> exact hc
      obtain ⟨hbound, heach, hsees⟩ := hseq.sound_children hprogram hs hslots hclean hoperands
        (fun hblock => nomatch hblock.symm.trans hkind) (hchildren ▸ .refl _) hdeclares herror
      rw [List.forall_mem_cons, List.forall_mem_singleton] at heach hbound hoperands
      have hleft := hleft.ty_eq hd hbound.1 (hoperands.1.head.types _ List.mem_cons_self)
        (hd.builtin rfl)
      have hright := hright.ty_eq hd hbound.2 (hoperands.2.head.types _ List.mem_cons_self)
        (hd.builtin rfl)
      split
      · exact (evaluates_or hleft hright heach.1 heach.2).of_sees hsees
      · exact (evaluates_and hleft hright heach.1 heach.2).of_sees hsees
    | cast hoperand hcast hnone herror =>
      obtain ⟨-, ih⟩ := hoperand
      have hinner := ih hprogram hs hslots hclean herror hdeclares
        (hall.child List.mem_cons_self)
      have hsource := (hall.child List.mem_cons_self).head.types _ List.mem_cons_self
      refine evaluates_cast (fun v frames hv => ?_) hinner
      exact Library.registry_cast_lands hd hsource hcast (hO _ List.mem_cons_self)
        (hall.head.casts _ List.mem_cons_self) hv frames
    | operand span _ hmem hchild =>
      obtain ⟨-, ih⟩ := hchild
      have hinner := ih hprogram hs hslots hclean hn (hkids _ hmem) hall.of_respan
      exact hinner.respan span
    | block hkind hseq hq herror =>
      have hencloses := hseq.elaborates.encloses hs hq
      have hstatements := hseq.sound hprogram (pushScope_wellScoped hs)
        (slotsBelow_pushScope hslots) (hencloses.not_reports hclean)
        (no_errors_of_not_reports hclean herror) hkids fun c hc => hall.child hc
      have hentry := hstatements.frames
        (fun _ (hframes : Valued _ _ _ _) => hframes.of_sees fun _ => sees_pushScope.1)
        fun _ hframes => hframes
      refine (evaluates_block hentry).of_sees fun var hvar => ?_
      have hbefore := hencloses.sees_iff.1 hvar
      exact hencloses.fills.sees_mono (sees_pushScope.2 hbefore)
    | varDecl hkind hmem hinitial hfits hadds _ herror =>
      obtain ⟨hinitial, ih⟩ := hinitial
      have hextends := hinitial.extends hs
      have htype := (hall.child List.mem_cons_self).head.types _ List.mem_cons_self
      have hown := hO _ List.mem_cons_self
      have hinner := ih hprogram hs hslots
        (fun hreports => hclean (hreports.before hadds.diagnostics)) herror (hkids _ hmem)
        (hall.child List.mem_cons_self)
      refine evaluates_varDecl (hfits.ty_eq hd herror htype hown) hinner ?_
      intro v hv frames hframes
      exact hframes.store (hextends.slotsBelow hslots) hadds hown rfl hv
    | aggregate hkind hchildren hmem hsource helement hadds hbody hq hcast _ ht hse hbe =>
      obtain ⟨hsource, ihsource⟩ := hsource
      obtain ⟨hbody, ihbody⟩ := hbody
      have hloops := hsource.loops hadds hbody hq hs
      obtain ⟨hcleanSource, hcleanBody⟩ := hloops.not_reports hclean
      rw [hchildren, List.forall_mem_cons] at hkids
      have hfirst := ihsource hprogram hs hslots hcleanSource hse hkids.1
        (hall.child List.mem_cons_self)
      have hsecond := ihbody (hloops.program.trans hprogram) hloops.wellScoped
        (hloops.slotsBelow hslots) hcleanBody hbe (hkids.2 _ hmem)
        (hall.child (List.mem_cons_of_mem _ List.mem_cons_self))
      have hsourceTy := (hall.child List.mem_cons_self).head.types _ List.mem_cons_self
      have hbodyTy := (hall.child (List.mem_cons_of_mem _ List.mem_cons_self)).head.types _
        List.mem_cons_self
      obtain ⟨u, hu, hkey, hsame, hconverts⟩ := hcast.exists_type hd
        (hd.component hsourceTy helement) fun c hc =>
          ⟨hO _ (List.mem_cons_of_mem _ (List.mem_map_of_mem (Option.mem_toList.2 hc))),
            hall.head.casts c (Option.mem_toList.2 hc)⟩
      refine (evaluates_aggregate hfirst helement hsame hconverts ?_ hsecond ?_ ?_).of_sees ?_
      · intro v hv frames hframes
        have hopen := hframes.of_sees fun _ => sees_pushScope.1
        exact hopen.store (hloops.slotsBelow_open hslots) hadds hu hkey hv
      · intro frames hframes
        exact hframes.of_sees fun var hvar =>
          hloops.encloses.fills.sees_mono (sees_pushScope.2 hvar)
      · exact fun v => ht.assignable hd (hO _ List.mem_cons_self) hu hkey hbodyTy helement hsame
      · exact fun var => hloops.encloses.sees_iff.1

/-- An expression that was bound without errors, with variables declared in blocks, evaluates to a
value that is assignable to its type or to an expected failure: whatever the module, as long as it
keeps its promises, and as long as no cast of the tree goes down to a type that its values need not
have. -/
theorem bindExpression_evaluate_assignable {node : SyntaxNode} {owner : RuleModule} {w : Workspace}
    {config : Config} {e : BoundExpression} (hrun : (bindExpression node owner w config).1 = .ok e)
    (hclean : e.hasErrors = false) (hdeclares : node.declaresInBlocks = true)
    (hmodule : (start owner w).Sound O)
    (hcasts : ∀ c ∈ e.root.casts, c.Safe (start owner w).program.declarations) :
    match e.evaluate with
    | .ok value => Assignable (start owner w).program.declarations value e.root.ty
    | .error error => error.isExpected := by
  obtain ⟨_, hbind, -, -⟩ := bindExpression_eq_ok hrun
  have hknows : (start owner w).Knows (start owner w).program O :=
    ⟨rfl, hmodule.interned, fun var hvar =>
      absurd (start_slotsBelow owner w var hvar) (Nat.not_lt_zero _)⟩
  obtain ⟨-, htypes⟩ := (bind_stays (hmodule.toTypesIn.standard config) node).run hknows hbind
  obtain ⟨s', helaborates, -, hreports, hn⟩ := bindExpression_elaborates hrun hclean
  have hsound := helaborates.sound hmodule.toSound rfl (start_wellScoped owner w)
    (start_slotsBelow owner w) hreports hn hdeclares (htypes.admissible hcasts)
  have hvalue := hsound (.single e.frameSize) (start_valued owner w e.frameSize)
  rw [BoundExpression.evaluate, BoundNode.evaluate]
  match heval : e.root.eval (Frames.single e.frameSize) with
  | (.ok value, frames) =>
    rw [heval] at hvalue
    exact hvalue.1
  | (.error error, frames) =>
    rw [heval] at hvalue
    exact hvalue

/-- A field of a new object, added to a wider number. -/
theorem bindExpression_evaluate_assignable_point :
    let node : SyntaxNode := ⟨.block, none,
      [⟨.varDecl, some "p", [.leaf .typeName "Point" .nowhere,
          ⟨.new, none, [.leaf .typeName "Point" .nowhere,
            .leaf (.literal .integer) "3" .nowhere], .nowhere⟩], .nowhere⟩,
        ⟨.binary .add, none, [⟨.fieldAccess, some "x", [.leaf .identifier "p" .nowhere], .nowhere⟩,
          .leaf (.literal .long) "1" .nowhere], .nowhere⟩], .nowhere⟩
    (RuleModule.empty "Rules" "rules" 0).declareDatatype .empty "Point" [] [("x", .int)] =
      (.ok (Point.ty, Point.owner), Point.workspace) ∧
    ∃ e, (bindExpression node Point.owner Point.workspace .standard).1 = .ok e ∧
      e.hasErrors = false ∧ e.root.casts.length = 1 ∧ ∃ value, e.evaluate = .ok value ∧
      Assignable Point.workspace.declarations value e.root.ty := by
  intro node
  refine ⟨Point.declare_eq, ?_⟩
  have hcheck : (bindExpression node Point.owner Point.workspace .standard).1.toOption.any (fun e =>
      e.hasErrors = false ∧ e.root.casts.length = 1 ∧ e.evaluate.toOption.isSome ∧
        e.root.casts.all (!·.isDowncast)) = true := by
    decide +kernel
  match hrun : (bindExpression node Point.owner Point.workspace .standard).1 with
  | .ok e =>
    rw [hrun] at hcheck
    obtain ⟨hclean, hlength, hvalue, hcasts⟩ : e.hasErrors = false ∧ _ := of_decide_eq_true hcheck
    have hsafe : ∀ c ∈ e.root.casts, c.Safe Point.workspace.declarations := by
      intro c hc hdown
      have := List.all_eq_true.1 hcasts c hc
      rw [hdown] at this
      cases this
    have hdeclares : node.declaresInBlocks = true := by decide +kernel
    have hassignable :=
      bindExpression_evaluate_assignable hrun hclean hdeclares Point.sound hsafe
    refine ⟨e, rfl, hclean, hlength, ?_⟩
    cases heval : e.evaluate with
    | ok value =>
      rw [heval] at hassignable
      exact ⟨value, rfl, hassignable⟩
    | error error =>
      rw [heval] at hvalue
      cases hvalue
  | .error error =>
    rw [hrun] at hcheck
    cases hcheck

/-- Whether an expression of the type of texts evaluates to five. -/
def BoundExpression.answersFiveAsText (e : BoundExpression) : Bool :=
  match e.evaluate, e.root.ty with
  | .ok (.int 5), .string => true
  | _, _ => false

theorem BoundExpression.answersFiveAsText_spec {e : BoundExpression}
    (h : e.answersFiveAsText = true) : e.evaluate = .ok (.int 5) ∧ e.root.ty = .string := by
  unfold answersFiveAsText at h
  split at h
  case h_1 hvalue hty => exact ⟨hvalue, hty⟩
  case h_2 => cases h

/-- A cast down to a type that the value does not have is bound without errors and evaluates to the
value itself, in a module that keeps all its promises. -/
theorem bindExpression_downcast_unchecked :
    let node : SyntaxNode := ⟨.cast, none,
      [.leaf .typeName "String" .nowhere, .leaf .identifier "o" .nowhere], .nowhere⟩
    (RuleModule.empty "Rules" "rules" 0).addField 1 Five.field = .ok Five.owner ∧
    (start Five.owner .empty).Sound (Ty.Over []) ∧ node.declaresInBlocks = true ∧
    ∃ e, (bindExpression node Five.owner .empty .standard).1 = .ok e ∧ e.hasErrors = false ∧
      e.evaluate = .ok (.int 5) ∧ ¬Assignable .empty (.int 5) e.root.ty := by
  intro node
  refine ⟨rfl, ⟨Five.flat.sound, List.forall_mem_nil _⟩, by decide +kernel, ?_⟩
  have hcheck : (bindExpression node Five.owner .empty .standard).1.toOption.any (fun e =>
      !e.hasErrors && e.answersFiveAsText) = true := by
    decide +kernel
  cases hrun : (bindExpression node Five.owner .empty .standard).1 with
  | ok e =>
    rw [hrun] at hcheck
    obtain ⟨hclean, hanswer⟩ := Bool.and_eq_true_iff.1 hcheck
    obtain ⟨hvalue, hty⟩ := BoundExpression.answersFiveAsText_spec hanswer
    refine ⟨e, rfl, by simpa using hclean, hvalue, ?_⟩
    rw [hty]
    intro h
    rcases h.null_or_string with hnull | ⟨text, htext⟩
    · cases hnull
    · cases htext
  | error error =>
    rw [hrun] at hcheck
    cases hcheck

end RuleExpr
