import RuleExpr.Proofs.ConversionChains

/-!
# Array Initializers

The component type of an array initializer is found by a walk over its elements that keeps the
common type of those seen so far, and afterwards each element is converted to it.  The walk only
makes sure that the type so far and the next element convert to the next type.  An earlier element
reaches the component type by a chain of conversions, and it is refused where the chain has no
conversion of its own to stand for it.  So an initializer with a component type is accepted just if
none of its elements is apart from that type, and the order of the elements may decide it.
-/

namespace RuleExpr

open BindM

variable {O : Ty → Prop} {a b t component : Ty} {ts : List Ty}

/-- The type, with the root in the place of the type of null. -/
def Ty.orRoot (t : Ty) : Ty := if t.isNull then .object else t

namespace Registry

/-- Common type of types that are taken one after the other, starting from `current`. -/
def commonOf (r : Registry) : Ty → List Ty → Except CastError (Option Ty)
  | current, [] => .ok (some current)
  | current, t :: rest => do
    match ← r.commonType current t with
    | some next => commonOf r next rest
    | none => return none

/-- Component type of an array with elements of the given types; one of nulls alone, or of nothing,
holds any object. -/
def componentOf (r : Registry) : List Ty → Except CastError (Option Ty)
  | [] => .ok (some .object)
  | first :: rest => do
    return (← r.commonOf first rest).map Ty.orRoot

theorem commonOf_cons {r : Registry} {next : Ty} (h : r.commonType a t = .ok (some next)) :
    r.commonOf a (t :: ts) = r.commonOf next ts := by
  rw [commonOf, h]
  rfl

theorem commonOf_cons_none {r : Registry} (h : r.commonType a t = .ok none) :
    r.commonOf a (t :: ts) = .ok none := by
  rw [commonOf, h]
  rfl

theorem componentOf_cons {r : Registry} {common? : Option Ty}
    (h : r.commonOf a ts = .ok common?) :
    r.componentOf (a :: ts) = .ok (common?.map Ty.orRoot) := by
  rw [componentOf, h]
  rfl

theorem commonOf_cons_error {r : Registry} {e : CastError} (h : r.commonType a t = .error e) :
    r.commonOf a (t :: ts) = .error e := by
  rw [commonOf, h]
  rfl

theorem componentOf_cons_error {r : Registry} {e : CastError} (h : r.commonOf a ts = .error e) :
    r.componentOf (a :: ts) = .error e := by
  rw [componentOf, h]
  rfl

/-- The walk fails for the width of distances only. -/
theorem Trusts.commonOf {r : Registry} {e : CastError} (hr : r.Trusts)
    (h : r.commonOf a ts = .error e) : e = .overflow := by
  induction ts generalizing a with
  | nil => cases h
  | cons t rest ih =>
    match hnext : r.commonType a t with
    | .error e' =>
      rw [commonOf_cons_error hnext] at h
      cases h
      exact hr.commonType hnext
    | .ok none =>
      rw [commonOf_cons_none hnext] at h
      cases h
    | .ok (some next) =>
      rw [commonOf_cons hnext] at h
      exact ih h

end Registry

namespace Ty.PlainlyExtended

variable (hO : PlainlyExtended O)

include hO

/-- A step of the walk goes up in the order. -/
theorem precedes_commonType (ha : O a) (hb : O b)
    (h : Library.registry.commonType a b = .ok (some t)) : O t ∧ a.Precedes t ∧ b.Precedes t := by
  have ht := (Library.registry_keeps hO.toClosed).commonType ha hb h
  refine ⟨ht, ?_⟩
  by_cases hkey : a.key = b.key
  · obtain rfl := hO.eq_of_key ha hb hkey
    rw [Registry.commonType_of_key_eq rfl] at h
    cases h
    exact ⟨.rises (.above .refl), .rises (.above .refl)⟩
  · obtain ⟨-, score, hscore, -⟩ := Registry.nearest_of_commonType hkey h
    obtain ⟨castA, castB, hA, hB, -⟩ := Registry.score?_eq_some_iff.1 hscore
    exact ⟨((hO.converts_iff ha ht).1 ⟨castA, hA⟩).1, ((hO.converts_iff hb ht).1 ⟨castB, hB⟩).1⟩

/-- The whole walk goes up, so all types precede the one that it ends with. -/
theorem precedes_commonOf (ha : O a) (hts : ∀ u ∈ ts, O u)
    (h : Library.registry.commonOf a ts = .ok (some t)) :
    O t ∧ a.Precedes t ∧ ∀ u ∈ ts, u.Precedes t := by
  induction ts generalizing a with
  | nil =>
    cases h
    exact ⟨ha, .rises (.above .refl), List.forall_mem_nil _⟩
  | cons u rest ih =>
    obtain ⟨hu, hrest⟩ := List.forall_mem_cons.1 hts
    match hnext : Library.registry.commonType a u with
    | .error e =>
      rw [Registry.commonOf_cons_error hnext] at h
      cases h
    | .ok none =>
      rw [Registry.commonOf_cons_none hnext] at h
      cases h
    | .ok (some next) =>
      rw [Registry.commonOf_cons hnext] at h
      obtain ⟨hOnext, hcurrent, helement⟩ := hO.precedes_commonType ha hu hnext
      obtain ⟨ht, hstep, hall⟩ := ih hOnext hrest h
      refine ⟨ht, hO.precedes_trans ha hOnext hcurrent hstep, List.forall_mem_cons.2 ⟨?_, hall⟩⟩
      exact hO.precedes_trans hu hOnext helement hstep

theorem precedes_componentOf (hts : ∀ u ∈ ts, O u)
    (h : Library.registry.componentOf ts = .ok (some component)) :
    O component ∧ ∀ u ∈ ts, u.Precedes component := by
  have hobject : O .object := hO.builtin rfl
  cases ts with
  | nil =>
    cases h
    exact ⟨hobject, List.forall_mem_nil _⟩
  | cons first rest =>
    obtain ⟨hfirst, hrest⟩ := List.forall_mem_cons.1 hts
    rw [Registry.componentOf] at h
    cases hcommon : Library.registry.commonOf first rest with
    | error e =>
      rw [hcommon] at h
      cases h
    | ok common? =>
      rw [hcommon] at h
      obtain ⟨common, rfl, hcomponent⟩ := Option.map_eq_some_iff.1 (Except.ok.inj h)
      obtain ⟨hOcommon, hprecedes⟩ := hO.precedes_commonOf hfirst hrest hcommon
      have hall : ∀ u ∈ first :: rest, u.Precedes common := List.forall_mem_cons.2 hprecedes
      subst hcomponent
      unfold orRoot
      split
      case isTrue hnull =>
        obtain rfl := Ty.eq_null_of_isNull hnull
        exact ⟨hobject, fun u hu =>
          hO.precedes_trans (hts u hu) hOcommon (hall u hu) (.rises (.null rfl))⟩
      case isFalse => exact ⟨hOcommon, hall⟩

/-- An element converts to the component type unless the two are apart. -/
theorem converts_componentOf (hts : ∀ u ∈ ts, O u)
    (h : Library.registry.componentOf ts = .ok (some component)) :
    ∀ u ∈ ts, Library.registry.Converts u component ↔ u.isApart component = false := by
  obtain ⟨hcomponent, hall⟩ := hO.precedes_componentOf hts h
  intro u hu
  rw [hO.converts_iff (hts u hu) hcomponent]
  exact and_iff_right (hall u hu)

end Ty.PlainlyExtended

/-! ## Binding an initializer -/

/-- What is said of an element that has no common type with those before it. -/
def conflictMessage (current : Ty) (element : BoundNode) : String :=
  "array elements of type '" ++ current.name ++ "' and '" ++ element.ty.name ++
    "' have no common type"

def conflict (current : Ty) (element : BoundNode) : Diagnostic :=
  .ofError .typeMismatch (conflictMessage current element) (some element.span)

/-- What is said of an element that does not convert to the component type. -/
def mismatchMessage (component : Ty) (element : BoundNode) : String :=
  "cannot convert '" ++ element.ty.name ++ "' to '" ++ component.name ++ "'"

def mismatch (component : Ty) (element : BoundNode) : Diagnostic :=
  .ofError .typeMismatch (mismatchMessage component element) (some element.span)

/-- Reports of the elements whose types are apart from the component type, in their order. -/
def mismatches (component : Ty) (elements : List BoundNode) : List Diagnostic :=
  (elements.filter (·.ty.isApart component)).map (mismatch component)

/-- What stands for an element in an array: the element converted, or an error node if its type is
apart from the component type. -/
inductive StandsFor (r : Registry) (component : Ty) (element : BoundNode) : BoundNode → Prop
  | converted {cast : Cast} (hapart : element.ty.isApart component = false)
      (h : r.implicitCast element.ty component = .ok (some cast)) :
      StandsFor r component element (element.wrap cast)
  | refused {n : BoundNode} (hapart : element.ty.isApart component) (hn : n.isError) :
      StandsFor r component element n

theorem mismatches_append (component : Ty) (elements more : List BoundNode) :
    mismatches component (elements ++ more) =
      mismatches component elements ++ mismatches component more := by
  rw [mismatches, List.filter_append, List.map_append]
  rfl

section Binding

variable (config : Config) (s : BindState) {element : BoundNode} {elements : List BoundNode}

theorem coerce_of_converts {cast : Cast} (hbound : element.isError = false)
    (h : Library.registry.implicitCast element.ty component = .ok (some cast)) :
    coerce element component (.standard config) s = (.ok (element.wrap cast), s) := by
  unfold coerce
  split
  case isTrue hsame =>
    rw [hbound, Bool.false_or, decide_eq_true_iff] at hsame
    rw [Registry.implicitCast, if_pos hsame] at h
    cases h
    rfl
  case isFalse =>
    rw [run_bind_of_ok (implicitCast_eq_ok.2 ⟨h, rfl⟩)]
    rfl

/-- Conversion of an element, where there is a conversion between types that are not apart. -/
theorem coerce_standsFor (hbound : element.isError = false)
    (hconverts : Library.registry.Converts element.ty component ↔
      element.ty.isApart component = false) :
    ∃ n, coerce element component (.standard config) s =
        (.ok n, { s with diagnostics := s.diagnostics ++ mismatches component [element] }) ∧
      StandsFor Library.registry component element n := by
  cases hapart : element.ty.isApart component with
  | false =>
    obtain ⟨cast, hcast⟩ := hconverts.2 hapart
    have hnone : mismatches component [element] = [] := by simp [mismatches, hapart]
    refine ⟨_, ?_, .converted hapart hcast⟩
    rw [coerce_of_converts config s hbound hcast, hnone, List.append_nil]
  | true =>
    have hnot : ¬Library.registry.Converts element.ty component := by
      rw [hconverts, hapart]
      decide
    obtain ⟨cast?, hcast⟩ := Library.registry_separates.answers element.ty component
    cases cast? with
    | some cast => exact absurd ⟨cast, hcast⟩ hnot
    | none =>
      have hdifferent : ¬(element.isError || element.ty.key = component.key) = true := by
        rw [hbound, Bool.false_or, decide_eq_true_iff]
        exact fun hsame => hnot ⟨_, if_pos hsame⟩
      have hreport : mismatches component [element] = [mismatch component element] := by
        simp [mismatches, hapart]
      refine ⟨.failure (mismatchMessage component element) element.span, ?_, .refused hapart rfl⟩
      rw [coerce, if_neg hdifferent, run_bind_of_ok (implicitCast_eq_ok.2 ⟨hcast, rfl⟩), hreport]
      rfl

theorem coerceElements_standFor (hbound : AllBound elements)
    (hconverts : ∀ element ∈ elements, Library.registry.Converts element.ty component ↔
      element.ty.isApart component = false) :
    ∃ converted, coerceElements component elements (.standard config) s =
        (.ok converted, { s with diagnostics := s.diagnostics ++ mismatches component elements }) ∧
      List.Forall₂ (StandsFor Library.registry component) elements converted := by
  induction elements generalizing s with
  | nil =>
    refine ⟨[], ?_, .nil⟩
    rw [mismatches, List.filter_nil, List.map_nil, List.append_nil]
    rfl
  | cons element rest ih =>
    obtain ⟨hfirst, hrest⟩ := List.forall_mem_cons.1 hconverts
    obtain ⟨n, hrun, hn⟩ := coerce_standsFor config s (hbound element List.mem_cons_self) hfirst
    obtain ⟨ns, hruns, hns⟩ := ih _ (fun e he => hbound e (List.mem_cons_of_mem _ he)) hrest
    have hreports : mismatches component (element :: rest) =
        mismatches component [element] ++ mismatches component rest :=
      mismatches_append component [element] rest
    refine ⟨n :: ns, ?_, .cons hn hns⟩
    rw [coerceElements, run_bind_of_ok hrun, run_bind_of_ok hruns, hreports, ← List.append_assoc]
    rfl

theorem commonType_answers {t? : Option Ty} (h : Library.registry.commonType a b = .ok t?) :
    BindM.commonType a b (.standard config) s = (.ok t?, s) := by
  rw [commonType_run, show (BindSettings.standard config).registry.commonType a b = _ from h]
  rfl

theorem commonType_fails {e : CastError} (h : Library.registry.commonType a b = .error e) :
    BindM.commonType a b (.standard config) s = (.error (.cast e), s) := by
  rw [commonType_run, show (BindSettings.standard config).registry.commonType a b = _ from h]
  rfl

theorem commonElementType_finds {common : Ty}
    (h : Library.registry.commonOf a (elements.map (·.ty)) = .ok (some common)) :
    commonElementType a elements (.standard config) s = (.ok (.ok common), s) := by
  induction elements generalizing a with
  | nil =>
    cases h
    rfl
  | cons element rest ih =>
    rw [List.map_cons] at h
    match hnext : Library.registry.commonType a element.ty with
    | .error e =>
      rw [Registry.commonOf_cons_error hnext] at h
      cases h
    | .ok none =>
      rw [Registry.commonOf_cons_none hnext] at h
      cases h
    | .ok (some next) =>
      rw [Registry.commonOf_cons hnext] at h
      rw [commonElementType, run_bind_of_ok (commonType_answers config s hnext)]
      exact ih h

/-- Where the walk fails, so does the search for a component type. -/
theorem commonElementType_fails {e : CastError}
    (h : Library.registry.commonOf a (elements.map (·.ty)) = .error e) :
    commonElementType a elements (.standard config) s = (.error (.cast e), s) := by
  induction elements generalizing a with
  | nil => cases h
  | cons element rest ih =>
    rw [List.map_cons] at h
    match hnext : Library.registry.commonType a element.ty with
    | .error e' =>
      rw [Registry.commonOf_cons_error hnext] at h
      cases h
      rw [commonElementType, run_bind_of_error (commonType_fails config s hnext)]
    | .ok none =>
      rw [Registry.commonOf_cons_none hnext] at h
      cases h
    | .ok (some next) =>
      rw [Registry.commonOf_cons hnext] at h
      rw [commonElementType, run_bind_of_ok (commonType_answers config s hnext)]
      exact ih h

/-- Where the walk ends early, the element is reported that it does not get past. -/
theorem commonElementType_refuses
    (h : Library.registry.commonOf a (elements.map (·.ty)) = .ok none) :
    ∃ current, ∃ element ∈ elements, Library.registry.commonType current element.ty = .ok none ∧
      commonElementType a elements (.standard config) s =
        (.ok (.error (.failure (conflictMessage current element) element.span)),
          { s with diagnostics := s.diagnostics ++ [conflict current element] }) := by
  induction elements generalizing a with
  | nil => cases h
  | cons element rest ih =>
    rw [List.map_cons] at h
    match hnext : Library.registry.commonType a element.ty with
    | .error e =>
      rw [Registry.commonOf_cons_error hnext] at h
      cases h
    | .ok none =>
      rw [commonElementType, run_bind_of_ok (commonType_answers config s hnext)]
      exact ⟨a, element, List.mem_cons_self, hnext, rfl⟩
    | .ok (some next) =>
      rw [Registry.commonOf_cons hnext] at h
      rw [commonElementType, run_bind_of_ok (commonType_answers config s hnext)]
      obtain ⟨current, failed, hmem, hnone, hrun⟩ := ih h
      exact ⟨current, failed, List.mem_cons_of_mem _ hmem, hnone, hrun⟩

theorem arrayOf_run (component : Ty) :
    ∃ t workspace, arrayOf component (.standard config) s = (.ok t, { s with workspace }) ∧
      ArrayTy component t :=
  ⟨_, _, rfl, (s.workspace.space s.owner.space).arrayOf_fst component⟩

/-- What becomes of an initializer of the elements, by its component type.  Without one it is
refused, at an element that has no common type with those before it.  With one it is an array, and
what stands in it for an element is the element converted, or an error node that was reported if the
types are apart. -/
inductive Initialized (node : SyntaxNode) (elements : List BoundNode) (s : BindState) :
    Option Ty → BoundNode → BindState → Prop
  | refused {current : Ty} {element : BoundNode} {s' : BindState} (hmem : element ∈ elements)
      (hnone : Library.registry.commonType current element.ty = .ok none)
      (hreports : s'.diagnostics = s.diagnostics ++ [conflict current element]) :
      Initialized node elements s none
        (.failure (conflictMessage current element) element.span) s'
  | array {component t : Ty} {converted : List BoundNode} {s' : BindState}
      (hty : ArrayTy component t)
      (hconverted : List.Forall₂ (StandsFor Library.registry component) elements converted)
      (hreports : s'.diagnostics = s.diagnostics ++ mismatches component elements) :
      Initialized node elements s (some component) ⟨.arrayInit converted, t, node.span⟩ s'

/-- An array without error nodes among its elements, and nothing reported. -/
structure Accepted (s : BindState) (n : BoundNode) (s' : BindState) : Prop where
  bound : ∃ converted, n.shape = .arrayInit converted ∧ AllBound converted
  silent : s'.diagnostics = s.diagnostics

theorem isError_of_standFor {converted : List BoundNode} (hbound : AllBound elements)
    (h : List.Forall₂ (StandsFor Library.registry component) elements converted) :
    converted.map (·.isError) = elements.map (·.ty.isApart component) := by
  induction h with
  | nil => rfl
  | @cons element n _ _ hn _ ih =>
    have hrest := ih fun e he => hbound e (List.mem_cons_of_mem _ he)
    rw [List.map_cons, List.map_cons, hrest]
    congr 1
    cases hn with
    | converted hapart => rw [hapart, wrap_isError (hbound element List.mem_cons_self)]
    | refused hapart hn => rw [hapart, hn]

variable {s} in
/-- An initializer is accepted just if none of its elements is apart from its component type. -/
theorem Initialized.accepted_iff {node : SyntaxNode} {component? : Option Ty} {n : BoundNode}
    {s' : BindState} (hbound : AllBound elements)
    (h : Initialized node elements s component? n s') :
    Accepted s n s' ↔
      ∃ component ∈ component?, ∀ element ∈ elements, element.ty.isApart component = false := by
  cases h with
  | refused =>
    constructor
    · rintro ⟨⟨converted, hshape, -⟩, -⟩
      cases hshape
    · rintro ⟨component, hcomponent, -⟩
      cases hcomponent
  | @array component t converted _ _ hconverted hreports =>
    have hall : AllBound converted ↔
        ∀ element ∈ elements, element.ty.isApart component = false := by
      have hflags : (∀ flag ∈ converted.map (·.isError), flag = false) ↔
          ∀ flag ∈ elements.map (·.ty.isApart component), flag = false := by
        rw [isError_of_standFor hbound hconverted]
      rwa [List.forall_mem_map, List.forall_mem_map] at hflags
    constructor
    · rintro ⟨⟨_, hshape, hbound⟩, -⟩
      cases hshape
      exact ⟨component, rfl, hall.1 hbound⟩
    · rintro ⟨_, hcomponent, hnone⟩
      obtain rfl := Option.some.inj hcomponent
      have hempty : elements.filter (·.ty.isApart component) = [] :=
        List.filter_eq_nil_iff.2 fun element hmem => by simp [hnone element hmem]
      refine ⟨⟨converted, rfl, hall.2 hnone⟩, ?_⟩
      rw [hreports, mismatches, hempty, List.map_nil, List.append_nil]

theorem buildArray_initialized (node : SyntaxNode) (common : Ty) (hbound : AllBound elements)
    (hconverts : ∀ element ∈ elements, Library.registry.Converts element.ty common.orRoot ↔
      element.ty.isApart common.orRoot = false) :
    ∃ n s', buildArray node elements common (.standard config) s = (.ok n, s') ∧
      Initialized node elements s (some common.orRoot) n s' := by
  obtain ⟨converted, hrun, hconverted⟩ := coerceElements_standFor config s hbound hconverts
  let s₁ := { s with diagnostics := s.diagnostics ++ mismatches common.orRoot elements }
  obtain ⟨t, workspace, hrunArray, ht⟩ := arrayOf_run config s₁ common.orRoot
  refine ⟨_, { s₁ with workspace }, ?_, .array ht hconverted rfl⟩
  exact (run_bind_of_ok hrun).trans (run_bind_of_ok hrunArray)

end Binding

/-- An initializer with a component type is accepted up to the elements whose types are apart from
it: every other element is converted, and nothing else is reported.  Without a component type the
initializer is refused with one report.  It is not bound only where the walk itself fails, as the
distances to a common type do not fit. -/
theorem array_initializer_converts_unless_apart {P : Program} {config : Config} {s s₁ : BindState}
    {nodes : List SyntaxNode} {elements : List BoundNode} (hO : Ty.PlainlyExtended O)
    (hP : P.TypesIn O) (hs : s.Knows P O)
    (helements : bindAll (childrenOf nodes) (.standard config) s = (.ok elements, s₁))
    (hbound : AllBound elements) (node : SyntaxNode) :
    (∃ component? n s', Library.registry.componentOf (elements.map (·.ty)) = .ok component? ∧
      bindArrayInit node (childrenOf nodes) (.standard config) s = (.ok n, s') ∧
      Initialized node elements s₁ component? n s' ∧
      (Accepted s₁ n s' ↔
        ∃ component ∈ component?, ∀ element ∈ elements, element.ty.isApart component = false)) ∨
    Library.registry.componentOf (elements.map (·.ty)) = .error .overflow ∧
      bindArrayInit node (childrenOf nodes) (.standard config) s =
        (.error (.cast .overflow), s₁) := by
  have htypes : ∀ t ∈ elements.map (·.ty), O t := by
    have hstay := bindAll_stays (childrenOf_stay (hP.standard config) nodes)
    exact List.forall_mem_map.2 fun element hmem => ((hstay.run hs helements).2 element hmem).ty
  have hany : ¬(elements.any (·.isError)) = true := by
    intro hany
    obtain ⟨element, hmem, herror⟩ := List.any_eq_true.1 hany
    rw [hbound element hmem] at herror
    cases herror
  -- When it is accepted follows from what it is initialized as, whichever way that is reached.
  rsuffices ⟨component?, n, s', hcomponent, hrun, hn⟩ | hfails : (∃ component? n s',
      Library.registry.componentOf (elements.map (·.ty)) = .ok component? ∧
        bindArrayInit node (childrenOf nodes) (.standard config) s = (.ok n, s') ∧
        Initialized node elements s₁ component? n s') ∨
      Library.registry.componentOf (elements.map (·.ty)) = .error .overflow ∧
        bindArrayInit node (childrenOf nodes) (.standard config) s =
          (.error (.cast .overflow), s₁)
  · exact .inl ⟨component?, n, s', hcomponent, hrun, hn, hn.accepted_iff hbound⟩
  · exact .inr hfails
  rw [bindArrayInit, run_bind_of_ok helements, if_neg hany]
  cases elements with
  | nil =>
    obtain ⟨n, s', hrun, hn⟩ :=
      buildArray_initialized config s₁ node .object hbound (List.forall_mem_nil _)
    exact .inl ⟨some .object, n, s', rfl, hrun, hn⟩
  | cons first rest =>
    match hcommon : Library.registry.commonOf first.ty (rest.map (·.ty)) with
    | .error e =>
      obtain rfl := Library.registry_answers.trusts.commonOf hcommon
      refine .inr ⟨Registry.componentOf_cons_error hcommon, ?_⟩
      exact run_bind_of_error (commonElementType_fails config s₁ hcommon)
    | .ok none =>
      obtain ⟨current, element, hmem, hnone, hrun⟩ :=
        commonElementType_refuses config s₁ hcommon
      refine .inl ⟨none, _, { s₁ with diagnostics := s₁.diagnostics ++ [conflict current element] },
        Registry.componentOf_cons hcommon, ?_, .refused (List.mem_cons_of_mem _ hmem) hnone rfl⟩
      dsimp only
      rw [run_bind_of_ok hrun]
      rfl
    | .ok (some common) =>
      have hcomponent := Registry.componentOf_cons hcommon
      have hconverts := List.forall_mem_map.1 (hO.converts_componentOf htypes hcomponent)
      obtain ⟨n, s', hrun, hn⟩ := buildArray_initialized config s₁ node common hbound hconverts
      refine .inl ⟨_, n, s', hcomponent, ?_, hn⟩
      dsimp only
      rw [run_bind_of_ok (commonElementType_finds config s₁ hcommon)]
      exact hrun

namespace Documents

theorem super_plain {t u : Ty} (ht : Ty.Over types t) (hu : u ∈ t.supers) : u.isPlain := by
  rcases Ty.isDeclared_or_number_of_super hu with hdeclared | rfl
  · have hall : ∀ t ∈ types, ∀ u ∈ t.supers, u.isPlain := by decide +kernel
    refine hall t ?_ u hu
    cases t with
    | record | interface => exact ht.mem_own rfl fun hid => by cases hid
    | _ => cases hdeclared
  · rfl

theorem plainlyExtended : Ty.PlainlyExtended (Ty.Over types) :=
  ⟨⟨uniform.toClosed, Ty.Over.eq_of_key distinctKeys⟩, super_plain⟩

end Documents

open Documents in
/-- A document, nothing, and a document as one of its interfaces: all convert to the interface. -/
theorem array_initializer_converts_documents :
    let s := typesOnly types
    let nodes := [nullAs "Invoice", .null, nullAs "Printable"]
    Ty.PlainlyExtended (Ty.Over types) ∧ s.program.TypesIn (Ty.Over types) ∧
      s.Knows s.program (Ty.Over types) ∧
      ∃ elements s₁ component n s',
        bindAll (childrenOf nodes) (.standard .standard) s = (.ok elements, s₁) ∧
        AllBound elements ∧
        Library.registry.componentOf (elements.map (·.ty)) = .ok (some component) ∧
        component.key = printable.key ∧
        bindArrayInit (.arrayInit nodes) (childrenOf nodes) (.standard .standard) s = (.ok n, s') ∧
        Accepted s₁ n s' := by
  intro s nodes
  -- The elements are bound, and none of their types is apart from the interface.
  have hparts : answersWith (bindAll (childrenOf nodes)) (.standard .standard) s
      (fun elements _ => elements.all (!·.isError) &&
        (Library.registry.componentOf (elements.map (·.ty))).map (·.map fun component =>
            (component.key, elements.any (·.ty.isApart component))) =
          .ok (some (printable.key, false))) = true := by
    decide +kernel
  obtain ⟨elements, s₁, helements, htest⟩ := eq_ok_of_answersWith hparts
  simp only [Bool.and_eq_true, List.all_eq_true, Bool.not_eq_true', decide_eq_true_eq] at htest
  obtain ⟨hbound, hview⟩ := htest
  obtain ⟨component?, n, s', hcomponent, hrun, -, haccepted⟩ | ⟨hfails, -⟩ :=
    array_initializer_converts_unless_apart plainlyExtended uniform.toTypesIn
      (typesOnly_knows types _) helements hbound (.arrayInit nodes)
  case inr =>
    rw [hfails] at hview
    cases hview
  rw [hcomponent] at hview
  obtain ⟨component, rfl, hpair⟩ := Option.map_eq_some_iff.1 (Except.ok.inj hview)
  obtain ⟨hkey, hnone⟩ := Prod.mk.inj hpair
  refine ⟨plainlyExtended, uniform.toTypesIn, typesOnly_knows types _, elements, s₁, component, n,
    s', helements, hbound, hcomponent, hkey, hrun,
    haccepted.2 ⟨component, rfl, fun element hmem => ?_⟩⟩
  simpa using List.any_eq_false.1 hnone element hmem

/-- Which elements of an array initializer are error nodes. -/
def BoundNode.refusals? (n : BoundNode) : Option (List Bool) :=
  match n.shape with
  | .arrayInit elements => some (elements.map (·.isError))
  | _ => none

/-- The nodes initialize an array of the component type, with a report for each of the elements that
are refused. -/
def InitializesAs (nodes : List SyntaxNode) (component : Ty) (refusals : List Bool) : Prop :=
  ∃ n s', bind (.arrayInit nodes) (.standard .standard) (typesOnly []) = (.ok n, s') ∧
    n.ty.key = (Ty.array component).key ∧ n.refusals? = some refusals ∧
    s'.diagnostics.length = refusals.count true

theorem initializesAs_of_answersWith {nodes : List SyntaxNode} {refusals : List Bool}
    (h : answersWith (bind (.arrayInit nodes)) (.standard .standard) (typesOnly []) (fun n s' =>
      n.ty.key = (Ty.array component).key && n.refusals? = some refusals &&
        s'.diagnostics.length = refusals.count true) = true) :
    InitializesAs nodes component refusals := by
  obtain ⟨n, s', hrun, htest⟩ := eq_ok_of_answersWith h
  simp only [Bool.and_eq_true, decide_eq_true_eq] at htest
  exact ⟨n, s', hrun, htest.1.1, htest.1.2, htest.2⟩

/-- Null in front of two numbers has no conversion to their common type.  Behind them it takes part
in finding the common type, which then has room for it.  And text and a truth value have no common
type, unless an object comes between them. -/
theorem initializer_depends_on_order :
    let one := SyntaxNode.int 1
    let two := SyntaxNode.long 2
    let text := SyntaxNode.string "a"
    let truth := SyntaxNode.boolean true
    (¬Library.registry.Converts .null (.primitive .long) ∧
      InitializesAs [.null, one, two] (.primitive .long) [true, false, false] ∧
      InitializesAs [one, two, .null] (.boxed .long) [false, false, false]) ∧
    InitializesAs [text, nullAs "Object", truth] .object [false, false, false] ∧
    ∃ n s', bind (.arrayInit [text, truth, nullAs "Object"]) (.standard .standard) (typesOnly []) =
      (.ok n, s') ∧ n.isError ∧ s'.diagnostics.length = 1 := by
  intro one two text truth
  refine ⟨⟨by decide +kernel, ?_, ?_⟩, ?_, ?_⟩
  · exact initializesAs_of_answersWith (by decide +kernel)
  · exact initializesAs_of_answersWith (by decide +kernel)
  · exact initializesAs_of_answersWith (by decide +kernel)
  · have hrun : answersWith (bind (.arrayInit [text, truth, nullAs "Object"])) (.standard .standard)
        (typesOnly []) (fun n s' => n.isError && s'.diagnostics.length = 1) = true := by
      decide +kernel
    obtain ⟨n, s', hrun, htest⟩ := eq_ok_of_answersWith hrun
    obtain ⟨herror, hlength⟩ := Bool.and_eq_true_iff.1 htest
    exact ⟨n, s', hrun, herror, of_decide_eq_true hlength⟩

end RuleExpr
