import RuleExpr.Proofs.Cast.Separation
import RuleExpr.Proofs.Overload
import RuleExpr.Proofs.ReportedFailures

/-!
# Calls of Own Methods

A free call is resolved among the methods of the module, those it imports and the operators of the
library.  If some of these take the arguments as they are, resolution ends with exactly these: a
method that needs a conversion is farther away.  Among the methods of a module and its imports
there is one for each key that the module declares once, since an own method hides the imported
ones of its key.

It does not hide the operators.  An own method with the key of an operator ties with it, and the
call is ambiguous, whichever of the two was meant.
-/

namespace RuleExpr

open BindM BindState

namespace Overload

variable {r : Registry} {name : String} {arguments : List Ty}

/-- The selection of a method that takes the arguments as they are. -/
def exactly (arguments : List Ty) (method : Method) : Selection :=
  ⟨method, arguments.map .identity, 0⟩

@[simp]
theorem distance_exactly (arguments : List Ty) (method : Method) :
    (exactly arguments method).distance = 0 := rfl

/-- The methods that take the arguments as they are. -/
def exactMatches (candidates : List Method) (name : String) (arguments : List Ty) : List Method :=
  candidates.filter (·.key = ⟨name, arguments.map Ty.key⟩)

theorem convertArguments_exact {params : List Ty} (h : params.map Ty.key = arguments.map Ty.key) :
    convertArguments r arguments params = .ok (some (arguments.map .identity)) := by
  induction arguments generalizing params with
  | nil =>
    rw [List.map_nil, List.map_eq_nil_iff] at h
    rw [h]
    rfl
  | cons argument arguments ih =>
    cases params with
    | nil => cases h
    | cons param params =>
      obtain ⟨hkey, hkeys⟩ := List.cons.inj h
      have hcast : r.implicitCast argument param = .ok (some (.identity argument)) :=
        if_pos hkey.symm
      rw [convertArguments, hcast]
      simp only [ih hkeys]
      rfl

theorem convertArguments_answers (hr : r.Separates) (arguments params : List Ty) :
    ∃ casts?, convertArguments r arguments params = .ok casts? := by
  induction arguments generalizing params with
  | nil => exact ⟨some [], rfl⟩
  | cons argument arguments ih =>
    cases params with
    | nil => exact ⟨some [], rfl⟩
    | cons param params =>
      obtain ⟨cast?, hcast⟩ := hr.answers argument param
      obtain ⟨casts?, hcasts⟩ := ih params
      rw [convertArguments, hcast]
      cases cast? with
      | none => exact ⟨none, rfl⟩
      | some cast =>
        simp only [hcasts]
        exact ⟨casts?.map (cast :: ·), rfl⟩

theorem addSaturating_pos {a b : Nat} (h : 0 < a ∨ 0 < b) : 0 < Distance.addSaturating a b := by
  unfold Distance.addSaturating Distance.limit
  omega

/-- A sum that saturates does not fall back to zero. -/
theorem foldl_addSaturating_pos {casts : List Cast} {start : Nat}
    (h : 0 < start ∨ ∃ cast ∈ casts, 0 < cast.distance) :
    0 < casts.foldl (fun total cast => Distance.addSaturating total cast.distance) start := by
  induction casts generalizing start with
  | nil => simpa using h
  | cons cast casts ih =>
    apply ih
    rcases h with hstart | ⟨costly, hmem, hpos⟩
    · exact .inl (addSaturating_pos (.inl hstart))
    · rcases List.mem_cons.1 hmem with rfl | hmem
      · exact .inl (addSaturating_pos (.inr hpos))
      · exact .inr ⟨costly, hmem, hpos⟩

theorem totalDistance_pos {casts : List Cast} (h : ∃ cast ∈ casts, 0 < cast.distance) :
    0 < totalDistance casts :=
  foldl_addSaturating_pos (.inr h)

theorem totalDistance_identities (types : List Ty) : totalDistance (types.map .identity) = 0 := by
  unfold totalDistance
  induction types with
  | nil => rfl
  | cons t types ih => exact ih

theorem Converts.costs (hr : r.Separates) {params : List Ty} {casts : List Cast}
    (h : Converts r arguments params casts) (hkeys : params.map Ty.key ≠ arguments.map Ty.key) :
    ∃ cast ∈ casts, 0 < cast.distance := by
  induction h with
  | nil => exact absurd rfl hkeys
  | @cons argument param cast arguments params casts hcast hcasts ih =>
    by_cases hkey : argument.key = param.key
    · have hrest : params.map Ty.key ≠ arguments.map Ty.key := by
        intro hsame
        exact hkeys (by rw [List.map_cons, List.map_cons, hkey, hsame])
      obtain ⟨costly, hmem, hpos⟩ := ih hrest
      exact ⟨costly, List.mem_cons_of_mem _ hmem, hpos⟩
    · exact ⟨cast, List.mem_cons_self, hr.costs hcast hkey⟩

theorem select?_exact {method : Method} (h : method.key = ⟨name, arguments.map Ty.key⟩) :
    select? r name arguments method = .ok (some (exactly arguments method)) := by
  obtain ⟨hname, hparams⟩ : method.name = name ∧ method.params.map Ty.key = arguments.map Ty.key :=
    MethodKey.mk.inj h
  have harity : method.params.length = arguments.length := by
    simpa using congrArg List.length hparams
  rw [select?, if_pos ⟨hname, harity⟩, convertArguments_exact hparams]
  change Except.ok (some (⟨method, _, totalDistance _⟩ : Selection)) = _
  rw [totalDistance_identities]
  rfl

/-- A method of another key is not applicable or has a conversion to pay for. -/
theorem select?_other (hr : r.Separates) {method : Method}
    (h : method.key ≠ ⟨name, arguments.map Ty.key⟩) :
    ∃ selection?, select? r name arguments method = .ok selection? ∧
      ∀ selection ∈ selection?, 0 < selection.distance := by
  unfold select?
  split
  case isTrue happlies =>
    obtain ⟨casts?, hcasts⟩ := convertArguments_answers hr arguments method.params
    rw [hcasts]
    refine ⟨_, rfl, ?_⟩
    intro selection hselection
    obtain ⟨casts, rfl, rfl⟩ := Option.map_eq_some_iff.1 hselection
    have hkeys : method.params.map Ty.key ≠ arguments.map Ty.key := by
      intro hsame
      exact h (congrArg₂ MethodKey.mk happlies.1 hsame)
    exact totalDistance_pos ((converts_of_convertArguments happlies.2 hcasts).costs hr hkeys)
  case isFalse => exact ⟨none, rfl, by simp⟩

/-- What is kept of the candidates so far: the exact matches among them, if there are any, else
only selections with conversions to pay for. -/
inductive Keeps (arguments : List Ty) : List Method → List Selection → Prop
  | inexact {best : List Selection} (h : ∀ selection ∈ best, 0 < selection.distance) :
      Keeps arguments [] best
  | exact (first : Method) (rest : List Method) :
      Keeps arguments (first :: rest) ((first :: rest).map (exactly arguments))

variable {found : List Method} {best : List Selection}

theorem Keeps.add_exact (h : Keeps arguments found best) (method : Method) :
    Keeps arguments (found ++ [method]) (keepNearest best (exactly arguments method)) := by
  cases h with
  | inexact h =>
    have hkept : keepNearest best (exactly arguments method) = [exactly arguments method] := by
      cases best with
      | nil => rfl
      | cons current others =>
        have hpos := h current List.mem_cons_self
        rw [keepNearest, distance_exactly, if_neg (Nat.not_lt_zero _),
          if_neg (Nat.ne_of_lt hpos)]
    rw [hkept]
    exact .exact method []
  | exact first rest =>
    have hkept : keepNearest ((first :: rest).map (exactly arguments)) (exactly arguments method) =
        (first :: (rest ++ [method])).map (exactly arguments) := by
      simp [keepNearest]
    rw [hkept]
    exact .exact first (rest ++ [method])

theorem Keeps.add_other (h : Keeps arguments found best) {selection : Selection}
    (hpos : 0 < selection.distance) : Keeps arguments found (keepNearest best selection) := by
  cases h with
  | inexact h =>
    refine .inexact fun kept hkept => ?_
    rcases mem_keepNearest hkept with hold | rfl
    · exact h kept hold
    · exact hpos
  | exact first rest =>
    have hkept : keepNearest ((first :: rest).map (exactly arguments)) selection =
        (first :: rest).map (exactly arguments) := by
      rw [List.map_cons, keepNearest, distance_exactly, if_pos hpos]
    rw [hkept]
    exact .exact first rest

/-- Going through further candidates adds the exact matches among them. -/
theorem nearest_keeps (hr : r.Separates) (candidates : List Method)
    (h : Keeps arguments found best) :
    ∃ result, nearest r name arguments candidates best = .ok result ∧
      Keeps arguments (found ++ exactMatches candidates name arguments) result := by
  induction candidates generalizing found best with
  | nil => exact ⟨best, rfl, by simpa [exactMatches] using h⟩
  | cons method rest ih =>
    rw [nearest]
    by_cases hkey : method.key = ⟨name, arguments.map Ty.key⟩
    · rw [select?_exact hkey, exactMatches, List.filter_cons_of_pos (by simpa using hkey),
        List.append_cons]
      exact ih (h.add_exact method)
    · rw [exactMatches, List.filter_cons_of_neg (by simpa using hkey)]
      obtain ⟨selection?, hselect, hpos⟩ := select?_other hr hkey
      rw [hselect]
      cases selection? with
      | none => exact ih h
      | some selection => exact ih (h.add_other (hpos selection rfl))

/-- If some candidates take the arguments as they are, one of them is found if it is the only one,
and else they are ambiguous. -/
theorem resolve_exact (hr : r.Separates) {candidates : List Method} {first : Method}
    {rest : List Method} (h : exactMatches candidates name arguments = first :: rest) :
    resolve r candidates name arguments = .ok (match rest with
      | [] => .found (exactly arguments first)
      | _ => .ambiguous (first :: rest)) := by
  have hnone : Keeps arguments [] [] := .inexact (by simp)
  obtain ⟨result, hnearest, hkeeps⟩ : ∃ result,
      nearest r name arguments candidates [] = .ok result ∧
      Keeps arguments ([] ++ exactMatches candidates name arguments) result :=
    nearest_keeps hr candidates hnone
  rw [List.nil_append, h] at hkeeps
  cases hkeeps
  rw [resolve, hnearest]
  cases rest with
  | nil => rfl
  | cons second others =>
    change Except.ok (Resolution.ambiguous _) = _
    simp [exactly, Function.comp_def]

end Overload

/-- Methods of one key have one name. -/
theorem filter_key_filter_name (methods : List Method) (f : Method) :
    (methods.filter (·.name = f.name)).filter (·.key = f.key) =
      methods.filter (·.key = f.key) := by
  rw [List.filter_filter]
  apply List.filter_congr
  intro g _
  by_cases hkey : g.key = f.key
  · have hname : g.name = f.name := congrArg MethodKey.name hkey
    simp [hkey, hname]
  · simp [hkey]

/-- An own method hides what is imported under its key. -/
theorem RuleModule.filter_methodsNamed {m : RuleModule} {f : Method} (hown : f ∈ m.methods) :
    (m.methodsNamed f.name).filter (·.key = f.key) = m.methods.filter (·.key = f.key) := by
  have hhides : (m.methods.filter (·.name = f.name)).any (·.key = f.key) = true := by
    simp only [List.any_filter, List.any_eq_true, Bool.and_eq_true, decide_eq_true_iff]
    exact ⟨f, hown, rfl, rfl⟩
  unfold methodsNamed
  rw [List.filter_append, filter_key_filter_name]
  rw [List.append_right_eq_self, List.filter_eq_nil_iff]
  intro g hg hkey
  have hvisible := (Bool.and_eq_true_iff.1 (List.mem_filter.1 hg).2).2
  rw [of_decide_eq_true hkey, hhides] at hvisible
  cases hvisible

/-- A method that is the only own one of its key. -/
structure RuleModule.DeclaresOnce (m : RuleModule) (f : Method) : Prop where
  own : f ∈ m.methods
  once : (m.methods.map Method.key).count f.key = 1

theorem RuleModule.DeclaresOnce.filter_eq {m : RuleModule} {f : Method} (h : m.DeclaresOnce f) :
    m.methods.filter (·.key = f.key) = [f] := by
  have hlength : (m.methods.filter (·.key = f.key)).length = 1 := by
    rw [← h.once, List.count, List.countP_map, List.countP_eq_length_filter]
    rfl
  have hmem : f ∈ m.methods.filter (·.key = f.key) := List.mem_filter.2 ⟨h.own, by simp⟩
  obtain ⟨g, hg⟩ := List.length_eq_one_iff.1 hlength
  rw [hg] at hmem ⊢
  rw [List.mem_singleton.1 hmem]

/-- Of the candidates of a call with exactly the parameters of an own method, that method and the
operators of its key match exactly. -/
theorem exactMatches_candidates {m : RuleModule} {f : Method} (h : m.DeclaresOnce f)
    {arguments : List Ty} (hexact : arguments.map Ty.key = f.params.map Ty.key) :
    Overload.exactMatches (m.methodsNamed f.name ++ Library.operatorsNamed f.name) f.name
      arguments = f :: Library.operators.filter (·.key = f.key) := by
  have hkey : (⟨f.name, arguments.map Ty.key⟩ : MethodKey) = f.key :=
    congrArg (MethodKey.mk f.name) hexact
  rw [Overload.exactMatches, hkey, List.filter_append, RuleModule.filter_methodsNamed h.own,
    h.filter_eq, Library.operatorsNamed, filter_key_filter_name, List.singleton_append]

/-- The call of a method with arguments that need no conversion. -/
def plainCall (f : Method) (arguments : List BoundNode) (span : Span) : BoundNode :=
  ⟨if f.head.kind = .constructor then .constructor f arguments else .methodCall f none arguments,
    f.returns, span⟩

variable {σ : BindSettings} {s s₁ : BindState}

theorem wrap_identities (arguments : List BoundNode) :
    (arguments.zip ((arguments.map (·.ty)).map Cast.identity)).map
      (fun (argument, cast) => argument.wrap cast) = arguments := by
  induction arguments with
  | nil => rfl
  | cons argument arguments ih =>
    simp only [List.map_cons, List.zip_cons_cons, ih]
    rfl

theorem reportDeprecation_ok (method : Method) (span : Span) :
    ∃ s', reportDeprecation method span σ s = (.ok (), s') ∧ s.Silent s' := by
  have hok : (reportDeprecation method span σ s).1 = .ok () := by
    unfold reportDeprecation
    cases method.head.deprecated with
    | none => rfl
    | some note =>
      dsimp only
      rw [run_bind_of_ok (read_eq_ok.2 ⟨rfl, rfl⟩)]
      split <;> rfl
  exact ⟨_, Prod.ext hok rfl, reportDeprecation_silent method span σ s⟩

theorem resolve_eq (s : BindState) {r : Resolution} {candidates : List Method} {name : String}
    {types : List Ty} (h : Overload.resolve σ.registry candidates name types = .ok r) :
    resolve candidates name types σ s = (.ok r, s) := by
  rw [resolve, run_bind_of_ok (read_eq_ok.2 ⟨rfl, rfl⟩)]
  exact ofCast_eq_ok.2 ⟨h, rfl⟩

/-- A method that alone takes the arguments as they are is called with them as they are. -/
theorem callResolved_exact (hσ : σ.registry.Separates) {candidates : List Method} {f : Method}
    {name : String} {arguments : List BoundNode} (span : Span)
    (h : Overload.exactMatches candidates name (arguments.map (·.ty)) = [f]) :
    ∃ s', callResolved candidates name none arguments span σ s =
      (.ok (plainCall f arguments span), s') ∧ s.Silent s' := by
  obtain ⟨s', hreport, hsilent⟩ : ∃ s', reportDeprecation f span σ s = (.ok (), s') ∧ s.Silent s' :=
    reportDeprecation_ok f span
  refine ⟨s', ?_, hsilent⟩
  rw [callResolved, run_bind_of_ok (resolve_eq s (Overload.resolve_exact hσ h))]
  simp only [buildCall, ite_self]
  change (reportDeprecation f span >>= _) σ s = _
  rw [run_bind_of_ok hreport]
  simp only [Overload.exactly, wrap_identities]
  rfl

/-- Several methods that take the arguments as they are make the call ambiguous. -/
theorem callResolved_ambiguous (hσ : σ.registry.Separates) {candidates rest : List Method}
    {first second : Method} {name : String} {arguments : List BoundNode} (span : Span)
    (h : Overload.exactMatches candidates name (arguments.map (·.ty)) = first :: second :: rest) :
    ∃ message, callResolved candidates name none arguments span σ s =
      (.ok (.failure message span), { s with
        diagnostics := s.diagnostics ++ [.ofError .ambiguousMethod message (some span)] }) := by
  exact ⟨_, run_bind_of_ok (resolve_eq s (Overload.resolve_exact hσ h))⟩

/-- A free call, bound in `s`, with arguments that have exactly the types of the parameters of the
own method `f`. -/
structure CallsOwn (σ : BindSettings) (s : BindState) (call : SyntaxNode) (f : Method)
    (arguments : List BoundNode) (s₁ : BindState) : Prop where
  kind : call.kind = .methodCall
  name : call.text = f.name
  nesting : s.depth < σ.config.maxBindDepth
  declares : s.owner.DeclaresOnce f
  binds : bindAll (childrenOf call.children) σ { s with depth := s.depth + 1 } = (.ok arguments, s₁)
  bound : ∀ argument ∈ arguments, argument.isError = false
  exact : arguments.map (·.ty.key) = f.params.map Ty.key

theorem findMethods_eq (name : String) :
    findMethods name σ s = (.ok (s.owner.methodsNamed name ++ Library.operatorsNamed name), s) :=
  rfl

/-- Binding children leaves the module as it is. -/
theorem bindAll_keeps_program {children : List SyntaxNode} {bound : List BoundNode}
    (h : bindAll (childrenOf children) σ s = (.ok bound, s₁)) : s₁.program = s.program := by
  have haccount : ChildrenAccount σ (fun _ _ => True) (childrenOf children) :=
    fun child hchild => (childrenOf_account _ child hchild).2.mono fun _ _ _ => trivial
  exact (bindAll_accounts haccount h).1.program

theorem CallsOwn.program_eq {call : SyntaxNode} {f : Method} {arguments : List BoundNode}
    (h : CallsOwn σ s call f arguments s₁) : s₁.program = s.program := by
  rw [bindAll_keeps_program h.binds]
  rfl

/-- What a call of an own method comes to after its arguments are bound. -/
theorem CallsOwn.bind_eq {call : SyntaxNode} {f : Method} {arguments : List BoundNode}
    (h : CallsOwn σ s call f arguments s₁) {r : Except BindError BoundNode} {s₂ : BindState}
    (hresolved : callResolved (s.owner.methodsNamed f.name ++ Library.operatorsNamed f.name) f.name
      none arguments call.span σ s₁ = (r, s₂)) :
    bind call σ s = (r, { s₂ with depth := s₂.depth - 1 }) := by
  have hbound : arguments.any (·.isError) = false := by
    rw [List.any_eq_false]
    exact fun argument hargument => by simp [h.bound argument hargument]
  have hmethods : s₁.owner.methodsNamed f.name = s.owner.methodsNamed f.name :=
    congrArg (fun program => program.methodsNamed f.name) h.program_eq
  have hcall : bindKind call (childrenOf call.children) σ { s with depth := s.depth + 1 } =
      (r, s₂) := by
    rw [bindKind, h.kind]
    dsimp only
    rw [bindMethodCall, run_bind_of_ok h.binds, hbound, if_neg Bool.false_ne_true,
      run_bind_of_ok (findMethods_eq _), h.name, hmethods]
    exact hresolved
  obtain ⟨kind, text?, children, span⟩ := call
  rw [bind]
  exact nested_of_lt h.nesting hcall

/-- In every context, a call with exactly the parameters of a method that the module declares once
is bound to that method, without conversions and without errors, unless an operator of the library
has its key; then the call is ambiguous.  It does not matter what is imported or how the method is
called, as long as the casts tell types apart, as those of the standard registry do. -/
theorem bind_callsOwn :
    Library.registry.Separates ∧
    ∀ ⦃σ : BindSettings⦄ ⦃s s₁ : BindState⦄ ⦃call : SyntaxNode⦄ ⦃f : Method⦄
      ⦃arguments : List BoundNode⦄, σ.registry.Separates → CallsOwn σ s call f arguments s₁ →
      ((∀ op ∈ Library.operators, op.key ≠ f.key) →
        ∃ s', bind call σ s = (.ok (plainCall f arguments call.span), s') ∧ s₁.Silent s') ∧
      ((∃ op ∈ Library.operators, op.key = f.key) →
        ∃ message s', bind call σ s = (.ok (.failure message call.span), s') ∧
          s'.diagnostics =
            s₁.diagnostics ++ [.ofError .ambiguousMethod message (some call.span)]) := by
  refine ⟨Library.registry_separates, fun σ s s₁ call f arguments hσ h => ?_⟩
  have hexact : (arguments.map (·.ty)).map Ty.key = f.params.map Ty.key := by
    rw [List.map_map]
    exact h.exact
  have hmatches := exactMatches_candidates h.declares hexact
  constructor
  · intro hoperators
    have hnone : Library.operators.filter (·.key = f.key) = [] := by
      simpa [List.filter_eq_nil_iff] using hoperators
    rw [hnone] at hmatches
    obtain ⟨s', hcall, hsilent⟩ := callResolved_exact hσ call.span hmatches
    have hleft : s'.Silent { s' with depth := s'.depth - 1 } := .of_eq rfl rfl
    exact ⟨_, h.bind_eq hcall, trans_of Silent hsilent hleft⟩
  · rintro ⟨op, hop, hkey⟩
    obtain ⟨second, rest, hcons⟩ : ∃ second rest,
        Library.operators.filter (·.key = f.key) = second :: rest :=
      List.exists_cons_of_ne_nil (List.ne_nil_of_mem (List.mem_filter.2 ⟨hop, by simpa using hkey⟩))
    rw [hcons] at hmatches
    obtain ⟨message, hcall⟩ := callResolved_ambiguous hσ call.span hmatches
    exact ⟨message, _, h.bind_eq hcall, rfl⟩

namespace Price

/-- A static method that answers with a fixed number. -/
def method (id : Nat) (name : String) (params : List Ty) : Method :=
  .native ⟨id, name, params, .int, "Rules", .static, none⟩ fun _ _ => .ok (.int 7)

/-- Two own overloads, and an imported one with the key of the first. -/
def owner : RuleModule :=
  { RuleModule.empty "Rules" "rules" 0 with
    methods := [method 1 "price" [.int], method 2 "price" [.object]]
    importedMethods := [method 3 "price" [.int]]
    importsCurrent := true }

/-- An own method with the key of an operator. -/
def adder : RuleModule :=
  { RuleModule.empty "Rules" "rules" 0 with methods := [method 1 "add" [.int, .int]] }

def number (text : String) : SyntaxNode := .leaf (.literal .integer) text .nowhere

def argument (value : Int32) : BoundNode := ⟨.literal (.int value), .int, .nowhere⟩

end Price

/-- The own method for numbers is called, neither the imported one nor the one for all objects. -/
theorem bind_callsOwn_price :
    let σ : BindSettings := .standard .standard
    let s := start Price.owner .empty
    let call : SyntaxNode := ⟨.methodCall, some "price", [Price.number "3"], .nowhere⟩
    let f := Price.method 1 "price" [.int]
    CallsOwn σ s call f [Price.argument 3] { s with depth := 1 } ∧
    ∃ s', bind call σ s = (.ok (plainCall f [Price.argument 3] .nowhere), s') ∧
      ¬s.Reports s' := by
  intro σ s call f
  have hcalls : CallsOwn σ s call f [Price.argument 3] { s with depth := 1 } := {
    kind := rfl
    name := rfl
    nesting := by decide
    declares := ⟨List.mem_cons_self, by decide +kernel⟩
    binds := rfl
    bound := by simp [Price.argument, BoundNode.isError]
    exact := rfl }
  have hoperators : ∀ op ∈ Library.operators, op.key ≠ f.key := by decide +kernel
  obtain ⟨s', hbind, hsilent⟩ := (bind_callsOwn.2 Library.registry_separates hcalls).1 hoperators
  exact ⟨hcalls, s', hbind, hsilent.not_reports⟩

/-- The own method `add` of two numbers cannot be called. -/
theorem bind_callsOwn_ambiguous :
    let σ : BindSettings := .standard .standard
    let s := start Price.adder .empty
    let call : SyntaxNode :=
      ⟨.methodCall, some "add", [Price.number "1", Price.number "2"], .nowhere⟩
    let f := Price.method 1 "add" [.int, .int]
    (RuleModule.empty "Rules" "rules" 0).addMethod f = .ok Price.adder ∧
    CallsOwn σ s call f [Price.argument 1, Price.argument 2] { s with depth := 1 } ∧
    ∃ n s', bind call σ s = (.ok n, s') ∧ n.isError = true ∧ s.Reports s' := by
  intro σ s call f
  have hcalls : CallsOwn σ s call f [Price.argument 1, Price.argument 2] { s with depth := 1 } := {
    kind := rfl
    name := rfl
    nesting := by decide
    declares := ⟨List.mem_cons_self, by decide +kernel⟩
    binds := rfl
    bound := by simp [Price.argument, BoundNode.isError]
    exact := rfl }
  refine ⟨rfl, hcalls, ?_⟩
  have hcheck : answersWith (bind call) σ s
      (fun n s' => n.isError && s'.diagnostics.any (·.isError)) = true := by decide +kernel
  obtain ⟨n, s', hrun, htest⟩ := eq_ok_of_answersWith hcheck
  obtain ⟨hn, herrors⟩ := Bool.and_eq_true_iff.1 htest
  exact ⟨n, s', hrun, hn, s'.diagnostics, rfl, herrors⟩

end RuleExpr
