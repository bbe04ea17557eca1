import RuleExpr.Proofs.Cast.CommonType

/-!
# Copies of Types

A declaration may be made more than once, in several modules for instance, and its copies differ in
nothing but the numbers given to them.  `Ty.unnumbered` forgets the numbers.  Whatever conversions
look at is still there afterwards: keys, super-types, chains of superclasses and distances are those
of the type with its numbers, and so are the casts between two types, the targets that are named for
a type and the type of two branches, each up to numbers again.
-/

namespace RuleExpr

section Options

variable {α β γ : Type} {R : α → β → Prop} {x : Option α} {y : Option β}

/-- Options with equal images are related if equal images come from related contents. -/
theorem rel_of_map_eq {f : α → γ} {g : β → γ} (h : x.map f = y.map g)
    (hR : ∀ a ∈ x, ∀ b ∈ y, f a = g b → R a b) : Option.Rel R x y := by
  match x, y with
  | none, none => exact .none
  | some a, some b => exact .some (hR a rfl b rfl (Option.some.inj h))
  | none, some _ | some _, none => cases h

theorem isSome_eq_of_rel (h : Option.Rel R x y) : x.isSome = y.isSome := by
  cases h <;> rfl

end Options

/-- Two answers in `R`, or one failure. -/
inductive ExceptRel {ε α β : Type} (R : α → β → Prop) : Except ε α → Except ε β → Prop
  | ok {a : α} {b : β} (h : R a b) : ExceptRel R (.ok a) (.ok b)
  | error (e : ε) : ExceptRel R (.error e) (.error e)

theorem eq_error_of_map {ε α β : Type} {x : Except ε α} {f : α → β} {e : ε}
    (h : x.map f = .error e) : x = .error e := by
  cases x with
  | error => exact congrArg Except.error (Except.error.inj h)
  | ok => cases h

theorem exists_ok_of_map {ε α β : Type} {x : Except ε α} {f : α → β} {b : β}
    (h : x.map f = .ok b) : ∃ a, x = .ok a ∧ f a = b := by
  cases x with
  | error => cases h
  | ok a => exact ⟨a, rfl, Except.ok.inj h⟩

theorem exceptRel_of_map_eq {ε α β γ : Type} {R : α → β → Prop} {x : Except ε α} {y : Except ε β}
    {f : α → γ} {g : β → γ} (h : x.map f = y.map g)
    (hR : ∀ a b, x = .ok a → y = .ok b → f a = g b → R a b) : ExceptRel R x y := by
  match x, y with
  | .ok a, .ok b => exact .ok (hR a b rfl rfl (Except.ok.inj h))
  | .error e, .error _ =>
    cases h
    exact .error e
  | .ok _, .error _ | .error _, .ok _ => cases h

/-- Entries that are changed one by one are merged as before. -/
theorem Assoc.merge_map_entries {κ α β : Type} [DecidableEq κ] (f : α → β)
    (table extra : List (κ × α)) :
    merge (table.map (Prod.map id f)) (extra.map (Prod.map id f)) =
      (merge table extra).map (Prod.map id f) := by
  induction extra generalizing table with
  | nil => rfl
  | cons pair rest ih =>
    have hinsert : insertNew (table.map (Prod.map id f)) pair.1 (f pair.2) =
        (insertNew table pair.1 pair.2).map (Prod.map id f) := by
      have hcontains : contains (table.map (Prod.map id f)) pair.1 = contains table pair.1 := by
        simp [contains, Function.comp_def]
      unfold insertNew
      rw [hcontains]
      split
      · rfl
      · rw [List.map_append, List.map_singleton]
        rfl
    change merge (insertNew _ _ _) _ = (merge (insertNew _ _ _) _).map _
    rw [← ih, ← hinsert]
    rfl

namespace Ty

mutual

/-- The type with all numbers of declarations set to zero. -/
def unnumbered : Ty → Ty
  | record _ name supers => record 0 name (unnumberedAll supers)
  | interface _ name supers => interface 0 name (unnumberedAll supers)
  | collection _ name element => collection 0 name element.unnumbered
  | array component => array component.unnumbered
  | t => t

def unnumberedAll : List Ty → List Ty
  | [] => []
  | t :: rest => t.unnumbered :: unnumberedAll rest

end

/-- The same type, up to the numbers of the declarations in it. -/
def IsCopy (t u : Ty) : Prop := t.unnumbered = u.unnumbered

variable {O : Ty → Prop} {t u : Ty}

theorem unnumberedAll_eq_map (ts : List Ty) : unnumberedAll ts = ts.map unnumbered := by
  induction ts with
  | nil => rfl
  | cons t rest ih => rw [unnumberedAll, ih, List.map_cons]

/-- A type of the language itself has no number. -/
theorem unnumbered_builtin {key : TypeKey} (h : t.id? = some (.builtin key)) :
    t.unnumbered = t := by
  cases t <;> first | rfl | cases h

@[simp]
theorem elementName_unnumbered : ∀ t : Ty, t.unnumbered.elementName = t.elementName
  | array component => elementName_unnumbered component
  | primitive _ | boxed _ | bigInteger | bigDecimal | wrapper _ | string | object | number | list
  | null | void | error | record _ _ _ | interface _ _ _ | collection _ _ _ => rfl

@[simp]
theorem dimensions_unnumbered : ∀ t : Ty, t.unnumbered.dimensions = t.dimensions
  | array component => congrArg (· + 1) (dimensions_unnumbered component)
  | primitive _ | boxed _ | bigInteger | bigDecimal | wrapper _ | string | object | number | list
  | null | void | error | record _ _ _ | interface _ _ _ | collection _ _ _ => rfl

/-- Keys are made of names and dimensions. -/
@[simp]
theorem key_unnumbered (t : Ty) : t.unnumbered.key = t.key := by
  rw [key, elementName_unnumbered, dimensions_unnumbered]
  rfl

/-- The super-types lose their numbers with the type. -/
@[simp]
theorem supers_unnumbered (t : Ty) : t.unnumbered.supers = t.supers.map unnumbered := by
  cases t with
  | boxed kind => cases kind <;> rfl
  | record _ _ supers | interface _ _ supers => exact unnumberedAll_eq_map supers
  | _ => rfl

@[simp]
theorem component?_unnumbered (t : Ty) : t.unnumbered.component? = t.component?.map unnumbered := by
  cases t <;> rfl

@[simp]
theorem box_unnumbered (t : Ty) : t.unnumbered.box = t.box.unnumbered := by
  cases t <;> rfl

@[simp]
theorem primitive?_unnumbered (t : Ty) : t.unnumbered.primitive? = t.primitive? := by
  cases t <;> rfl

@[simp]
theorem boxed?_unnumbered (t : Ty) : t.unnumbered.boxed? = t.boxed? := by
  cases t <;> rfl

@[simp]
theorem numericKind?_unnumbered (t : Ty) : t.unnumbered.numericKind? = t.numericKind? := by
  cases t <;> rfl

@[simp]
theorem isPrimitive_unnumbered (t : Ty) : t.unnumbered.isPrimitive = t.isPrimitive := by
  rw [isPrimitive, primitive?_unnumbered, isPrimitive]

@[simp]
theorem isNull_unnumbered (t : Ty) : t.unnumbered.isNull = t.isNull := by cases t <;> rfl

@[simp]
theorem isVoid_unnumbered (t : Ty) : t.unnumbered.isVoid = t.isVoid := by cases t <;> rfl

@[simp]
theorem isError_unnumbered (t : Ty) : t.unnumbered.isError = t.isError := by cases t <;> rfl

@[simp]
theorem isObject_unnumbered (t : Ty) : t.unnumbered.isObject = t.isObject := by cases t <;> rfl

@[simp]
theorem isInterface_unnumbered (t : Ty) : t.unnumbered.isInterface = t.isInterface := by
  cases t <;> rfl

@[simp]
theorem isArray_unnumbered (t : Ty) : t.unnumbered.isArray = t.isArray := by cases t <;> rfl

@[simp]
theorem isReference_unnumbered (t : Ty) : t.unnumbered.isReference = t.isReference := by
  cases t <;> rfl

@[simp]
theorem isBooleanLike_unnumbered (t : Ty) : t.unnumbered.isBooleanLike = t.isBooleanLike := by
  cases t <;> rfl

theorem unnumbered_of_numericKind? {kind : NumericKind} (h : t.numericKind? = some kind) :
    t.unnumbered = t := by
  cases t <;> first | rfl | cases h

theorem unnumbered_of_isBooleanLike (h : t.isBooleanLike) : t.unnumbered = t := by
  cases t <;> first | rfl | cases h

/-- Waiting types without their numbers. -/
def Queue.unnumbered (queue : Queue) : Queue := queue.map (Prod.map Ty.unnumbered id)

theorem nextLevel_unnumbered (t : Ty) (level : Nat) :
    nextLevel t.unnumbered level = (nextLevel t level).unnumbered := by
  simp [nextLevel, Queue.unnumbered]

/-- The search upwards tells types apart by their keys. -/
theorem levelOf_unnumbered (target : TypeKey) (queue : Queue) (visited : List TypeKey) :
    levelOf target queue.unnumbered visited = levelOf target queue visited := by
  fun_induction levelOf target queue visited with
  | case1 => rw [Queue.unnumbered, List.map_nil, levelOf]
  | case2 t level queue visited hkey =>
    simp only [Queue.unnumbered, List.map_cons, Prod.map, levelOf, key_unnumbered, if_pos hkey, id]
  | case3 t level queue visited hkey hmem ih =>
    rw [← ih]
    simp only [Queue.unnumbered, List.map_cons, Prod.map]
    rw [levelOf, key_unnumbered, if_neg hkey, if_pos hmem]
  | case4 t level queue visited hkey hmem ih =>
    rw [← ih]
    simp only [Queue.unnumbered, List.map_cons, Prod.map, List.map_append]
    rw [levelOf, key_unnumbered, if_neg hkey, if_neg hmem, id, nextLevel_unnumbered]
    rfl

@[simp]
theorem ancestorDistance_unnumbered (t u : Ty) :
    t.unnumbered.ancestorDistance u.unnumbered = t.ancestorDistance u := by
  rw [ancestorDistance, key_unnumbered, key_unnumbered, nextLevel_unnumbered, levelOf_unnumbered]
  rfl

theorem collect_unnumbered (queue found : Queue) :
    collect queue.unnumbered found.unnumbered = (collect queue found).unnumbered := by
  have hany (t : Ty) (found : Queue) :
      found.unnumbered.any (·.1.key = t.unnumbered.key) = found.any (·.1.key = t.key) := by
    simp [Queue.unnumbered, Function.comp_def]
  fun_induction collect queue found with
  | case1 => rw [Queue.unnumbered, List.map_nil, collect]
  | case2 t level queue found hseen ih =>
    rw [← ih]
    simp only [Queue.unnumbered, List.map_cons, Prod.map]
    rw [collect, ← Queue.unnumbered, ← Queue.unnumbered, if_pos ((hany t found).trans hseen)]
  | case3 t level queue found hnew ih =>
    rw [← ih]
    have hnew' : ¬found.unnumbered.any (·.1.key = t.unnumbered.key) = true := by rwa [hany]
    simp only [Queue.unnumbered, List.map_cons, Prod.map, List.map_append] at hnew' ⊢
    rw [collect, if_neg hnew', id, nextLevel_unnumbered]
    rfl

theorem ancestors_unnumbered (t : Ty) : t.unnumbered.ancestors = t.ancestors.unnumbered := by
  rw [ancestors, nextLevel_unnumbered]
  exact collect_unnumbered _ []

theorem superclass?_unnumbered (t : Ty) :
    t.unnumbered.superclass? = t.superclass?.map unnumbered := by
  have hinterface : (!·.isInterface) ∘ unnumbered = (!·.isInterface) :=
    funext fun u => by rw [Function.comp_apply, isInterface_unnumbered]
  rw [superclass?, superclass?, supers_unnumbered, List.find?_map, hinterface]

/-- A chain of superclasses is told by keys, too: it stops at one that it has met. -/
theorem extendChain_unnumbered (t : Ty) (chain : List Ty) :
    extendChain t.unnumbered (chain.map unnumbered) = (extendChain t chain).map unnumbered := by
  fun_induction extendChain t chain with
  | case1 t chain hnone =>
    rw [extendChain]
    split
    · rfl
    · rename_i heq
      simp [superclass?_unnumbered, hnone] at heq
  | case2 t chain u hu hstop =>
    rw [extendChain]
    split
    · rfl
    · rename_i v heq
      rw [superclass?_unnumbered, hu, Option.map_some] at heq
      cases heq
      rw [if_pos]
      simpa [Function.comp_def] using hstop
  | case3 t chain u hu hgo ih =>
    rw [extendChain]
    split
    · rename_i heq
      simp [superclass?_unnumbered, hu] at heq
    · rename_i v heq
      rw [superclass?_unnumbered, hu, Option.map_some] at heq
      cases heq
      rw [if_neg, ← ih, List.map_append, List.map_singleton]
      simpa [Function.comp_def] using hgo

theorem superclassChain_unnumbered (t : Ty) :
    t.unnumbered.superclassChain = t.superclassChain.map unnumbered :=
  extendChain_unnumbered t []

end Ty

/-- The cast between the types without their numbers. -/
def Cast.unnumbered (c : Cast) : Cast :=
  { c with source := c.source.unnumbered, target := c.target.unnumbered }

/-- The same conversion, between copies of its types. -/
def Cast.IsCopy (c c' : Cast) : Prop := c.unnumbered = c'.unnumbered

theorem Cast.IsCopy.distance_eq {c c' : Cast} (h : c.IsCopy c') : c.distance = c'.distance :=
  show c.unnumbered.distance = c'.unnumbered.distance from congrArg Cast.distance h

theorem Cast.IsCopy.isIdentity_eq {c c' : Cast} (h : c.IsCopy c') : c.isIdentity = c'.isIdentity :=
  show c.unnumbered.isIdentity = c'.unnumbered.isIdentity from congrArg Cast.isIdentity h

theorem Cast.IsCopy.target {c c' : Cast} (h : c.IsCopy c') : c.target.IsCopy c'.target :=
  show c.unnumbered.target = c'.unnumbered.target from congrArg Cast.target h

section Structural

variable {a b : Ty}

theorem boxingCast_unnumbered (a b : Ty) (ha : a.unnumbered = a) (hb : b.unnumbered = b) :
    boxingCast a.unnumbered b.unnumbered = (boxingCast a b).map Cast.unnumbered := by
  rw [ha, hb]
  fun_cases boxingCast a b <;> rfl

theorem booleanCast_unnumbered (a b : Ty) :
    booleanCast a.unnumbered b.unnumbered = (booleanCast a b).map Cast.unnumbered := by
  unfold booleanCast
  simp only [Ty.isBooleanLike_unnumbered]
  split
  case isTrue hboth =>
    obtain ⟨ha, hb⟩ := Bool.and_eq_true_iff.1 hboth
    exact boxingCast_unnumbered a b (Ty.unnumbered_of_isBooleanLike ha)
      (Ty.unnumbered_of_isBooleanLike hb)
  case isFalse => rfl

theorem numericCast_unnumbered (a b : Ty) :
    numericCast a.unnumbered b.unnumbered = (numericCast a b).map Cast.unnumbered := by
  unfold numericCast
  rw [Ty.numericKind?_unnumbered, Ty.numericKind?_unnumbered]
  cases hgiven : a.numericKind? with
  | none => rfl
  | some given =>
    cases hwanted : b.numericKind? with
    | none => rfl
    | some wanted =>
      have ha := Ty.unnumbered_of_numericKind? hgiven
      have hb := Ty.unnumbered_of_numericKind? hwanted
      simp only [Option.bind_eq_bind, Option.bind_some]
      split
      · exact boxingCast_unnumbered a b ha hb
      · split <;> simp only [ha, hb, Option.map_some, Cast.unnumbered, Cast.ofImplicit,
          Cast.ofExplicit]

/-- References are converted along the levels between their keys. -/
theorem referenceCast_unnumbered (a b : Ty) :
    referenceCast a.unnumbered b.unnumbered = (referenceCast a b).map Cast.unnumbered := by
  unfold referenceCast
  rw [Ty.ancestorDistance_unnumbered, Ty.ancestorDistance_unnumbered]
  cases a.ancestorDistance b with
  | some levels => rfl
  | none => cases b.ancestorDistance a <;> rfl

theorem objectCast_unnumbered (a b : Ty) :
    objectCast a.unnumbered b.unnumbered = (objectCast a b).unnumbered := by
  unfold objectCast
  rw [Ty.isPrimitive_unnumbered]
  split <;> rfl

theorem nullCast_unnumbered (b : Ty) :
    nullCast b.unnumbered = (nullCast b).map Cast.unnumbered := by
  unfold nullCast
  rw [Ty.isReference_unnumbered, Ty.isObject_unnumbered]
  split <;> rfl

theorem boxedAncestorCast_unnumbered (kind : Primitive) (b : Ty) :
    boxedAncestorCast kind b.unnumbered = (boxedAncestorCast kind b).map Cast.unnumbered := by
  have hlevels := Ty.ancestorDistance_unnumbered (.boxed kind) b
  change (Ty.boxed kind).ancestorDistance b.unnumbered = _ at hlevels
  unfold boxedAncestorCast
  rw [hlevels]
  cases (Ty.boxed kind).ancestorDistance b <;> rfl

theorem uncheckedUnboxing_unnumbered (a : Ty) (kind : Primitive) (number : NumericKind) :
    uncheckedUnboxing a.unnumbered kind number =
      (uncheckedUnboxing a kind number).map Cast.unnumbered := by
  have hlevels := Ty.ancestorDistance_unnumbered (.boxed kind) a
  change (Ty.boxed kind).ancestorDistance a.unnumbered = _ at hlevels
  unfold uncheckedUnboxing
  rw [hlevels, Ty.isObject_unnumbered]
  split <;> rfl

/-- All that the tests of a structural cast ask of a type is left when its number is gone. -/
theorem scalarCast_unnumbered (a b : Ty) :
    scalarCast a.unnumbered b.unnumbered = (scalarCast a b).map Cast.unnumbered := by
  have hreference : (if a.isObject && b.isReference then
        some (Cast.ofExplicit a.unnumbered b.unnumbered .downcast 0)
      else referenceCast a.unnumbered b.unnumbered) =
      (if a.isObject && b.isReference then some (Cast.ofExplicit a b .downcast 0)
        else referenceCast a b).map Cast.unnumbered := by
    split
    · rfl
    · exact referenceCast_unnumbered a b
  unfold scalarCast
  simp only [Ty.isError_unnumbered, Ty.isVoid_unnumbered, Ty.isNull_unnumbered,
    Ty.isObject_unnumbered, Ty.isReference_unnumbered, Ty.primitive?_unnumbered,
    booleanCast_unnumbered, numericCast_unnumbered, objectCast_unnumbered, nullCast_unnumbered]
  split
  · rfl
  split
  · rfl
  split
  · rfl
  rcases booleanCast a b with _ | c
  case some => rfl
  rcases numericCast a b with _ | c
  case some => rfl
  rcases a.primitive? with _ | kind
  case some => exact boxedAncestorCast_unnumbered kind b
  rcases b.primitive? with _ | kind
  case none => exact hreference
  cases hnumber : kind.numeric? with
  | some number => simpa [hnumber] using uncheckedUnboxing_unnumbered a kind number
  | none => simpa [hnumber] using hreference

theorem liftToArrays_unnumbered (a b : Ty) (inner : Cast) :
    liftToArrays a.unnumbered b.unnumbered inner.unnumbered =
      (liftToArrays a b inner).map Cast.unnumbered := by
  obtain ⟨source, target, kind, implicit, distance⟩ := inner
  cases kind <;> rfl

/-- Arrays are converted as their elements are. -/
theorem structuralCast_unnumbered (a b : Ty) :
    structuralCast a.unnumbered b.unnumbered = (structuralCast a b).map Cast.unnumbered := by
  fun_induction structuralCast a b with
  | case1 a b hkey =>
    rw [structuralCast.eq_def, Ty.key_unnumbered, Ty.key_unnumbered, if_pos hkey]
    rfl
  | case2 a b hprimitive hkey =>
    have hkey' : (Ty.array a).unnumbered.key ≠ (Ty.array b).unnumbered.key := by simpa using hkey
    rw [Ty.unnumbered, Ty.unnumbered] at hkey' ⊢
    rw [structuralCast, if_neg hkey', Ty.isPrimitive_unnumbered, Ty.isPrimitive_unnumbered,
      if_pos hprimitive]
    rfl
  | case3 a b hprimitive hkey ih =>
    have hkey' : (Ty.array a).unnumbered.key ≠ (Ty.array b).unnumbered.key := by simpa using hkey
    rw [Ty.unnumbered, Ty.unnumbered] at hkey' ⊢
    rw [structuralCast, if_neg hkey', Ty.isPrimitive_unnumbered, Ty.isPrimitive_unnumbered,
      if_neg hprimitive, ih]
    cases structuralCast a b with
    | none => rfl
    | some inner => exact liftToArrays_unnumbered (.array a) (.array b) inner
  | case4 a b hkey harrays =>
    have hscalar : a.isArray = false ∨ b.isArray = false := by
      cases a <;> cases b <;>
        first | exact .inl rfl | exact .inr rfl | exact (harrays _ _ rfl rfl).elim
    rw [structuralCast_scalar (by simpa using hkey) (by simpa using hscalar),
      scalarCast_unnumbered]

theorem map_unnumbered_numericTargets (kind : NumericKind) :
    (numericTargets kind).map Ty.unnumbered = numericTargets kind := by
  cases kind <;> rfl

theorem scalarTargets_unnumbered (a : Ty) :
    scalarTargets a.unnumbered = (scalarTargets a).map Ty.unnumbered := by
  have hancestors : a.unnumbered.box.ancestors.map (·.1) =
      (a.box.ancestors.map (·.1)).map Ty.unnumbered := by
    rw [Ty.box_unnumbered, Ty.ancestors_unnumbered, Ty.Queue.unnumbered, List.map_map,
      List.map_map]
    rfl
  unfold scalarTargets
  rw [hancestors, Ty.numericKind?_unnumbered, List.map_append]
  refine congrArg (· ++ _) ?_
  cases hkind : a.numericKind? with
  | none => rfl
  | some kind =>
    -- Numbers and their boxes are types of the language itself.
    have hfilter := congrArg (List.filter (·.key ≠ a.key)) (map_unnumbered_numericTargets kind)
    simp only [List.filter_map, Function.comp_def, Ty.key_unnumbered] at hfilter
    simp only [Ty.unnumbered_of_numericKind? hkind, List.map_append, hfilter]
    refine congrArg (· ++ _) ?_
    split <;> rfl

theorem structuralTargets_unnumbered (a : Ty) :
    structuralTargets a.unnumbered = (structuralTargets a).map Ty.unnumbered := by
  fun_induction structuralTargets a with
  | case7 component hprimitive =>
    rw [Ty.unnumbered, structuralTargets, Ty.isPrimitive_unnumbered, if_pos hprimitive]
    rfl
  | case8 component hprimitive ih =>
    rw [Ty.unnumbered, structuralTargets, Ty.isPrimitive_unnumbered, if_neg hprimitive, ih]
    simp [Function.comp_def, Ty.unnumbered]
  | case9 a hnull hvoid herror hobject htruth hbox harray =>
    rw [← scalarTargets_unnumbered]
    cases a with
    | primitive kind | boxed kind =>
      cases kind with
      | boolean => first | exact (htruth rfl).elim | exact (hbox rfl).elim
      | _ => rfl
    | array component => exact (harray component rfl).elim
    | null => exact (hnull rfl).elim
    | void => exact (hvoid rfl).elim
    | error => exact (herror rfl).elim
    | object => exact (hobject rfl).elim
    | _ => rfl
  | _ => rfl

end Structural

/-- A provider answers for copies of types with copies of its answers. -/
structure Provider.IgnoresNumbers (p : Provider) : Prop where
  cast : ∀ a b, p.cast a.unnumbered b.unnumbered = (p.cast a b).map (Option.map Cast.unnumbered)
  targets : ∀ a, p.targets a.unnumbered = (p.targets a).map Ty.unnumbered

def Registry.IgnoresNumbers (r : Registry) : Prop := ∀ p ∈ r.providers, p.IgnoresNumbers

theorem Provider.structural_ignoresNumbers : Provider.structural.IgnoresNumbers where
  cast a b := congrArg Except.ok (structuralCast_unnumbered a b)
  targets := structuralTargets_unnumbered

/-- A library goes by the keys of types.  What it names is as it was registered. -/
theorem CastLibrary.provider_ignoresNumbers {library : CastLibrary}
    (h : ∀ entry ∈ library.entries, entry.method.returns.unnumbered = entry.method.returns) :
    library.provider.IgnoresNumbers where
  cast a b := by
    have hmatching (implicit : Bool) : library.matching a.unnumbered b.unnumbered implicit =
        library.matching a b implicit := by
      simp only [matching, Ty.key_unnumbered]
    change library.cast _ _ = (library.cast a b).map _
    simp only [cast, hmatching]
    cases library.matching a b true with
    | some entry => rfl
    | none =>
      cases library.matching a b false with
      | none => rfl
      | some entry =>
        dsimp only
        cases Distance.add Distance.explicit entry.distance <;> rfl
  targets a := by
    change library.targets _ = (library.targets a).map _
    simp only [targets, Ty.key_unnumbered, List.map_map]
    refine List.map_congr_left fun entry hentry => ?_
    exact (h entry (List.mem_filter.1 hentry).1).symm

/-- The provider that answers for copies is the one that answers for the types. -/
theorem Registry.firstCast_unnumbered {ps : List Provider} (h : ∀ p ∈ ps, p.IgnoresNumbers)
    (a b : Ty) : firstCast a.unnumbered b.unnumbered ps =
      (firstCast a b ps).map (Option.map Cast.unnumbered) := by
  induction ps with
  | nil => rfl
  | cons p rest ih =>
    obtain ⟨hp, hrest⟩ := List.forall_mem_cons.1 h
    rw [firstCast, firstCast, hp.cast]
    rcases p.cast a b with e | (_ | c)
    case error => rfl
    case ok.none => exact ih hrest
    case ok.some =>
      simp only [Except.map, Option.map_some, Bind.bind, Except.bind, Cast.unnumbered,
        Ty.key_unnumbered]
      split <;> rfl

namespace Registry.IgnoresNumbers

variable {r : Registry} (hr : r.IgnoresNumbers) (a b t : Ty)

include hr

theorem cast : r.cast a.unnumbered b.unnumbered = (r.cast a b).map (Option.map Cast.unnumbered) :=
  firstCast_unnumbered hr a b

theorem implicitCast : r.implicitCast a.unnumbered b.unnumbered =
    (r.implicitCast a b).map (Option.map Cast.unnumbered) := by
  unfold Registry.implicitCast
  rw [Ty.key_unnumbered, Ty.key_unnumbered, hr.cast]
  split
  · rfl
  · match r.cast a b with
    | .error e => rfl
    | .ok none => rfl
    | .ok (some c) =>
      simp only [Except.map, Option.map_some, Bind.bind, Except.bind, pure, Except.pure]
      cases hc : c.implicit <;> simp [Option.filter, Cast.unnumbered, hc]

/-- A candidate costs what its copies cost. -/
theorem score? : r.score? a.unnumbered b.unnumbered t.unnumbered = r.score? a b t := by
  unfold Registry.score?
  rw [hr.implicitCast, hr.implicitCast]
  match r.implicitCast a t, r.implicitCast b t with
  | .error e, _ => rfl
  | .ok _, .error e => cases ‹Option Cast› <;> rfl
  | .ok none, .ok none | .ok none, .ok (some _) | .ok (some _), .ok none => rfl
  | .ok (some f), .ok (some g) => rfl

theorem candidates :
    r.candidates a.unnumbered b.unnumbered = (r.candidates a b).map Ty.unnumbered := by
  have htargets : (r.providers.flatMap fun p => p.targets a.unnumbered ++ p.targets b.unnumbered) =
      (r.providers.flatMap fun p => p.targets a ++ p.targets b).map Ty.unnumbered := by
    rw [List.map_flatMap, List.flatMap_def, List.flatMap_def]
    refine congrArg List.flatten (List.map_congr_left fun p hp => ?_)
    rw [(hr p hp).targets, (hr p hp).targets, List.map_append]
  have hkeyed (ts : List Ty) : (ts.map Ty.unnumbered).map (fun t => (t.key, t)) =
      (ts.map fun t => (t.key, t)).map (Prod.map id Ty.unnumbered) := by
    simp
  unfold Registry.candidates
  simp only [htargets]
  rw [← List.map_cons, ← List.map_cons, hkeyed, ← List.map_nil, Assoc.merge_map_entries]
  simp [Assoc.values]

/-- The first of the cheapest candidates stands at the same place among the copies. -/
theorem bestOf (ts : List Ty) (best : Option (Score × Ty)) :
    r.bestOf a.unnumbered b.unnumbered (ts.map Ty.unnumbered)
        (best.map (Prod.map id Ty.unnumbered)) =
      (r.bestOf a b ts best).map (Option.map (Prod.map id Ty.unnumbered)) := by
  induction ts generalizing best with
  | nil => rfl
  | cons t rest ih =>
    rw [List.map_cons, Registry.bestOf, Registry.bestOf, hr.score?]
    rcases r.score? a b t with e | (_ | score)
    case error => rfl
    case ok.none => exact ih best
    case ok.some =>
      have hkeep : keepBest (best.map (Prod.map id Ty.unnumbered)) score t.unnumbered =
          (keepBest best score t).map (Prod.map id Ty.unnumbered) := by
        cases best with
        | none => rfl
        | some held =>
          simp only [keepBest, Option.map_some, Prod.map, id]
          split <;> rfl
      change r.bestOf _ _ _ _ = _
      rw [hkeep]
      exact ih _

theorem commonType :
    r.commonType a.unnumbered b.unnumbered = (r.commonType a b).map (Option.map Ty.unnumbered) := by
  unfold Registry.commonType
  rw [Ty.key_unnumbered, Ty.key_unnumbered, hr.candidates]
  split
  · rfl
  · have hbest := hr.bestOf a b (r.candidates a b) none
    rw [Option.map_none] at hbest
    rw [hbest]
    match r.bestOf a b (r.candidates a b) none with
    | .error e | .ok none | .ok (some _) => rfl

/-- Nearest targets are found again among those of types without numbers. -/
theorem nearest {u : Ty} (h : r.Nearest a.unnumbered b.unnumbered u) :
    ∃ t, r.Nearest a b t ∧ t.unnumbered = u := by
  obtain ⟨hmem, score, hscore, hleast⟩ := h
  rw [hr.candidates] at hmem hleast
  obtain ⟨t, ht, rfl⟩ := List.mem_map.1 hmem
  rw [hr.score?] at hscore
  refine ⟨t, ⟨ht, score, hscore, fun v hv other hother => ?_⟩, rfl⟩
  exact hleast v.unnumbered (List.mem_map_of_mem hv) other (by rwa [hr.score?])

section Copies

variable {a a' b b' : Ty} (ha : a.IsCopy a') (hb : b.IsCopy b')

include ha hb

/-- Between copies, the casts are copies. -/
theorem cast_isCopy :
    ExceptRel (Option.Rel Cast.IsCopy) (r.cast a b) (r.cast a' b') := by
  refine exceptRel_of_map_eq (f := Option.map Cast.unnumbered) ?_
    fun _ _ _ _ h => rel_of_map_eq h fun _ _ _ _ hcopy => hcopy
  rw [← hr.cast, ← hr.cast, ha, hb]

theorem implicitCast_isCopy :
    ExceptRel (Option.Rel Cast.IsCopy) (r.implicitCast a b) (r.implicitCast a' b') := by
  refine exceptRel_of_map_eq (f := Option.map Cast.unnumbered) ?_
    fun _ _ _ _ h => rel_of_map_eq h fun _ _ _ _ hcopy => hcopy
  rw [← hr.implicitCast, ← hr.implicitCast, ha, hb]

theorem commonType_isCopy :
    ExceptRel (Option.Rel Ty.IsCopy) (r.commonType a b) (r.commonType a' b') := by
  refine exceptRel_of_map_eq (f := Option.map Ty.unnumbered) ?_
    fun _ _ _ _ h => rel_of_map_eq h fun _ _ _ _ hcopy => hcopy
  rw [← hr.commonType, ← hr.commonType, ha, hb]

end Copies

end Registry.IgnoresNumbers

theorem ownClasses_unnumbered (t : Ty) :
    ownClasses t.unnumbered = (ownClasses t).map Ty.unnumbered := by
  unfold ownClasses
  rw [Ty.superclassChain_unnumbered, ← List.map_cons, List.filter_map]
  simp [Function.comp_def]

theorem commonSuperclass_unnumbered (a b : Ty) :
    commonSuperclass a.unnumbered b.unnumbered = (commonSuperclass a b).map Ty.unnumbered := by
  unfold commonSuperclass
  rw [Ty.isPrimitive_unnumbered, Ty.isPrimitive_unnumbered]
  split
  · rfl
  · rw [ownClasses_unnumbered, Ty.superclassChain_unnumbered, ← List.map_cons, List.find?_map]
    simp [Function.comp_def]

/-- Branches are widened to a copy of what the branches they copy are widened to. -/
theorem widenedType?_unnumbered {r : Registry} (hr : r.IgnoresNumbers) (mode : WideningFailure)
    (a b : Ty) : widenedType? r mode a.unnumbered b.unnumbered =
      (widenedType? r mode a b).map (Option.map Ty.unnumbered) := by
  unfold widenedType?
  rw [commonSuperclass_unnumbered, hr.commonType]
  cases commonSuperclass a b with
  | some t => rfl
  | none =>
    match r.commonType a b with
    | .error e => rfl
    | .ok (some t) => rfl
    | .ok none => cases mode <;> rfl

/-- The type of two branches, up to numbers, is that of their types without numbers. -/
theorem branchType?_unnumbered {r : Registry} (hr : r.IgnoresNumbers) (mode : WideningFailure)
    (a b : Ty) : branchType? r mode a.unnumbered b.unnumbered =
      (branchType? r mode a b).map (Option.map Ty.unnumbered) := by
  unfold branchType?
  simp only [Ty.key_unnumbered, Ty.isNull_unnumbered, hr.implicitCast]
  split
  · rfl
  split
  · split <;> simp [Except.map, pure, Except.pure]
  match r.implicitCast a b, r.implicitCast b a with
  | .error e, _ => rfl
  | .ok _, .error e => rfl
  | .ok (some f), .ok (some g) =>
    simp only [Except.map, Option.map_some, Bind.bind, Except.bind, pure, Except.pure,
      Cast.unnumbered]
    split <;> rfl
  | .ok (some f), .ok none | .ok none, .ok (some g) => rfl
  | .ok none, .ok none => exact widenedType?_unnumbered hr mode a b

/-- The standard registry goes by structure and by keys. -/
theorem Library.registry_ignoresNumbers : Library.registry.IgnoresNumbers := by
  refine List.forall_mem_cons.2 ⟨Provider.structural_ignoresNumbers, ?_⟩
  refine List.forall_mem_singleton.2 (CastLibrary.provider_ignoresNumbers fun entry hentry => ?_)
  obtain ⟨kind, -, ⟨key, hbuiltin⟩, -⟩ := casts_convertsTo hentry
  exact Ty.unnumbered_builtin hbuiltin

/-- The types are copies of two nearest common targets, neither of which is preferred. -/
def UndecidedCopies (r : Registry) (a b t u : Ty) : Prop :=
  ∃ v w, v.IsCopy t ∧ w.IsCopy u ∧ Undecided r a b v w

theorem Registry.IgnoresNumbers.undecided {r : Registry} (hr : r.IgnoresNumbers) {a b t u : Ty}
    (h : Undecided r a.unnumbered b.unnumbered t.unnumbered u.unnumbered) :
    UndecidedCopies r a b t u := by
  have hnone {x y : Ty} (h : r.implicitCast x.unnumbered y.unnumbered = .ok none) :
      r.implicitCast x y = .ok none := by
    rw [hr.implicitCast] at h
    match r.implicitCast x y, h with
    | .ok none, _ => rfl
  obtain ⟨v, hv, hcopy⟩ := hr.nearest a b h.left
  obtain ⟨w, hw, hcopy'⟩ := hr.nearest a b h.right
  have hsuperclass := h.superclass
  rw [commonSuperclass_unnumbered, Option.map_eq_none_iff] at hsuperclass
  exact ⟨v, w, hcopy, hcopy', hnone h.forward, hnone h.backward, hsuperclass, hv, hw⟩

/-! ## Types of one key -/

namespace Ty

variable {O : Ty → Prop} {a a' b b' t u v : Ty}

namespace IsCopy

theorem refl (t : Ty) : t.IsCopy t := rfl

theorem symm (h : t.IsCopy u) : u.IsCopy t := Eq.symm h

theorem trans (h : t.IsCopy u) (h' : u.IsCopy v) : t.IsCopy v := Eq.trans h h'

/-- What does not look at numbers is the same of copies. -/
theorem congr {α : Type} {f : Ty → α} (hf : ∀ t, f t.unnumbered = f t) (h : t.IsCopy u) :
    f t = f u := by
  rw [← hf t, h, hf u]

theorem key_eq (h : t.IsCopy u) : t.key = u.key := h.congr key_unnumbered

theorem isNull_eq (h : t.IsCopy u) : t.isNull = u.isNull := h.congr isNull_unnumbered

theorem component? (h : t.IsCopy u) : Option.Rel IsCopy t.component? u.component? := by
  have hmapped : t.component?.map unnumbered = u.component?.map unnumbered := by
    rw [← component?_unnumbered, h, component?_unnumbered]
  exact rel_of_map_eq hmapped fun _ _ _ _ hcopy => hcopy

theorem array (h : t.IsCopy u) : (Ty.array t).IsCopy (.array u) := congrArg Ty.array h

theorem box (h : t.IsCopy u) : t.box.IsCopy u.box := by
  unfold IsCopy at h ⊢
  rw [← box_unnumbered, h, box_unnumbered]

end IsCopy

/-- Closed sets of types in which types of one key are copies of one another. -/
structure Uniform (O : Ty → Prop) : Prop extends Closed O where
  isCopy : ∀ {t u : Ty}, O t → O u → t.key = u.key → t.IsCopy u

namespace Uniform

variable (hO : Uniform O)

include hO

/-- Without numbers a key stands for one type. -/
theorem keyed : Keyed fun t => ∃ u, O u ∧ u.unnumbered = t where
  builtin h := ⟨_, hO.builtin h, unnumbered_builtin h⟩
  component := by
    rintro _ u ⟨t, ht, rfl⟩ hu
    rw [component?_unnumbered] at hu
    obtain ⟨component, hcomponent, rfl⟩ := Option.map_eq_some_iff.1 hu
    exact ⟨component, hO.component ht hcomponent, rfl⟩
  super := by
    rintro _ u ⟨t, ht, rfl⟩ hu
    rw [supers_unnumbered] at hu
    obtain ⟨super, hsuper, rfl⟩ := List.mem_map.1 hu
    exact ⟨super, hO.super ht hsuper, rfl⟩
  array := by
    rintro _ ⟨t, ht, rfl⟩
    exact ⟨.array t, hO.array ht, rfl⟩
  eq_of_key := by
    rintro _ _ ⟨t, ht, rfl⟩ ⟨u, hu, rfl⟩ hkey
    exact hO.isCopy ht hu (by simpa using hkey)

/-- Two branches in either order, of copies of two types: in both orders the distances do not fit,
or the order does not matter to the type of the branches, up to numbers, unless it is undecided. -/
theorem branchType?_swap (mode : WideningFailure) {a b a₁ a₂ b₁ b₂ : Ty} (ha : O a) (hb : O b)
    (ha₁ : a.IsCopy a₁) (ha₂ : a.IsCopy a₂) (hb₁ : b.IsCopy b₁) (hb₂ : b.IsCopy b₂) :
    branchType? Library.registry mode a₁ b₁ = .error .overflow ∧
        branchType? Library.registry mode b₂ a₂ = .error .overflow ∨
      ∃ t? u?, branchType? Library.registry mode a₁ b₁ = .ok t? ∧
        branchType? Library.registry mode b₂ a₂ = .ok u? ∧
        (Option.Rel IsCopy t? u? ∨
          ∃ t u, t? = some t ∧ u? = some u ∧ UndecidedCopies Library.registry a b t u) := by
  have hnumbers := Library.registry_ignoresNumbers
  have hkeyed := hO.keyed
  have hthere := branchType?_unnumbered hnumbers mode a₁ b₁
  have hback := branchType?_unnumbered hnumbers mode b₂ a₂
  rw [← ha₁, ← hb₁] at hthere
  rw [← ha₂, ← hb₂] at hback
  -- Types without numbers answer for their copies, and among them a key stands for one type.
  cases hleft : branchType? Library.registry mode a.unnumbered b.unnumbered with
  | error e =>
    obtain ⟨hleft, hright⟩ := hkeyed.branchType?_overflow_comm ⟨a, ha, rfl⟩ ⟨b, hb, rfl⟩ hleft
    rw [hleft] at hthere
    rw [hright] at hback
    exact .inl ⟨eq_error_of_map hthere.symm, eq_error_of_map hback.symm⟩
  | ok v? =>
    cases hright : branchType? Library.registry mode b.unnumbered a.unnumbered with
    | error e =>
      have hswapped := hkeyed.branchType?_overflow_comm ⟨b, hb, rfl⟩ ⟨a, ha, rfl⟩ hright
      rw [hleft] at hswapped
      cases hswapped.2
    | ok w? =>
      rw [hleft] at hthere
      rw [hright] at hback
      obtain ⟨t?, ht, rfl⟩ := exists_ok_of_map hthere.symm
      obtain ⟨u?, hu, rfl⟩ := exists_ok_of_map hback.symm
      refine .inr ⟨t?, u?, ht, hu, ?_⟩
      obtain hsame | ⟨v, w, hv, hw, hundecided⟩ :=
        hkeyed.branchType?_swap ⟨a, ha, rfl⟩ ⟨b, hb, rfl⟩ hleft hright
      · exact .inl (rel_of_map_eq hsame fun _ _ _ _ hcopy => hcopy)
      · obtain ⟨t, rfl, rfl⟩ := Option.map_eq_some_iff.1 hv
        obtain ⟨u, rfl, rfl⟩ := Option.map_eq_some_iff.1 hw
        exact .inr ⟨t, u, rfl, rfl, hnumbers.undecided hundecided⟩

end Uniform

end Ty

end RuleExpr
