import RuleExpr.Proofs.Cast.Nearest
import RuleExpr.Proofs.Cast.ThereAndBack

/-!
# Types of Two Branches

The type of two branches is found in steps: the types may be the same, one may be that of null, one
may convert to the other, both may have a superclass in common, and otherwise the nearest common
target counts.  The steps treat the two types alike up to the last one, as long as a key stands for
one type.  The last step takes the first of the nearest targets, and which one is the first may
depend on the order of the two types.
-/

namespace RuleExpr

variable {O : Ty → Prop} {a b t : Ty}

/-- Weights fall along a chain of superclasses. -/
theorem Ty.extendChain_eq (t : Ty) (chain : List Ty) :
    ∃ more, extendChain t chain = chain ++ more ∧
      (t :: more).Pairwise fun u v => v.weight < u.weight := by
  fun_induction extendChain t chain with
  | case1 => exact ⟨[], (List.append_nil _).symm, List.pairwise_singleton _ _⟩
  | case2 => exact ⟨[], (List.append_nil _).symm, List.pairwise_singleton _ _⟩
  | case3 t chain u hu _ ih =>
    obtain ⟨more, hmore, hfalls⟩ := ih
    refine ⟨u :: more, by rw [hmore, List.append_assoc, List.singleton_append], ?_⟩
    have hlt := weight_lt_of_superclass? hu
    refine List.pairwise_cons.2 ⟨List.forall_mem_cons.2 ⟨hlt, fun v hv => ?_⟩, hfalls⟩
    exact Nat.lt_trans ((List.pairwise_cons.1 hfalls).1 v hv) hlt

theorem ownClasses_pairwise (t : Ty) :
    (ownClasses t).Pairwise fun u v => v.weight < u.weight := by
  obtain ⟨more, hmore, hfalls⟩ := t.extendChain_eq []
  rw [ownClasses, Ty.superclassChain, hmore]
  exact hfalls.filter _

/-- In a list of falling weights the first match is the heaviest one. -/
theorem Ty.find?_eq_some_iff_heaviest {ts : List Ty} {p : Ty → Bool}
    (hfalls : ts.Pairwise fun u v => v.weight < u.weight) :
    ts.find? p = some t ↔ t ∈ ts ∧ p t = true ∧ ∀ u ∈ ts, p u = true → u.weight ≤ t.weight := by
  induction ts with
  | nil => simp
  | cons first rest ih =>
    obtain ⟨hfirst, hrest⟩ := List.pairwise_cons.1 hfalls
    rw [List.find?_cons, List.mem_cons, List.forall_mem_cons]
    cases hp : p first with
    | true =>
      simp only [Option.some.injEq]
      constructor
      · rintro rfl
        exact ⟨.inl rfl, hp, fun _ => Nat.le_refl _, fun u hu _ => Nat.le_of_lt (hfirst u hu)⟩
      · rintro ⟨rfl | hmem, -, hheaviest, -⟩
        · rfl
        · exact absurd (hheaviest trivial) (Nat.not_le_of_lt (hfirst t hmem))
    | false =>
      rw [ih hrest]
      constructor
      · rintro ⟨hmem, ht, hheaviest⟩
        exact ⟨.inr hmem, ht, nofun, hheaviest⟩
      · rintro ⟨rfl | hmem, ht, -, hheaviest⟩
        · rw [hp] at ht
          cases ht
        · exact ⟨hmem, ht, hheaviest⟩

namespace Ty.Keyed

variable (hO : Keyed O)

include hO

theorem superclasses (ht : O t) : ∀ u ∈ t :: t.superclassChain, O u :=
  List.forall_mem_cons.2 ⟨ht, hO.superclassChain ht⟩

/-- A class of `a` with the key of one of the superclasses of `b` is a class of `b`. -/
theorem mem_ownClasses_iff (ha : O a) (hb : O b) (ht : t ∈ ownClasses a) :
    ((b :: b.superclassChain).any (·.key = t.key)) = true ↔ t ∈ ownClasses b := by
  obtain ⟨hchain, hclass⟩ := List.mem_filter.1 ht
  have hOt := hO.superclasses ha t hchain
  constructor
  · intro hany
    obtain ⟨u, hu, hkey⟩ := List.any_eq_true.1 hany
    obtain rfl := hO.eq_of_key (hO.superclasses hb u hu) hOt (of_decide_eq_true hkey)
    exact List.mem_filter.2 ⟨hu, hclass⟩
  · intro hmem
    exact List.any_eq_true.2 ⟨t, (List.mem_filter.1 hmem).1, decide_eq_true rfl⟩

/-- The nearest common superclass is the heaviest class that both types have. -/
theorem commonSuperclass_eq_some_iff (ha : O a) (hb : O b) :
    RuleExpr.commonSuperclass a b = some t ↔ (a.isPrimitive || b.isPrimitive) = false ∧
      t ∈ ownClasses a ∧ t ∈ ownClasses b ∧
      ∀ u ∈ ownClasses a, u ∈ ownClasses b → u.weight ≤ t.weight := by
  unfold RuleExpr.commonSuperclass
  cases a.isPrimitive || b.isPrimitive with
  | true => simp
  | false =>
    rw [if_neg (by decide), find?_eq_some_iff_heaviest (ownClasses_pairwise a)]
    simp only [true_and]
    refine and_congr_right fun ht => and_congr (hO.mem_ownClasses_iff ha hb ht) ?_
    exact forall₂_congr fun u hu => imp_congr_left (hO.mem_ownClasses_iff ha hb hu)

theorem commonSuperclass_comm (ha : O a) (hb : O b) :
    RuleExpr.commonSuperclass a b = RuleExpr.commonSuperclass b a := by
  ext t
  rw [hO.commonSuperclass_eq_some_iff ha hb, hO.commonSuperclass_eq_some_iff hb ha, Bool.or_comm]
  exact and_congr_right fun _ => ⟨fun ⟨h, h', hall⟩ => ⟨h', h, fun u hu hu' => hall u hu' hu⟩,
    fun ⟨h, h', hall⟩ => ⟨h', h, fun u hu hu' => hall u hu' hu⟩⟩

end Ty.Keyed

namespace Registry

variable {r : Registry}

/-- Scores do not depend on the order of the two types. -/
theorem score?_comm (hr : r.Answers) (a b t : Ty) : r.score? a b t = r.score? b a t := by
  obtain ⟨fromA, hA⟩ := hr.implicitCast a t
  obtain ⟨fromB, hB⟩ := hr.implicitCast b t
  unfold score?
  rw [hA, hB]
  match fromA, fromB with
  | none, none | none, some _ | some _, none => rfl
  | some f, some g =>
    simp only [Bind.bind, Except.bind, Distance.add, Nat.add_comm g.distance,
      Nat.max_comm g.distance]

end Registry

namespace Ty.Keyed

variable (hO : Keyed O)

include hO

/-- The candidates are the types that are named for the two, as each has a key of its own. -/
theorem mem_candidates_iff (ha : O a) (hb : O b) : t ∈ Library.registry.candidates a b ↔
    t = a ∨ t = b ∨ ∃ p ∈ Library.registry.providers, t ∈ p.targets a ∨ t ∈ p.targets b := by
  let named := a :: b :: Library.registry.providers.flatMap fun p => p.targets a ++ p.targets b
  have hnamed : t ∈ named ↔
      t = a ∨ t = b ∨ ∃ p ∈ Library.registry.providers, t ∈ p.targets a ∨ t ∈ p.targets b := by
    simp only [named, List.mem_cons, List.mem_flatMap, List.mem_append]
  have hkeeps := Library.registry_keeps hO.toClosed
  have hall : ∀ u ∈ named, O u := by
    refine List.forall_mem_cons.2 ⟨ha, List.forall_mem_cons.2 ⟨hb, fun u hu => ?_⟩⟩
    obtain ⟨p, hp, hu⟩ := List.mem_flatMap.1 hu
    rcases List.mem_append.1 hu with hu | hu
    · exact hkeeps.targets p hp ha u hu
    · exact hkeeps.targets p hp hb u hu
  have hpair {key : TypeKey} {u : Ty} (h : (key, u) ∈ named.map fun t => (t.key, t)) :
      u ∈ named ∧ u.key = key := by
    obtain ⟨v, hv, hpair⟩ := List.mem_map.1 h
    cases hpair
    exact ⟨hv, rfl⟩
  rw [← hnamed]
  constructor
  · intro hmem
    obtain ⟨⟨key, u⟩, hentry, rfl⟩ := List.mem_map.1 hmem
    rcases Assoc.mem_merge hentry with hnone | hentry
    · cases hnone
    · exact (hpair hentry).1
  · intro hmem
    -- The key of the type leads to a type of that key, which is the type itself.
    have hcontains : Assoc.contains (named.map fun t => (t.key, t)) t.key = true :=
      List.any_eq_true.2 ⟨(t.key, t), List.mem_map_of_mem hmem, decide_eq_true rfl⟩
    rw [Assoc.contains_eq_isSome] at hcontains
    obtain ⟨u, hu⟩ := Option.isSome_iff_exists.1 hcontains
    obtain ⟨hmem', hkey⟩ := hpair (Assoc.mem_of_get? hu)
    obtain rfl := hO.eq_of_key (hall u hmem') (hall t hmem) hkey
    have hmerged : Assoc.get? (Assoc.merge [] (named.map fun t => (t.key, t))) u.key = some u := by
      rw [Assoc.get?_merge, hu]
      rfl
    exact List.mem_map.2 ⟨_, Assoc.mem_of_get? hmerged, rfl⟩

theorem candidates_comm (ha : O a) (hb : O b) :
    t ∈ Library.registry.candidates a b ↔ t ∈ Library.registry.candidates b a := by
  rw [hO.mem_candidates_iff ha hb, hO.mem_candidates_iff hb ha, or_left_comm]
  simp only [or_comm]

theorem nearest_comm (ha : O a) (hb : O b) :
    Library.registry.Nearest a b t ↔ Library.registry.Nearest b a t := by
  have hscore (u : Ty) := Registry.score?_comm Library.registry_answers a b u
  unfold Registry.Nearest
  simp only [hscore, hO.candidates_comm ha hb]

/-- Where the sums do not fit in one order, they do not in the other. -/
theorem commonType_overflow_comm (ha : O a) (hb : O b) {e : CastError}
    (h : Library.registry.commonType a b = .error e) :
    Library.registry.commonType a b = .error .overflow ∧
      Library.registry.commonType b a = .error .overflow := by
  have htrusts := Library.registry_answers.trusts
  obtain ⟨hkey, t, ht, hscore⟩ := Registry.commonType_eq_error h
  obtain rfl := htrusts.commonType h
  refine ⟨h, ?_⟩
  cases hback : Library.registry.commonType b a with
  | error e => rw [htrusts.commonType hback]
  | ok t? =>
    obtain ⟨score?, hscored⟩ := Registry.exists_score_of_commonType (Ne.symm hkey) hback
      ((hO.candidates_comm ha hb).1 ht)
    rw [Registry.score?_comm Library.registry_answers, hscored] at hscore
    cases hscore

end Ty.Keyed

/-- Type of two branches neither of which converts to the type of the other. -/
def widenedType? (r : Registry) (mode : WideningFailure) (a b : Ty) :
    Except CastError (Option Ty) :=
  match commonSuperclass a b with
  | some t => return some t
  | none => do
    match ← r.commonType a b, mode with
    | some t, _ => return some t
    | none, .error => return none
    | none, .keepBranches => return some .object

/-- Type of two branches with the types `a` and `b`, if they have one. -/
def branchType? (r : Registry) (mode : WideningFailure) (a b : Ty) :
    Except CastError (Option Ty) := do
  if a.key = b.key then
    return some a
  if a.isNull || b.isNull then
    return some (if a.isNull then b else a).box
  match ← r.implicitCast a b, ← r.implicitCast b a with
  | some f, some g => return some (if g.distance < f.distance then b else a)
  | some _, none => return some b
  | none, some _ => return some a
  | none, none => widenedType? r mode a b

theorem Ty.eq_null_of_isNull (h : a.isNull) : a = .null := by
  cases a with
  | null => rfl
  | _ => cases h

/-- Of two types one of which is null, the other one is boxed, in either order. -/
theorem box_beside_null (hkey : a.key ≠ b.key) (hnull : (a.isNull || b.isNull) = true) :
    (if a.isNull then b else a).box = (if b.isNull then a else b).box := by
  cases ha : a.isNull with
  | false =>
    rw [ha, Bool.false_or] at hnull
    rw [hnull]
    rfl
  | true =>
    cases hb : b.isNull with
    | false => rfl
    | true => exact absurd (by rw [Ty.eq_null_of_isNull ha, Ty.eq_null_of_isNull hb]) hkey

/-- Branches fail to be widened with their common target, which a common superclass goes before. -/
theorem widenedType?_eq_error_iff {r : Registry} {mode : WideningFailure} {e : CastError} :
    widenedType? r mode a b = .error e ↔
      commonSuperclass a b = none ∧ r.commonType a b = .error e := by
  unfold widenedType?
  cases commonSuperclass a b with
  | some t => exact ⟨nofun, nofun⟩
  | none =>
    rcases r.commonType a b with e' | (_ | t)
    case error => exact ⟨fun h => ⟨rfl, h⟩, And.right⟩
    case ok.none => cases mode <;> exact ⟨nofun, nofun⟩
    case ok.some => exact ⟨nofun, nofun⟩

/-- Two types of which neither converts to the other and that share no class, so that a common
target is looked for. -/
structure Unrelated (r : Registry) (a b : Ty) : Prop where
  key_ne : a.key ≠ b.key
  notNull : (a.isNull || b.isNull) = false
  forward : r.implicitCast a b = .ok none
  backward : r.implicitCast b a = .ok none
  superclass : commonSuperclass a b = none

/-- The type of two branches fails to be found with their common target. -/
theorem branchType?_eq_error_iff {r : Registry} (hr : r.Answers) {mode : WideningFailure}
    {e : CastError} :
    branchType? r mode a b = .error e ↔ Unrelated r a b ∧ r.commonType a b = .error e := by
  constructor
  · intro h
    unfold branchType? at h
    split at h
    · cases h
    split at h
    · cases h
    case isFalse hkey hnull =>
    obtain ⟨forward, hforward⟩ := hr.implicitCast a b
    obtain ⟨backward, hbackward⟩ := hr.implicitCast b a
    rw [hforward, hbackward] at h
    match forward, backward with
    | some _, some _ | some _, none | none, some _ => cases h
    | none, none =>
      obtain ⟨hsuperclass, hcommon⟩ := widenedType?_eq_error_iff.1 h
      exact ⟨⟨hkey, Bool.eq_false_iff.2 hnull, hforward, hbackward, hsuperclass⟩, hcommon⟩
  · rintro ⟨⟨hkey, hnull, hforward, hbackward, hsuperclass⟩, hcommon⟩
    unfold branchType?
    rw [if_neg hkey, hnull, hforward, hbackward]
    exact widenedType?_eq_error_iff.2 ⟨hsuperclass, hcommon⟩

/-- Two types of which neither converts to the other and that share no class, with two of their
nearest common targets. -/
structure Undecided (r : Registry) (a b t u : Ty) : Prop where
  forward : r.implicitCast a b = .ok none
  backward : r.implicitCast b a = .ok none
  superclass : commonSuperclass a b = none
  left : r.Nearest a b t
  right : r.Nearest a b u

namespace Ty.Keyed

variable (hO : Keyed O) {mode : WideningFailure} {t? u? : Option Ty}

include hO

theorem widenedType?_swap (ha : O a) (hb : O b) (hkey : a.key ≠ b.key)
    (h : widenedType? Library.registry mode a b = .ok t?)
    (h' : widenedType? Library.registry mode b a = .ok u?) :
    t? = u? ∨ commonSuperclass a b = none ∧ ∃ t u, t? = some t ∧ u? = some u ∧
      Library.registry.Nearest a b t ∧ Library.registry.Nearest a b u := by
  unfold widenedType? at h h'
  rw [hO.commonSuperclass_comm hb ha] at h'
  cases hcommon : RuleExpr.commonSuperclass a b with
  | some t =>
    rw [hcommon] at h h'
    exact .inl (Except.ok.inj (h.symm.trans h'))
  | none =>
    rw [hcommon] at h h'
    match hab : Library.registry.commonType a b, hba : Library.registry.commonType b a with
    | .error e, _ =>
      rw [hab] at h
      cases h
    | .ok _, .error e =>
      rw [hba] at h'
      cases h'
    | .ok (some t), .ok (some u) =>
      rw [hab] at h
      rw [hba] at h'
      cases h
      cases h'
      -- Both orders find a nearest target, though not always the same one.
      have hleft := Registry.nearest_of_commonType hkey hab
      have hright := Registry.nearest_of_commonType (Ne.symm hkey) hba
      exact .inr ⟨rfl, t, u, rfl, rfl, hleft, (hO.nearest_comm ha hb).2 hright⟩
    | .ok (some t), .ok none =>
      -- What is nearest in one order is so in the other, which then finds something as well.
      have hleft := Registry.nearest_of_commonType hkey hab
      exact absurd ((hO.nearest_comm ha hb).1 hleft)
        (Registry.not_nearest_of_commonType (Ne.symm hkey) hba)
    | .ok none, .ok (some u) =>
      have hright := Registry.nearest_of_commonType (Ne.symm hkey) hba
      exact absurd ((hO.nearest_comm ha hb).2 hright)
        (Registry.not_nearest_of_commonType hkey hab)
    | .ok none, .ok none =>
      rw [hab] at h
      rw [hba] at h'
      exact .inl (Except.ok.inj (h.symm.trans h'))

/-- The order of the branches does not matter to their type, unless it is undecided. -/
theorem branchType?_swap (ha : O a) (hb : O b)
    (h : branchType? Library.registry mode a b = .ok t?)
    (h' : branchType? Library.registry mode b a = .ok u?) :
    t? = u? ∨ ∃ t u, t? = some t ∧ u? = some u ∧ Undecided Library.registry a b t u := by
  unfold branchType? at h h'
  by_cases hkey : a.key = b.key
  · rw [if_pos hkey] at h
    rw [if_pos hkey.symm] at h'
    cases h
    cases h'
    exact .inl (congrArg some (hO.eq_of_key ha hb hkey))
  rw [if_neg hkey] at h
  rw [if_neg (Ne.symm hkey)] at h'
  by_cases hnull : (a.isNull || b.isNull) = true
  · rw [if_pos hnull] at h
    rw [Bool.or_comm, if_pos hnull] at h'
    cases h
    cases h'
    exact .inl (congrArg some (box_beside_null hkey hnull))
  rw [if_neg hnull] at h
  rw [Bool.or_comm, if_neg hnull] at h'
  obtain ⟨forward, hforward⟩ := Library.registry_separates.answers a b
  obtain ⟨backward, hbackward⟩ := Library.registry_separates.answers b a
  rw [hforward, hbackward] at h h'
  match forward, backward with
  | some f, some g =>
    cases h
    cases h'
    -- One of the two costs less, whichever is looked at first.
    have hne := hO.implicitCast_ne ha hb hkey hforward hbackward
    refine .inl (congrArg some ?_)
    rcases Nat.lt_or_gt_of_ne hne with hlt | hlt
    · rw [if_neg (Nat.lt_asymm hlt), if_pos hlt]
    · rw [if_pos hlt, if_neg (Nat.lt_asymm hlt)]
  | some f, none | none, some g => exact .inl (Except.ok.inj (h.symm.trans h'))
  | none, none =>
    refine (hO.widenedType?_swap ha hb hkey h h').imp_right ?_
    rintro ⟨hsuperclass, t, u, rfl, rfl, hleft, hright⟩
    exact ⟨t, u, rfl, rfl, hforward, hbackward, hsuperclass, hleft, hright⟩

/-- Where the type is not found for a sum that does not fit, it is not in the other order. -/
theorem branchType?_overflow_comm (ha : O a) (hb : O b) {e : CastError}
    (h : branchType? Library.registry mode a b = .error e) :
    branchType? Library.registry mode a b = .error .overflow ∧
      branchType? Library.registry mode b a = .error .overflow := by
  have hr := Library.registry_answers
  simp only [branchType?_eq_error_iff hr] at h ⊢
  obtain ⟨⟨hkey, hnull, hforward, hbackward, hsuperclass⟩, hcommon⟩ := h
  obtain ⟨hthere, hback⟩ := hO.commonType_overflow_comm ha hb hcommon
  refine ⟨⟨⟨hkey, hnull, hforward, hbackward, hsuperclass⟩, hthere⟩, ⟨?_, hback⟩⟩
  exact ⟨Ne.symm hkey, by rw [Bool.or_comm, hnull], hbackward, hforward,
    hO.commonSuperclass_comm hb ha ▸ hsuperclass⟩

end Ty.Keyed

end RuleExpr
