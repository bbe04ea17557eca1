import RuleExpr.Proofs.AncestorLevels
import RuleExpr.Proofs.Cast.Structural
import Mathlib.Order.MinMax
import Mathlib.Order.Nat

/-!
# Distances of Structural Casts

What a structural cast costs grows with the levels between its types and with nothing else: every
other step has a price of its own.  So the distances of the casts between given types are bounded by
the longest chain of super-types among them, and sums of two of them fit into their width unless a
hierarchy is out of all proportion.
-/

namespace RuleExpr

variable {a b : Ty} {c : Cast}

namespace Ty

/-- Levels between a type and one below it.  From the root of all references every type is as
near. -/
def levelsDown (a b : Ty) : Nat := if a.isObject then 0 else (b.ancestorDistance a).getD 0

/-- As `levelsDown`, below the dimensions that both types have. -/
def elementLevelsDown : Ty → Ty → Nat
  | .array a, .array b => elementLevelsDown a b
  | a, b => a.levelsDown b

/-- Levels from either of two types down to the other. -/
def levelsBetween (a b : Ty) : Nat := max (a.elementLevelsDown b) (b.elementLevelsDown a)

theorem elementLevelsDown_eq (h : ∀ u v, a = .array u → b = .array v → False) :
    a.elementLevelsDown b = a.levelsDown b := by
  unfold elementLevelsDown
  split
  · exact (h _ _ rfl rfl).elim
  · rfl

/-- A level takes a type of its own. -/
theorem Climbs.lt_weight {target : TypeKey} {levels : Nat} (h : Climbs target a levels) :
    levels < a.weight := by
  induction h with
  | here =>
    rw [weight_eq]
    omega
  | step hsuper _ ih =>
    have hlt := weight_lt_of_mem_supers hsuper
    omega

theorem levelsDown_le_weight (a b : Ty) : a.levelsDown b ≤ b.weight := by
  unfold levelsDown
  split
  · exact Nat.zero_le _
  · cases hlevels : b.ancestorDistance a with
    | none => exact Nat.zero_le _
    | some levels => exact Nat.le_of_lt (climbs_of_ancestorDistance hlevels).lt_weight

/-- What is no reference is not below the root. -/
theorem ancestorDistance_object (ha : a.isObject = true) (hb : b.isReference = false) :
    b.ancestorDistance a = none := by
  cases a with
  | object =>
    cases b with
    | primitive | void | error =>
      simp [ancestorDistance, nextLevel, supers, levelOf, key, elementName]
    | _ => cases hb
  | _ => cases ha

end Ty

theorem scalarCast_downcast (h : scalarCast a b = some c) (hkind : c.kind = .downcast) :
    c.distance = Distance.explicit + a.levelsDown b * Distance.upcastStep := by
  unfold Ty.levelsDown
  cases scalarCast_cases h with
  | fromRoot ha =>
    rw [if_pos ha, Nat.zero_mul]
    rfl
  | down hroot hlevels =>
    have hobject : ¬a.isObject = true := by
      intro ha
      rw [ha, Bool.true_and] at hroot
      rw [Ty.ancestorDistance_object ha hroot] at hlevels
      cases hlevels
    rw [hlevels, if_neg hobject]
    rfl
  | _ => cases hkind

theorem structuralCast_downcast (h : structuralCast a b = some c) (hkind : c.kind = .downcast) :
    c.distance = Distance.explicit + a.elementLevelsDown b * Distance.upcastStep := by
  fun_induction structuralCast a b generalizing c with
  | case1 a b hkey =>
    cases h
    cases hkind
  | case2 => cases h
  | case3 a b _ _ ih =>
    obtain ⟨inner, hinner, hlift⟩ := Option.bind_eq_some_iff.1 h
    rw [Ty.elementLevelsDown]
    rcases liftToArrays_cases hlift with ⟨-, rfl⟩ | ⟨hdown, rfl⟩
    · cases hkind
    · rw [Cast.ofExplicit, ih hinner hdown, Nat.add_sub_cancel_left]
  | case4 a b _ hscalar => rw [Ty.elementLevelsDown_eq hscalar, scalarCast_downcast h hkind]

theorem NumericKind.rank_le (kind : NumericKind) : kind.rank ≤ 7 := by
  cases kind <;> decide

theorem wideningDistance_le (a b : Ty) (given wanted : NumericKind) :
    wideningDistance a b given wanted ≤ 1000 := by
  have hgiven := given.rank_le
  have hwanted := wanted.rank_le
  simp only [wideningDistance, NumericKind.stepsTo, Distance.wideningStep, Distance.unboxing,
    Distance.boxing, Distance.toBigNumber]
  split <;> split <;> split <;> omega

theorem scalarCast_distance_le (h : scalarCast a b = some c) :
    c.distance ≤
      max 1000
        (Distance.explicit + max (a.levelsDown b) (b.levelsDown a) * Distance.upcastStep) := by
  cases scalarCast_cases h with
  | null =>
    refine le_max_of_le_left ?_
    dsimp only [Cast.ofImplicit]
    split <;> decide
  | boxObject | object | box | unbox | unboxUnchecked =>
    refine le_max_of_le_left ?_
    dsimp only [Cast.ofImplicit, Cast.ofExplicit]
    decide
  | widen => exact le_max_of_le_left (wideningDistance_le _ _ _ _)
  | @narrow _ _ given wanted =>
    have hgiven := given.rank_le
    have hwanted := wanted.rank_le
    refine le_max_of_le_left ?_
    simp only [Cast.ofExplicit, rankGap, Distance.explicit]
    omega
  | @boxAncestor p _ _ hlevels =>
    have hlt := (Ty.climbs_of_ancestorDistance hlevels).lt_weight
    have hweight : (Ty.boxed p).weight ≤ 3 := by cases p <;> decide
    refine le_max_of_le_left ?_
    simp only [Cast.ofImplicit, Distance.boxing, Distance.upcastStep]
    omega
  | @up _ _ levels hb hlevels =>
    have hdown : b.levelsDown a = levels := by
      rw [Ty.levelsDown, hb, hlevels]
      rfl
    refine le_max_of_le_right (Nat.le_add_left_of_le (Nat.mul_le_mul_right _ ?_))
    exact le_max_of_le_right (Nat.le_of_eq hdown.symm)
  | fromRoot | down =>
    rw [scalarCast_downcast h rfl]
    refine le_max_of_le_right (Nat.add_le_add_left (Nat.mul_le_mul_right _ ?_) _)
    exact Nat.le_max_left _ _

/-- The levels between its types bound the distance of a structural cast. -/
theorem structuralCast_distance_le (h : structuralCast a b = some c) :
    c.distance ≤ max 1000 (Distance.explicit + a.levelsBetween b * Distance.upcastStep) := by
  fun_induction structuralCast a b generalizing c with
  | case1 a b hkey =>
    cases h
    exact Nat.zero_le _
  | case2 => cases h
  | case3 a b _ _ ih =>
    obtain ⟨inner, hinner, hlift⟩ := Option.bind_eq_some_iff.1 h
    have hle := ih hinner
    rcases liftToArrays_cases hlift with ⟨-, rfl⟩ | ⟨hdown, rfl⟩
    · exact hle
    · -- The price that is taken off is part of the distance.
      have hprice : Distance.explicit ≤ inner.distance := by
        rw [structuralCast_downcast hinner hdown]
        exact Nat.le_add_right _ _
      rw [Cast.ofExplicit, Nat.add_sub_cancel' hprice]
      exact hle
  | case4 a b _ hscalar =>
    rw [Ty.levelsBetween, Ty.elementLevelsDown_eq hscalar,
      Ty.elementLevelsDown_eq fun u v hu hv => hscalar v u hv hu]
    exact scalarCast_distance_le h

/-- The price is part of the distance of a structural cast that has to be written. -/
theorem structuralCast_price (h : structuralCast a b = some c) (hwritten : c.implicit = false) :
    Distance.explicit ≤ c.distance := by
  fun_induction structuralCast a b generalizing c with
  | case1 a b hkey =>
    cases h
    cases hwritten
  | case2 => cases h
  | case3 a b _ _ ih =>
    obtain ⟨inner, -, hlift⟩ := Option.bind_eq_some_iff.1 h
    rcases liftToArrays_cases hlift with ⟨-, rfl⟩ | ⟨-, rfl⟩
    · cases hwritten
    · exact Nat.le_add_right _ _
  | case4 a b _ hscalar =>
    cases scalarCast_cases h with
    | narrow | unboxUnchecked | fromRoot | down => exact Nat.le_add_right _ _
    | _ => cases hwritten

/-- Types of a closed set are no more levels apart than the hierarchies of the set have types. -/
theorem Ty.Closed.levelsBetween_le {O : Ty → Prop} (hO : Closed O) {levels : Nat}
    (hweight : ∀ t, O t → t.weight ≤ levels) (ha : O a) (hb : O b) :
    a.levelsBetween b ≤ levels := by
  have hdown : ∀ a b : Ty, O a → O b → a.elementLevelsDown b ≤ levels := by
    intro a b ha hb
    fun_induction elementLevelsDown a b with
    | case1 a b ih => exact ih (hO.component ha rfl) (hO.component hb rfl)
    | case2 a b => exact (levelsDown_le_weight a b).trans (hweight b hb)
  exact max_le (hdown a b ha hb) (hdown b a hb ha)

end RuleExpr
