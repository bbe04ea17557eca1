import Mathlib.Data.Prod.Lex
import RuleExpr.Proofs.BranchOrder
import RuleExpr.Proofs.FirstOfKey
import RuleExpr.Proofs.NearestOverload

/-!
# The Nearest Common Type

The common type of two types is looked for among the types that are named for them: the two
themselves and all targets that a provider converts one of them to, each key once.  Of those that
both types reach it is the first one at the least sum of the distances, and of these at the least
larger distance.  The order of the two types decides between candidates of one cost, and it decides
which of several types of one key is a candidate; that is all, so where types of one key are
equally far, both orders find types of the same cost.

The registry is any one whose providers answer with the end points they are asked for.
-/

namespace RuleExpr

namespace Registry

variable {r : Registry} {a b t u : Ty} {cands : List Ty} {cost : ℕ ×ₗ ℕ}

/-- Distance of the implicit conversion between two types, if there is one. -/
def distance? (r : Registry) (a t : Ty) : Option ℕ :=
  match r.implicitCast a t with
  | .ok cast? => cast?.map (·.distance)
  | .error _ => none

/-- What a candidate costs that both types reach: the sum of the distances, and if that is equal
the larger one. -/
def cost? (r : Registry) (a b t : Ty) : Option (ℕ ×ₗ ℕ) := do
  let fromA ← r.distance? a t
  let fromB ← r.distance? b t
  return toLex (fromA + fromB, max fromA fromB)

/-- The score that stands for a cost. -/
def Score.ofCost (cost : ℕ ×ₗ ℕ) : Score := ⟨(ofLex cost).1, (ofLex cost).2⟩

theorem Score.better_ofCost {cost other : ℕ ×ₗ ℕ} :
    (ofCost cost).better (ofCost other) = true ↔ cost < other := by
  rw [better_iff, Prod.Lex.lt_iff]
  rfl

theorem cost?_comm (r : Registry) (a b t : Ty) : r.cost? a b t = r.cost? b a t := by
  unfold cost?
  cases r.distance? a t <;> cases r.distance? b t <;> simp [Nat.add_comm, Nat.max_comm]

/-- Sums of distances to a type stay in the width of a distance. -/
def SumsInWidth (r : Registry) (a b t : Ty) : Prop :=
  ∀ cost ∈ r.cost? a b t, (ofLex cost).1 < Distance.limit

theorem distance?_eq {cast? : Option Cast} (h : r.implicitCast a t = .ok cast?) :
    r.distance? a t = cast?.map (·.distance) := by
  rw [distance?, h]

/-- A score is the cost as long as it fits. -/
theorem score?_eq (hr : r.Accurate) (hsum : r.SumsInWidth a b t) :
    r.score? a b t = .ok ((r.cost? a b t).map .ofCost) := by
  obtain ⟨fromA, hA⟩ := hr.answers.implicitCast a t
  obtain ⟨fromB, hB⟩ := hr.answers.implicitCast b t
  have hcost : r.cost? a b t = (fromA.map (·.distance)).bind fun x =>
      (fromB.map (·.distance)).bind fun y => some (toLex (x + y, max x y)) := by
    rw [cost?, distance?_eq hA, distance?_eq hB]
    rfl
  cases fromA with
  | none => rw [score?, hA, hB, hcost]; rfl
  | some f =>
  cases fromB with
  | none => rw [score?, hA, hB, hcost]; rfl
  | some g =>
    have hfits : f.distance + g.distance < Distance.limit := hsum _ hcost
    rw [hcost]
    exact score?_eq_some_iff.2 ⟨f, g, hA, hB, hfits, rfl⟩

/-- A candidate of the given cost, with dearer ones before it and none that are cheaper behind. -/
def FirstCheapest (r : Registry) (a b : Ty) (cands : List Ty) (t : Ty) (cost : ℕ ×ₗ ℕ) : Prop :=
  r.cost? a b t = some cost ∧ ∃ before behind, cands = before ++ t :: behind ∧
    (∀ u ∈ before, ∀ other ∈ r.cost? a b u, cost < other) ∧
    ∀ u ∈ behind, ∀ other ∈ r.cost? a b u, cost ≤ other

theorem FirstCheapest.mem (h : r.FirstCheapest a b cands t cost) : t ∈ cands := by
  obtain ⟨-, before, behind, rfl, -, -⟩ := h
  exact List.mem_append_right _ List.mem_cons_self

theorem FirstCheapest.le (h : r.FirstCheapest a b cands t cost) {other : ℕ ×ₗ ℕ} (hu : u ∈ cands)
    (hother : r.cost? a b u = some other) : cost ≤ other := by
  obtain ⟨hcost, before, behind, rfl, hbefore, hbehind⟩ := h
  rcases List.mem_append.1 hu with hu | hu
  · exact le_of_lt (hbefore u hu other hother)
  rcases List.mem_cons.1 hu with rfl | hu
  · exact le_of_eq (Option.some.inj (hcost.symm.trans hother))
  · exact hbehind u hu other hother

/-- What is kept after some candidates: nothing if none is reached, else the first of the
cheapest. -/
def Kept (r : Registry) (a b : Ty) (cands : List Ty) : Option (Score × Ty) → Prop
  | none => ∀ t ∈ cands, r.cost? a b t = none
  | some (score, t) => ∃ cost, score = .ofCost cost ∧ r.FirstCheapest a b cands t cost

theorem Kept.skip {best : Option (Score × Ty)} (h : r.Kept a b cands best)
    (ht : r.cost? a b t = none) : r.Kept a b (cands ++ [t]) best := by
  cases best with
  | none => exact List.forall_mem_append.2 ⟨h, List.forall_mem_singleton.2 ht⟩
  | some best =>
    obtain ⟨cost, hscore, hcost, before, behind, rfl, hbefore, hbehind⟩ := h
    refine ⟨cost, hscore, hcost, before, behind ++ [t], by simp, hbefore, ?_⟩
    refine List.forall_mem_append.2 ⟨hbehind, List.forall_mem_singleton.2 ?_⟩
    intro other hother
    cases ht.symm.trans hother

theorem Kept.add {best : Option (Score × Ty)} (h : r.Kept a b cands best)
    (ht : r.cost? a b t = some cost) :
    r.Kept a b (cands ++ [t]) (keepBest best (.ofCost cost) t) := by
  cases best with
  | none =>
    refine ⟨cost, rfl, ht, cands, [], rfl, fun u hu other hother => ?_, List.forall_mem_nil _⟩
    cases (h u hu).symm.trans hother
  | some best =>
    obtain ⟨_, kept⟩ := best
    obtain ⟨least, rfl, hfirst⟩ := h
    by_cases hlt : cost < least
    · have hkeep : keepBest (some (.ofCost least, kept)) (.ofCost cost) t =
          some (.ofCost cost, t) := if_pos (Score.better_ofCost.2 hlt)
      rw [hkeep]
      refine ⟨cost, rfl, ht, cands, [], rfl, fun u hu other hother => ?_, List.forall_mem_nil _⟩
      exact lt_of_lt_of_le hlt (hfirst.le hu hother)
    · have hkeep : keepBest (some (.ofCost least, kept)) (.ofCost cost) t =
          some (.ofCost least, kept) := if_neg (mt Score.better_ofCost.1 hlt)
      rw [hkeep]
      obtain ⟨hcost, before, behind, rfl, hbefore, hbehind⟩ := hfirst
      refine ⟨least, rfl, hcost, before, behind ++ [t], by simp, hbefore, ?_⟩
      refine List.forall_mem_append.2 ⟨hbehind, List.forall_mem_singleton.2 ?_⟩
      intro other hother
      cases ht.symm.trans hother
      exact le_of_not_gt hlt

/-- Going through further candidates keeps the first of the cheapest. -/
theorem bestOf_kept {seen : List Ty} {best : Option (Score × Ty)} (hr : r.Accurate)
    (hsum : ∀ t ∈ cands, r.SumsInWidth a b t) (h : r.Kept a b seen best) :
    ∃ result, r.bestOf a b cands best = .ok result ∧ r.Kept a b (seen ++ cands) result := by
  induction cands generalizing seen best with
  | nil => exact ⟨best, rfl, by rwa [List.append_nil]⟩
  | cons t rest ih =>
    rw [List.forall_mem_cons] at hsum
    rw [bestOf, score?_eq hr hsum.1, ← List.singleton_append, ← List.append_assoc]
    cases hcost : r.cost? a b t with
    | none => exact ih hsum.2 (h.skip hcost)
    | some cost => exact ih hsum.2 (h.add hcost)

/-- The types that are named for two types, in the order in which they are asked for. -/
def named (r : Registry) (a b : Ty) : List Ty :=
  a :: b :: r.providers.flatMap fun p => p.targets a ++ p.targets b

theorem candidates_eq (r : Registry) (a b : Ty) :
    r.candidates a b = firstsBy Ty.key (r.named a b) :=
  Assoc.values_merge_eq Ty.key (r.named a b)

theorem mem_named_comm : t ∈ r.named a b ↔ t ∈ r.named b a := by
  simp only [named, List.mem_cons, List.mem_flatMap, List.mem_append]
  rw [or_left_comm]
  simp only [or_comm]

theorem mem_named_of_mem_candidates (h : t ∈ r.candidates a b) : t ∈ r.named a b := by
  rw [candidates_eq] at h
  exact (firstsBy_sublist _ _).subset h

/-- Types of one key that are named for the two types cost the same. -/
def KeysCostAlike (r : Registry) (a b : Ty) : Prop :=
  ∀ t ∈ r.named a b, ∀ u ∈ r.named a b, t.key = u.key → r.cost? a b t = r.cost? a b u

theorem KeysCostAlike.comm (h : r.KeysCostAlike a b) : r.KeysCostAlike b a := by
  intro t ht u hu hkey
  rw [cost?_comm r b a t, cost?_comm r b a u]
  exact h t (mem_named_comm.1 ht) u (mem_named_comm.1 hu) hkey

/-- Every named type costs as much as a candidate. -/
theorem KeysCostAlike.exists_candidate (h : r.KeysCostAlike a b) (ht : t ∈ r.named a b) :
    ∃ u ∈ r.candidates a b, r.cost? a b u = r.cost? a b t := by
  obtain ⟨u, hu, hkey⟩ := exists_mem_firstsBy Ty.key ht
  rw [← candidates_eq] at hu
  exact ⟨u, hu, h u (mem_named_of_mem_candidates hu) t ht hkey⟩

/-- A candidate of one order costs as much as one of the other order. -/
theorem KeysCostAlike.exists_swapped (h : r.KeysCostAlike a b) (ht : t ∈ r.candidates b a) :
    ∃ u ∈ r.candidates a b, r.cost? a b u = r.cost? b a t := by
  rw [cost?_comm r b a t]
  exact h.exists_candidate (mem_named_comm.1 (mem_named_of_mem_candidates ht))

/-- The first of the cheapest candidates, or nothing if none is reached from both types. -/
def Selects (r : Registry) (a b : Ty) (t? : Option Ty) : Prop :=
  (t? = none ↔ ∀ t ∈ r.candidates a b, r.cost? a b t = none) ∧
    ∀ t ∈ t?, ∃ cost, r.FirstCheapest a b (r.candidates a b) t cost

theorem commonType_selects (hr : r.Accurate) (hkey : a.key ≠ b.key)
    (hsum : ∀ t ∈ r.candidates a b, r.SumsInWidth a b t) :
    ∃ t?, r.commonType a b = .ok t? ∧ r.Selects a b t? := by
  have hnothing : r.Kept a b [] none := List.forall_mem_nil _
  obtain ⟨result, hresult, hkept⟩ := bestOf_kept hr hsum hnothing
  rw [commonType, if_neg hkey, hresult]
  cases result with
  | none => exact ⟨none, rfl, ⟨fun _ => hkept, fun _ => rfl⟩, fun t ht => by cases ht⟩
  | some kept =>
    obtain ⟨cost, -, hfirst⟩ := hkept
    refine ⟨some kept.2, rfl, ⟨fun hnone => ?_, fun hall => ?_⟩, ?_⟩
    · cases hnone
    · cases (hall _ hfirst.mem).symm.trans hfirst.1
    · rintro _ ⟨⟩
      exact ⟨cost, hfirst⟩

/-- What one order selects costs no more than what the other does. -/
theorem Selects.le {t? u? : Option Ty} (ht? : r.Selects a b t?) (hu? : r.Selects b a u?)
    (halike : r.KeysCostAlike a b) (ht : t ∈ t?) (hu : u ∈ u?) :
    ∃ least cost, r.cost? a b t = some least ∧ r.cost? b a u = some cost ∧ least ≤ cost := by
  obtain ⟨least, hleast⟩ := ht?.2 t ht
  obtain ⟨cost, hcost⟩ := hu?.2 u hu
  obtain ⟨v, hv, hsame⟩ := halike.exists_swapped hcost.mem
  exact ⟨least, cost, hleast.1, hcost.1, hleast.le hv (hsame.trans hcost.1)⟩

theorem Selects.eq_none {t? u? : Option Ty} (ht? : r.Selects a b t?) (hu? : r.Selects b a u?)
    (halike : r.KeysCostAlike a b) (h : t? = none) : u? = none := by
  rw [hu?.1]
  intro u hu
  obtain ⟨v, hv, hsame⟩ := halike.exists_swapped hu
  rw [← hsame, ht?.1.1 h v hv]

end Registry

/-- Copies of one type are equally far. -/
theorem Registry.IgnoresNumbers.cost?_eq {r : Registry} {a b t u : Ty} (hr : r.IgnoresNumbers)
    (h : t.IsCopy u) : r.cost? a b t = r.cost? a b u := by
  have hdistance (a : Ty) : r.distance? a t = r.distance? a u := by
    unfold distance?
    match r.implicitCast a t, r.implicitCast a u, hr.implicitCast_isCopy (.refl a) h with
    | _, _, .error _ => rfl
    | _, _, .ok .none => rfl
    | _, _, .ok (.some hcopy) => exact congrArg some hcopy.distance_eq
  unfold cost?
  rw [hdistance a, hdistance b]

/-- Where types of one key are copies of one another, they cost the same. -/
theorem Ty.Uniform.keysCostAlike {O : Ty → Prop} {a b : Ty} (hO : Uniform O) (ha : O a)
    (hb : O b) : Library.registry.KeysCostAlike a b := by
  have hkeeps := Library.registry_keeps hO.toClosed
  have hnamed : ∀ t ∈ Library.registry.named a b, O t := by
    refine List.forall_mem_cons.2 ⟨ha, List.forall_mem_cons.2 ⟨hb, fun t ht => ?_⟩⟩
    obtain ⟨p, hp, ht⟩ := List.mem_flatMap.1 ht
    rcases List.mem_append.1 ht with ht | ht
    · exact hkeeps.targets p hp ha t ht
    · exact hkeeps.targets p hp hb t ht
  intro t ht u hu hkey
  exact Library.registry_ignoresNumbers.cost?_eq (hO.isCopy (hnamed t ht) (hnamed u hu) hkey)

/-- The common type is the first of the cheapest candidates, if there is a candidate that both types
reach.  The other order finds one in the same cases and at the same cost, as long as candidates of
one key cost the same. -/
theorem commonType_first_cheapest {r : Registry} {a b : Ty} (hr : r.Accurate)
    (hkey : a.key ≠ b.key) (hsum : ∀ t ∈ r.candidates a b, r.SumsInWidth a b t) :
    r.candidates a b = firstsBy Ty.key (r.named a b) ∧
    ∃ t?, r.commonType a b = .ok t? ∧
      (t? = none ↔ ∀ t ∈ r.candidates a b, r.cost? a b t = none) ∧
      (∀ t ∈ t?, ∃ cost, r.FirstCheapest a b (r.candidates a b) t cost) ∧
      (r.KeysCostAlike a b → ∃ u?, r.commonType b a = .ok u? ∧ (u? = none ↔ t? = none) ∧
        ∀ t ∈ t?, ∀ u ∈ u?, r.cost? b a u = r.cost? a b t) := by
  obtain ⟨t?, ht?, hselects⟩ := Registry.commonType_selects hr hkey hsum
  refine ⟨r.candidates_eq a b, t?, ht?, hselects.1, hselects.2, fun halike => ?_⟩
  -- The other order chooses among candidates of the same costs.
  have hsum' : ∀ u ∈ r.candidates b a, r.SumsInWidth b a u := by
    intro u hu cost hcost
    obtain ⟨t, ht, hsame⟩ := halike.exists_swapped hu
    exact hsum t ht cost (hsame.trans hcost)
  obtain ⟨u?, hu?, hselects'⟩ := Registry.commonType_selects hr hkey.symm hsum'
  refine ⟨u?, hu?, ⟨hselects'.eq_none hselects halike.comm, hselects.eq_none hselects' halike⟩, ?_⟩
  intro t ht u hu
  obtain ⟨least, cost, hleast, hcost, hle⟩ := hselects.le hselects' halike ht hu
  obtain ⟨cost', least', hcost', hleast', hge⟩ := hselects'.le hselects halike.comm hu ht
  cases hcost.symm.trans hcost'
  cases hleast.symm.trans hleast'
  rw [hcost, hleast, le_antisymm hge hle]

/-- A common type is known by what an evaluation shows of it. -/
theorem Registry.exists_of_commonType_map {β : Type} {r : Registry} {a b : Ty} (view : Ty → β)
    (shown : β) (h : (r.commonType a b).map (·.map view) = .ok (some shown)) :
    ∃ t, r.commonType a b = .ok (some t) ∧ view t = shown := by
  cases hcommon : r.commonType a b with
  | error e =>
    rw [hcommon] at h
    cases h
  | ok t? =>
    rw [hcommon] at h
    obtain ⟨t, rfl, hview⟩ := Option.map_eq_some_iff.1 (Except.ok.inj h)
    exact ⟨t, rfl, hview⟩

theorem exists_of_commonType_map {β : Type} {a b : Ty} (view : Ty → β) (shown : β)
    (h : (Library.registry.commonType a b).map (·.map view) = .ok (some shown)) :
    ∃ t, Library.registry.commonType a b = .ok (some t) ∧ view t = shown :=
  Registry.exists_of_commonType_map view shown h

open Documents in
/-- Two interfaces cost the same from two classes that name them in different orders: each order
selects the one that its first class names first. -/
theorem commonType_first_cheapest_tie :
    Library.registry.Accurate ∧ invoice.key ≠ receipt.key ∧
    (∀ t ∈ Library.registry.candidates invoice receipt,
      Library.registry.SumsInWidth invoice receipt t) ∧
    Library.registry.KeysCostAlike invoice receipt ∧
    ∃ t u, Library.registry.commonType invoice receipt = .ok (some t) ∧
      Library.registry.commonType receipt invoice = .ok (some u) ∧
      t.key = printable.key ∧ u.key = payable.key ∧
      Library.registry.cost? invoice receipt t = some (toLex (4, 2)) ∧
      Library.registry.cost? receipt invoice u = some (toLex (4, 2)) := by
  have hinvoice : Ty.Over types invoice :=
    Ty.over_of_mem (List.mem_append_right _ (by simp [types])) rfl
  have hreceipt : Ty.Over types receipt :=
    Ty.over_of_mem (List.mem_append_right _ (by simp [types])) rfl
  have halike : Library.registry.KeysCostAlike invoice receipt :=
    uniform.types.keysCostAlike hinvoice hreceipt
  have hsum : ∀ t ∈ Library.registry.candidates invoice receipt,
      Library.registry.SumsInWidth invoice receipt t := by
    unfold Registry.SumsInWidth
    decide +kernel
  obtain ⟨-, _, ht?, -, -, hswap⟩ :=
    commonType_first_cheapest Library.registry_accurate (by decide) hsum
  obtain ⟨_, hu?, -, hsame⟩ := hswap halike
  obtain ⟨t, ht, hview⟩ := exists_of_commonType_map (a := invoice) (b := receipt)
    (fun t => (t.key, Library.registry.cost? invoice receipt t))
    (printable.key, some (toLex (4, 2))) (by decide +kernel)
  obtain ⟨u, hu, hkeyU⟩ := exists_of_commonType_map (a := receipt) (b := invoice)
    Ty.key payable.key (by decide +kernel)
  obtain ⟨hkeyT, hcost⟩ := Prod.mk.inj hview
  obtain rfl := Except.ok.inj (ht?.symm.trans ht)
  obtain rfl := Except.ok.inj (hu?.symm.trans hu)
  exact ⟨Library.registry_accurate, by decide, hsum, halike, t, u, ht, hu, hkeyT, hkeyU,
    hcost, (hsame t rfl u rfl).trans hcost⟩

namespace Homonyms

/-- A class with the key of the root of all references. -/
def root : Ty := .record 0 ⟨"lang", "Object"⟩ []

def shape : Ty := .interface 1 ⟨"rules", "Shape"⟩ []

def square : Ty := .record 2 ⟨"rules", "Square"⟩ [root, shape]

def circle : Ty :=
  .record 4 ⟨"rules", "Circle"⟩ [.object, .record 3 ⟨"rules", "Figure"⟩ [shape]]

/-- A class with the key of the type of no value. -/
def nothing : Ty := .record 5 ⟨"", "void"⟩ []

def left : Ty := .record 6 ⟨"rules", "Left"⟩ [nothing]

def right : Ty := .record 7 ⟨"rules", "Right"⟩ [.void]

end Homonyms

open Homonyms in
/-- A class stands for the root of all references if it is named before it, at a smaller cost, and
one for the type of no value, which no class converts to. -/
theorem commonType_depends_on_order :
    Library.registry.Accurate ∧
    (∀ a ∈ [square, circle, left, right], ∀ b ∈ [square, circle, left, right],
      ∀ t ∈ Library.registry.candidates a b, Library.registry.SumsInWidth a b t) ∧
    (∃ t u, Library.registry.commonType square circle = .ok (some t) ∧
      Library.registry.commonType circle square = .ok (some u) ∧
      t.key = root.key ∧ u.key = shape.key ∧
      Library.registry.cost? square circle t = some (toLex (4, 2)) ∧
      Library.registry.cost? circle square u = some (toLex (6, 4))) ∧
    (∃ t, Library.registry.commonType left right = .ok (some t) ∧ t.key = nothing.key) ∧
    Library.registry.commonType right left = .ok none := by
  have hsum : ∀ a ∈ [square, circle, left, right], ∀ b ∈ [square, circle, left, right],
      ∀ t ∈ Library.registry.candidates a b, Library.registry.SumsInWidth a b t := by
    unfold Registry.SumsInWidth
    decide +kernel
  refine ⟨Library.registry_accurate, hsum, ?_, ?_, ?_⟩
  · obtain ⟨t, ht, hviewT⟩ := exists_of_commonType_map (a := square) (b := circle)
      (fun t => (t.key, Library.registry.cost? square circle t))
      (root.key, some (toLex (4, 2))) (by decide +kernel)
    obtain ⟨u, hu, hviewU⟩ := exists_of_commonType_map (a := circle) (b := square)
      (fun u => (u.key, Library.registry.cost? circle square u))
      (shape.key, some (toLex (6, 4))) (by decide +kernel)
    obtain ⟨hkeyT, hcostT⟩ := Prod.mk.inj hviewT
    obtain ⟨hkeyU, hcostU⟩ := Prod.mk.inj hviewU
    exact ⟨t, u, ht, hu, hkeyT, hkeyU, hcostT, hcostU⟩
  · exact exists_of_commonType_map Ty.key nothing.key (by decide +kernel)
  · obtain ⟨t?, ht?, hselects⟩ := Registry.commonType_selects (a := right) (b := left)
      Library.registry_accurate (by decide) (hsum right (by simp) left (by simp))
    rw [ht?, hselects.1.2 (by decide +kernel)]

end RuleExpr
