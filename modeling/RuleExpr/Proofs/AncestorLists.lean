import RuleExpr.Proofs.AncestorLevels
import Mathlib.Data.List.Nodup
import Mathlib.Order.Bounds.Defs

/-!
# Lists of Ancestors

`Ty.ancestors` walks up like `Ty.ancestorDistance` but never stops early: it keeps every type whose
key is new.  The types kept so far have the keys that the other walk has visited, so that the two
walks take the same steps until the target is met, and the level found by one is the level listed
by the other for the same key.  This holds of any type whatever.  Where types of one key have
super-types of the same keys, levels are lengths of shortest chains, and the list holds every type
above the given one once, the nearest first.
-/

namespace RuleExpr.Ty

variable {O : Ty → Prop} {target : TypeKey} {t u : Ty} {queue found : Queue} {level : Nat}

/-- Keys of the types of a queue. -/
def keysOf (queue : Queue) : List TypeKey := queue.map (·.1.key)

theorem any_key_iff : found.any (·.1.key = t.key) = true ↔ t.key ∈ keysOf found := by
  rw [List.any_eq_true, keysOf, List.mem_map]
  simp only [decide_eq_true_eq]

/-- Keeping a type in one walk is visiting its key in the other. -/
theorem visited_iff_kept {visited : List TypeKey} (h : ∀ k, k ∈ visited ↔ k ∈ keysOf found)
    (k : TypeKey) : k ∈ t.key :: visited ↔ k ∈ keysOf (found ++ [(t, level)]) := by
  rw [List.mem_cons, h k, or_comm, keysOf, keysOf, List.map_append, List.mem_append,
    List.map_singleton, List.mem_singleton]

/-- What was found stays in front. -/
theorem collect_extends (queue found : Queue) : found <+: collect queue found := by
  fun_induction collect queue found with
  | case1 found => exact List.prefix_rfl
  | case2 t level queue found _ ih => exact ih
  | case3 t level queue found _ ih => exact (List.prefix_append _ _).trans ih

theorem find?_of_prefix {p : Ty × Nat → Bool} {entry : Ty × Nat} (hnone : found.find? p = none)
    (hentry : p entry = true) (h : found ++ [entry] <+: queue) : queue.find? p = some entry := by
  obtain ⟨rest, rfl⟩ := h
  simp [List.find?_append, hnone, hentry]

theorem find?_key_eq_none (htarget : target ∉ keysOf found) :
    found.find? (·.1.key = target) = none := by
  refine List.find?_eq_none.2 fun entry hentry hkey => htarget ?_
  rw [← of_decide_eq_true hkey]
  exact List.mem_map_of_mem hentry

/-- The walk to a target ends at the level that the walk through all types lists for it. -/
theorem levelOf_eq_find? {visited : List TypeKey}
    (hvisited : ∀ k, k ∈ visited ↔ k ∈ keysOf found) (htarget : target ∉ visited) :
    levelOf target queue visited =
      ((collect queue found).find? (·.1.key = target)).map (·.2) := by
  fun_induction collect queue found generalizing visited with
  | case1 found =>
    rw [levelOf, find?_key_eq_none fun hmem => htarget ((hvisited target).2 hmem)]
    rfl
  | case2 t level queue found hfound ih =>
    have hmem : t.key ∈ visited := (hvisited t.key).2 (any_key_iff.1 hfound)
    have hkey : t.key ≠ target := fun hkey => htarget (hkey ▸ hmem)
    rw [levelOf, if_neg hkey, if_pos hmem]
    exact ih hvisited htarget
  | case3 t level queue found hfound ih =>
    have hmem : t.key ∉ visited := fun hmem => hfound (any_key_iff.2 ((hvisited t.key).1 hmem))
    by_cases hkey : t.key = target
    · have hnone := find?_key_eq_none fun hmem => htarget ((hvisited target).2 hmem)
      rw [levelOf, if_pos hkey, find?_of_prefix hnone (decide_eq_true hkey) (collect_extends _ _)]
      rfl
    · rw [levelOf, if_neg hkey, if_neg hmem]
      exact ih (visited_iff_kept hvisited)
        (List.not_mem_cons_of_ne_of_not_mem (Ne.symm hkey) htarget)

theorem levelOf_nextLevel (t : Ty) (target : TypeKey) :
    levelOf target (nextLevel t 0) [] =
      (t.ancestors.find? (·.1.key = target)).map (·.2) :=
  levelOf_eq_find? (fun _ => Iff.rfl) List.not_mem_nil

/-- But for its own key, the levels above a type are those that it lists. -/
theorem ancestorDistance_eq_find? (hkey : t.key ≠ u.key) :
    t.ancestorDistance u = (t.ancestors.find? (·.1.key = u.key)).map (·.2) := by
  rw [ancestorDistance, if_neg hkey, levelOf_nextLevel]

/-- An ancestor of another key is listed under its key. -/
theorem mem_keysOf_ancestors (hkey : t.key ≠ u.key) (h : t.ancestorDistance u = some level) :
    u.key ∈ keysOf t.ancestors := by
  rw [ancestorDistance_eq_find? hkey] at h
  obtain ⟨entry, hfind, -⟩ := Option.map_eq_some_iff.1 h
  have hsame : entry.1.key = u.key := by simpa using List.find?_some hfind
  exact hsame ▸ List.mem_map_of_mem (List.mem_of_find?_eq_some hfind)

/-- A key is listed once. -/
theorem nodup_collect (h : (keysOf found).Nodup) : (keysOf (collect queue found)).Nodup := by
  fun_induction collect queue found with
  | case1 found => exact h
  | case2 t level queue found _ ih => exact ih h
  | case3 t level queue found hfound ih =>
    have hnew : t.key ∉ keysOf found := fun hmem => hfound (any_key_iff.2 hmem)
    refine ih ?_
    rw [keysOf, List.map_append, List.map_singleton, ← List.concat_eq_append]
    exact h.concat hnew

theorem nodup_ancestors (t : Ty) : (keysOf t.ancestors).Nodup := nodup_collect List.nodup_nil

/-- The list gives each of its types the level that is listed for its key. -/
theorem find?_of_mem_ancestors {entry : Ty × Nat} (h : entry ∈ t.ancestors) :
    t.ancestors.find? (·.1.key = entry.1.key) = some entry := by
  cases hfind : t.ancestors.find? (·.1.key = entry.1.key) with
  | none => exact absurd (decide_eq_true rfl) (List.find?_eq_none.1 hfind entry h)
  | some other =>
    have hkey : other.1.key = entry.1.key := by simpa using List.find?_some hfind
    rw [List.inj_on_of_nodup_map (nodup_ancestors t) (List.mem_of_find?_eq_some hfind) h hkey]

namespace Frontier

/-- What is found in the order of its levels, before all that waits, is found so to the end. -/
theorem collect_sorted (hO : Hierarchy O) {visited : List TypeKey} (h : Frontier O queue visited)
    (hvisited : ∀ k, k ∈ visited ↔ k ∈ keysOf found) (hsorted : found.Pairwise (·.2 ≤ ·.2))
    (hbelow : ∀ entry ∈ found, ∀ next ∈ queue, entry.2 ≤ next.2) :
    (collect queue found).Pairwise (·.2 ≤ ·.2) := by
  fun_induction collect queue found generalizing visited with
  | case1 found => exact hsorted
  | case2 t level queue found hfound ih =>
    exact ih (h.skip ((hvisited t.key).2 (any_key_iff.1 hfound))) hvisited hsorted
      fun entry hentry next hnext => hbelow entry hentry next (List.mem_cons_of_mem _ hnext)
  | case3 t level queue found hfound ih =>
    have hlevel : ∀ entry ∈ found ++ [(t, level)], entry.2 ≤ level := by
      intro entry hentry
      rcases List.mem_append.1 hentry with hentry | hentry
      · exact hbelow entry hentry _ List.mem_cons_self
      · exact Nat.le_of_eq (congrArg Prod.snd (List.mem_singleton.1 hentry))
    have hahead : ∀ next ∈ queue ++ nextLevel t level, level ≤ next.2 := by
      intro next hnext
      rcases List.mem_append.1 hnext with hnext | hnext
      · exact (List.pairwise_cons.1 h.sorted).1 next hnext
      · rw [level_of_mem_nextLevel hnext]
        exact Nat.le_succ level
    refine ih (h.expand hO) (visited_iff_kept hvisited) ?_ ?_
    · refine List.pairwise_append.2 ⟨hsorted, List.pairwise_singleton _ _, fun entry hentry other
        hother => ?_⟩
      rw [List.mem_singleton.1 hother]
      exact hlevel entry (List.mem_append_left _ hentry)
    · exact fun entry hentry next hnext => Nat.le_trans (hlevel entry hentry) (hahead next hnext)

end Frontier

namespace Hierarchy

variable (hO : Hierarchy O)

include hO

theorem sorted_ancestors (ht : O t) : t.ancestors.Pairwise (·.2 ≤ ·.2) :=
  (Frontier.start hO ht).collect_sorted hO (fun _ => Iff.rfl) List.Pairwise.nil
    fun _ hentry => absurd hentry List.not_mem_nil

/-- A walk never comes back to the key that it started from. -/
theorem key_notMem_ancestors (ht : O t) : t.key ∉ keysOf t.ancestors := by
  intro hmem
  obtain ⟨entry, hentry, hkey⟩ := List.mem_map.1 hmem
  have hlevel : levelOf t.key (Ty.nextLevel t 0) [] = some entry.2 := by
    rw [levelOf_nextLevel, ← hkey, find?_of_mem_ancestors hentry]
    rfl
  obtain ⟨waiting, hwaiting, n, hclimbs, -⟩ := climbs_of_levelOf hlevel
  obtain ⟨super, hsuper, rfl⟩ := List.mem_map.1 hwaiting
  exact absurd (hO.levels_eq_zero ht (.step hsuper hclimbs)) (Nat.succ_ne_zero n)

/-- The types listed are listed with their levels. -/
theorem ancestorDistance_of_mem (ht : O t) {entry : Ty × Nat} (h : entry ∈ t.ancestors) :
    t.ancestorDistance entry.1 = some entry.2 := by
  have hkey : t.key ≠ entry.1.key := fun hkey =>
    hO.key_notMem_ancestors ht (hkey ▸ List.mem_map_of_mem h)
  rw [ancestorDistance_eq_find? hkey, find?_of_mem_ancestors h]
  rfl

/-- Levels are the lengths of the shortest chains. -/
theorem ancestorDistance_eq_some_iff (ht : O t) :
    t.ancestorDistance u = some level ↔ IsLeast {n | Climbs u.key t n} level := by
  constructor
  · intro h
    refine ⟨climbs_of_ancestorDistance h, fun n hclimbs => ?_⟩
    obtain ⟨least, hle, hleast⟩ := hO.ancestorDistance_le ht hclimbs
    rw [h] at hleast
    cases hleast
    exact hle
  · rintro ⟨hclimbs, hleast⟩
    obtain ⟨least, hle, h⟩ := hO.ancestorDistance_le ht hclimbs
    rw [h, Nat.le_antisymm hle (hleast (climbs_of_ancestorDistance h))]

theorem ancestorDistance_eq_none_iff (ht : O t) :
    t.ancestorDistance u = none ↔ ∀ n, ¬Climbs u.key t n := by
  constructor
  · intro h n hclimbs
    obtain ⟨least, -, hleast⟩ := hO.ancestorDistance_le ht hclimbs
    rw [h] at hleast
    cases hleast
  · intro h
    cases hdistance : t.ancestorDistance u with
    | none => rfl
    | some level => exact absurd (climbs_of_ancestorDistance hdistance) (h level)

/-- The keys listed are those of the types above. -/
theorem mem_keysOf_ancestors_iff (ht : O t) (k : TypeKey) :
    k ∈ keysOf t.ancestors ↔ k ≠ t.key ∧ ∃ n, Climbs k t n := by
  constructor
  · intro hmem
    obtain ⟨entry, hentry, rfl⟩ := List.mem_map.1 hmem
    refine ⟨fun hkey => hO.key_notMem_ancestors ht (hkey ▸ hmem), entry.2, ?_⟩
    exact climbs_of_ancestorDistance (hO.ancestorDistance_of_mem ht hentry)
  · rintro ⟨hkey, n, hclimbs⟩
    obtain ⟨u, -, rfl, -⟩ := hO.exists_top ht hclimbs
    obtain ⟨least, -, h⟩ := hO.ancestorDistance_le ht hclimbs
    exact mem_keysOf_ancestors hkey.symm h

end Hierarchy

/-- The two walks up from a type find shortest chains.  The level of an ancestor is the length of a
shortest chain of super-types to its key, and there is none where no chain leads; the list of
ancestors holds each key above the type once, in the order of the levels, and with its level. -/
theorem ancestors_by_shortest_chain (hO : Hierarchy O) (ht : O t) :
    (∀ u level, t.ancestorDistance u = some level ↔ IsLeast {n | Climbs u.key t n} level) ∧
    (∀ u, t.ancestorDistance u = none ↔ ∀ n, ¬Climbs u.key t n) ∧
    (keysOf t.ancestors).Nodup ∧
    (∀ k, k ∈ keysOf t.ancestors ↔ k ≠ t.key ∧ ∃ n, Climbs k t n) ∧
    t.ancestors.Pairwise (·.2 ≤ ·.2) ∧
    ∀ entry ∈ t.ancestors, t.ancestorDistance entry.1 = some entry.2 :=
  ⟨fun _ _ => hO.ancestorDistance_eq_some_iff ht, fun _ => hO.ancestorDistance_eq_none_iff ht,
    nodup_ancestors t, hO.mem_keysOf_ancestors_iff ht, hO.sorted_ancestors ht,
    fun _ => hO.ancestorDistance_of_mem ht⟩

namespace Zoo

def animal : Ty := .interface 0 ⟨"zoo", "Animal"⟩ []

/-- The same interface, declared once more. -/
def creature : Ty := .interface 1 ⟨"zoo", "Animal"⟩ []

def pet : Ty := .interface 2 ⟨"zoo", "Pet"⟩ [creature]

def dog : Ty := .record 3 ⟨"zoo", "Dog"⟩ [pet, animal]

def puppy : Ty := .record 4 ⟨"zoo", "Puppy"⟩ [dog, pet]

def types : List Ty := [puppy, dog, pet, animal, creature]

theorem hierarchy : Hierarchy (· ∈ types) where
  super := by
    have hclosed : ∀ t ∈ types, ∀ u ∈ t.supers, u ∈ types := by
      simp [types, puppy, dog, pet, animal, creature, supers]
    exact fun {t u} ht hu => hclosed t ht u hu
  supers_alike := by
    have halike : ∀ t ∈ types, ∀ u ∈ types, t.key = u.key →
        t.supers.map key = u.supers.map key := by
      decide +kernel
    exact fun {t u} ht hu => halike t ht u hu

end Zoo

open Zoo in
/-- Three chains lead from a puppy up to the animals, and one of them is longer. -/
theorem ancestors_by_shortest_chain_puppy :
    Hierarchy (· ∈ types) ∧ puppy ∈ types ∧
    keysOf puppy.ancestors = [dog.key, pet.key, animal.key] ∧
    Climbs animal.key puppy 3 ∧ IsLeast {n | Climbs animal.key puppy n} 2 ∧
    puppy.ancestorDistance animal = some 2 ∧ ∀ n, ¬Climbs Ty.number.key puppy n := by
  have hpuppy : puppy ∈ types := List.mem_cons_self
  have hanimal : puppy.ancestorDistance animal = some 2 := by decide +kernel
  have hnumber : puppy.ancestorDistance .number = none := by decide +kernel
  have hlong : Climbs animal.key puppy 3 :=
    .step (u := dog) (by simp [puppy, supers]) <| .step (u := pet) (by simp [dog, supers]) <|
      .step (u := creature) (by simp [pet, supers]) (.here rfl)
  obtain ⟨hsome, hnone, -⟩ := ancestors_by_shortest_chain hierarchy hpuppy
  exact ⟨hierarchy, hpuppy, by decide +kernel, hlong, (hsome animal 2).1 hanimal, hanimal,
    (hnone .number).1 hnumber⟩

end RuleExpr.Ty
