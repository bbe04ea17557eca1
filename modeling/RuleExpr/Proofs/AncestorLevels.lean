import RuleExpr.Proofs.Soundness.Casts

/-!
# Levels of Ancestors

A chain of super-types leads up from a type to each of its ancestors, and the length of a chain is
a level of the ancestor at its end.  `Ty.ancestorDistance` waits for the ancestors in a queue and
expands each key once.  If types of one key have super-types of the same keys, then expanding one
of them is as good as expanding all, and what is found is the length of a shortest chain.  Levels
then add up along chains, and no chain leads from a type back to its own key.
-/

namespace RuleExpr.Ty

variable {O : Ty → Prop} {target : TypeKey} {t u v w : Ty} {m n levels : Nat}

/-- Sets of types with their super-types, in which types of one key have super-types of the same
keys. -/
structure Hierarchy (O : Ty → Prop) : Prop where
  super : ∀ {t u : Ty}, O t → u ∈ t.supers → O u
  supers_alike : ∀ {t u : Ty}, O t → O u → t.key = u.key → t.supers.map key = u.supers.map key

/-- A chain of so many super-types leads from the type up to one with the key `target`. -/
inductive Climbs (target : TypeKey) : Ty → Nat → Prop
  | here {t : Ty} (hkey : t.key = target) : Climbs target t 0
  | step {t u : Ty} {levels : Nat} (hsuper : u ∈ t.supers) (habove : Climbs target u levels) :
      Climbs target t (levels + 1)

theorem Climbs.exists_super (h : Climbs target t levels) (hkey : t.key ≠ target) :
    ∃ u ∈ t.supers, ∃ n, Climbs target u n ∧ levels = n + 1 := by
  cases h with
  | here hsame => exact absurd hsame hkey
  | step hsuper habove => exact ⟨_, hsuper, _, habove, rfl⟩

namespace Hierarchy

variable (hO : Hierarchy O)

include hO

/-- At the end of a chain there is a smaller type. -/
theorem exists_top (ht : O t) (h : Climbs target t levels) :
    ∃ u, O u ∧ u.key = target ∧ u.weight + levels ≤ t.weight := by
  induction h with
  | @here t hkey => exact ⟨t, ht, hkey, Nat.le_refl _⟩
  | step hsuper _ ih =>
    obtain ⟨u, hu, hkey, hweight⟩ := ih (hO.super ht hsuper)
    have hlt := weight_lt_of_mem_supers hsuper
    exact ⟨u, hu, hkey, by omega⟩

/-- The last step of a chain. -/
theorem exists_last (ht : O t) (h : Climbs target t levels) (hkey : t.key ≠ target) :
    ∃ v u, O v ∧ u ∈ v.supers ∧ u.key = target := by
  induction h with
  | here hsame => exact absurd hsame hkey
  | @step t u _ hsuper _ ih =>
    by_cases hsame : u.key = target
    · exact ⟨t, u, ht, hsuper, hsame⟩
    · exact ih (hO.super ht hsuper) hsame

theorem exists_super_of_key (ht : O t) (hu : O u) (hkey : t.key = u.key) (hv : v ∈ t.supers) :
    ∃ w ∈ u.supers, w.key = v.key := by
  have hmem : v.key ∈ u.supers.map key := by
    rw [← hO.supers_alike ht hu hkey]
    exact List.mem_map_of_mem hv
  exact List.mem_map.1 hmem

theorem climbs_congr (ht : O t) (hu : O u) (hkey : t.key = u.key) (h : Climbs target t levels) :
    Climbs target u levels := by
  induction h generalizing u with
  | here hsame => exact .here (hkey.symm.trans hsame)
  | step hsuper _ ih =>
    obtain ⟨w, hw, hsame⟩ := hO.exists_super_of_key ht hu hkey hsuper
    exact .step hw (ih (hO.super ht hsuper) (hO.super hu hw) hsame.symm)

theorem climbs_trans (ht : O t) (hu : O u) (h : Climbs u.key t m) (h' : Climbs target u n) :
    Climbs target t (n + m) := by
  induction h with
  | here hkey => exact hO.climbs_congr hu ht hkey.symm h'
  | step hsuper _ ih => exact .step hsuper (ih (hO.super ht hsuper))

/-- No chain leads from a type to its own key, but for the one that stays. -/
theorem levels_eq_zero (ht : O t) (h : Climbs t.key t levels) : levels = 0 := by
  induction hweight : t.weight using Nat.strongRecOn generalizing t with
  | ind weight ih =>
    rcases Nat.eq_zero_or_pos levels with hzero | hpos
    · exact hzero
    -- The type at the end of the chain is smaller and has the same chain again.
    obtain ⟨u, hu, hkey, hle⟩ := hO.exists_top ht h
    have hagain : Climbs u.key u levels := by
      rw [hkey]
      exact hO.climbs_congr ht hu hkey.symm h
    exact ih u.weight (by omega) hu hagain rfl

end Hierarchy

/-- A type that is found stands at the end of a chain from a waiting type. -/
theorem climbs_of_levelOf {queue : Queue} {visited : List TypeKey} {level : Nat}
    (h : levelOf target queue visited = some level) :
    ∃ entry ∈ queue, ∃ n, Climbs target entry.1 n ∧ level = entry.2 + n := by
  fun_induction levelOf target queue visited with
  | case1 => cases h
  | case2 t level queue visited hkey =>
    cases h
    exact ⟨(t, level), List.mem_cons_self, 0, .here hkey, rfl⟩
  | case3 t level queue visited _ _ ih =>
    obtain ⟨entry, hentry, hclimbs⟩ := ih h
    exact ⟨entry, List.mem_cons_of_mem _ hentry, hclimbs⟩
  | case4 t level queue visited _ _ ih =>
    obtain ⟨entry, hentry, n, hclimbs, hlevel⟩ := ih h
    rcases List.mem_append.1 hentry with hwaiting | hnext
    · exact ⟨entry, List.mem_cons_of_mem _ hwaiting, n, hclimbs, hlevel⟩
    · obtain ⟨u, hu, rfl⟩ := List.mem_map.1 hnext
      refine ⟨(t, level), List.mem_cons_self, n + 1, .step hu hclimbs, ?_⟩
      rw [hlevel]
      simp only
      omega

theorem climbs_of_ancestorDistance (h : t.ancestorDistance u = some levels) :
    Climbs u.key t levels := by
  unfold ancestorDistance at h
  split at h
  case isTrue hkey =>
    cases h
    exact .here hkey
  case isFalse =>
    obtain ⟨entry, hentry, n, hclimbs, rfl⟩ := climbs_of_levelOf h
    obtain ⟨super, hsuper, rfl⟩ := List.mem_map.1 hentry
    rw [Nat.zero_add, Nat.add_comm]
    exact .step hsuper hclimbs

theorem level_of_mem_nextLevel {level : Nat} {entry : Ty × Nat} (h : entry ∈ nextLevel t level) :
    entry.2 = level + 1 := by
  obtain ⟨super, -, rfl⟩ := List.mem_map.1 h
  rfl

theorem pairwise_nextLevel (t : Ty) (level : Nat) : (nextLevel t level).Pairwise (·.2 ≤ ·.2) := by
  refine List.pairwise_of_forall_mem_list fun entry hentry other hother => ?_
  exact Nat.le_of_eq
    ((level_of_mem_nextLevel hentry).trans (level_of_mem_nextLevel hother).symm)

theorem Hierarchy.nextLevel (hO : Hierarchy O) (ht : O t) {level : Nat} :
    ∀ entry ∈ nextLevel t level, O entry.1 := by
  intro entry hentry
  obtain ⟨super, hsuper, rfl⟩ := List.mem_map.1 hentry
  exact hO.super ht hsuper

/-- Between two steps of a walk: the waiting types are in the order of their levels, which differ
by one at most, and above a key that was visited there are keys that were visited or wait. -/
structure Frontier (O : Ty → Prop) (queue : Queue) (visited : List TypeKey) : Prop where
  types : ∀ entry ∈ queue, O entry.1
  sorted : queue.Pairwise (·.2 ≤ ·.2)
  near : ∀ entry ∈ queue, ∀ other ∈ queue, other.2 ≤ entry.2 + 1
  above : ∀ {v w : Ty}, O v → v.key ∈ visited → w ∈ v.supers →
    w.key ∈ visited ∨ ∃ entry ∈ queue, entry.1.key = w.key

namespace Frontier

variable {queue : Queue} {visited : List TypeKey} {level : Nat}

/-- What is above a visited key is the first waiting type, or was visited, or waits behind it. -/
theorem above_of_visited (h : Frontier O ((t, level) :: queue) visited) (hv : O v)
    (hmem : v.key ∈ visited) (hw : w ∈ v.supers) :
    w.key = t.key ∨ w.key ∈ visited ∨ ∃ entry ∈ queue, entry.1.key = w.key := by
  rcases h.above hv hmem hw with hvisited | ⟨entry, hentry, hkey⟩
  · exact .inr (.inl hvisited)
  · rcases List.mem_cons.1 hentry with rfl | hentry
    · exact .inl hkey.symm
    · exact .inr (.inr ⟨entry, hentry, hkey⟩)

/-- Passing over a type whose key was visited. -/
theorem skip (h : Frontier O ((t, level) :: queue) visited) (ht : t.key ∈ visited) :
    Frontier O queue visited where
  types entry hentry := h.types entry (List.mem_cons_of_mem _ hentry)
  sorted := (List.pairwise_cons.1 h.sorted).2
  near entry hentry other hother :=
    h.near entry (List.mem_cons_of_mem _ hentry) other (List.mem_cons_of_mem _ hother)
  above hv hmem hw := by
    rcases h.above_of_visited hv hmem hw with hkey | hrest
    · exact .inl (hkey ▸ ht)
    · exact hrest

/-- Expanding a type whose key was not visited. -/
theorem expand (hO : Hierarchy O) (h : Frontier O ((t, level) :: queue) visited) :
    Frontier O (queue ++ nextLevel t level) (t.key :: visited) := by
  have ht : O t := h.types _ List.mem_cons_self
  have hlow : ∀ entry ∈ queue, level ≤ entry.2 := (List.pairwise_cons.1 h.sorted).1
  have hhigh : ∀ entry ∈ queue, entry.2 ≤ level + 1 := fun entry hentry =>
    h.near _ List.mem_cons_self entry (List.mem_cons_of_mem _ hentry)
  -- All levels of the new queue are those of the first type and the next one.
  have hlevels : ∀ entry ∈ queue ++ nextLevel t level, level ≤ entry.2 ∧ entry.2 ≤ level + 1 := by
    intro entry hentry
    rcases List.mem_append.1 hentry with hwaiting | hnext
    · exact ⟨hlow entry hwaiting, hhigh entry hwaiting⟩
    · have hlevel := level_of_mem_nextLevel hnext
      omega
  refine ⟨?_, ?_, ?_, ?_⟩
  · intro entry hentry
    rcases List.mem_append.1 hentry with hwaiting | hnext
    · exact h.types entry (List.mem_cons_of_mem _ hwaiting)
    · exact hO.nextLevel ht entry hnext
  · refine List.pairwise_append.2
      ⟨(List.pairwise_cons.1 h.sorted).2, pairwise_nextLevel t level, ?_⟩
    intro entry hentry other hother
    rw [level_of_mem_nextLevel hother]
    exact hhigh entry hentry
  · intro entry hentry other hother
    have hfirst := hlevels entry hentry
    have hsecond := hlevels other hother
    omega
  · intro v w hv hmem hw
    rcases List.mem_cons.1 hmem with hkey | hvisited
    · obtain ⟨super, hsuper, hsame⟩ := hO.exists_super_of_key hv ht hkey hw
      exact .inr ⟨(super, level + 1),
        List.mem_append_right _ (List.mem_map_of_mem hsuper), hsame⟩
    · rcases h.above_of_visited hv hvisited hw with hkey | hvisited | ⟨entry, hentry, hkey⟩
      · exact .inl (hkey ▸ List.mem_cons_self)
      · exact .inl (List.mem_cons_of_mem _ hvisited)
      · exact .inr ⟨entry, List.mem_append_left _ hentry, hkey⟩

/-- A chain from a visited key, the target not being visited, passes a waiting type. -/
theorem exists_waiting (hO : Hierarchy O) (h : Frontier O queue visited)
    (htarget : target ∉ visited) (hv : O v) (hmem : v.key ∈ visited) (hclimbs : Climbs target v n) :
    ∃ entry ∈ queue, ∃ m < n, Climbs target entry.1 m := by
  induction hclimbs with
  | here hkey => exact absurd (hkey ▸ hmem) htarget
  | step hsuper habove ih =>
    have hw := hO.super hv hsuper
    rcases h.above hv hmem hsuper with hvisited | ⟨entry, hentry, hkey⟩
    · obtain ⟨entry, hentry, m, hm, hclimbs⟩ := ih hw hvisited
      exact ⟨entry, hentry, m, Nat.lt_succ_of_lt hm, hclimbs⟩
    · exact ⟨entry, hentry, _, Nat.lt_succ_self _,
        hO.climbs_congr hw (h.types entry hentry) hkey.symm habove⟩

/-- The super-types of a type wait at the start of a walk from it. -/
theorem start (hO : Hierarchy O) (ht : O t) : Frontier O (nextLevel t 0) [] where
  types := hO.nextLevel ht
  sorted := pairwise_nextLevel t 0
  near entry hentry other hother := by
    rw [level_of_mem_nextLevel hentry, level_of_mem_nextLevel hother]
    exact Nat.le_succ _
  above _ hmem := absurd hmem List.not_mem_nil

/-- A walk finds the target on every chain from a waiting type, or before. -/
theorem levelOf_le (hO : Hierarchy O) (h : Frontier O queue visited) (htarget : target ∉ visited)
    {entry : Ty × Nat} (hentry : entry ∈ queue) (hclimbs : Climbs target entry.1 n) :
    ∃ found ≤ entry.2 + n, levelOf target queue visited = some found := by
  fun_induction levelOf target queue visited generalizing entry n with
  | case1 => cases hentry
  | case2 t level queue visited hkey =>
    -- The queue is sorted, so no waiting type has a smaller level than the one that is found.
    refine ⟨level, Nat.le_add_right_of_le ?_, rfl⟩
    rcases List.mem_cons.1 hentry with rfl | hwaiting
    · exact Nat.le_refl _
    · exact (List.pairwise_cons.1 h.sorted).1 entry hwaiting
  | case3 t level queue visited hkey hvisited ih =>
    have hrest := h.skip hvisited
    rcases List.mem_cons.1 hentry with rfl | hwaiting
    · -- The type was expanded before, and the rest of the chain leads on from another waiting type.
      obtain ⟨next, hnext, m, hm, hclimbs⟩ :=
        hrest.exists_waiting hO htarget (h.types _ List.mem_cons_self) hvisited hclimbs
      obtain ⟨found, hle, hfound⟩ := ih hrest htarget hnext hclimbs
      have hnear := h.near _ List.mem_cons_self next (List.mem_cons_of_mem _ hnext)
      exact ⟨found, by simp only at hnear ⊢; omega, hfound⟩
    · exact ih hrest htarget hwaiting hclimbs
  | case4 t level queue visited hkey hvisited ih =>
    have hrest := h.expand hO
    have htarget' : target ∉ t.key :: visited :=
      List.not_mem_cons_of_ne_of_not_mem (Ne.symm hkey) htarget
    rcases List.mem_cons.1 hentry with rfl | hwaiting
    · -- The chain goes on from a direct super-type, which waits at the next level.
      obtain ⟨u, hu, m, habove, rfl⟩ := hclimbs.exists_super hkey
      obtain ⟨found, hle, hfound⟩ := ih hrest htarget'
        (List.mem_append_right _ (List.mem_map_of_mem hu)) habove
      exact ⟨found, by simp only at hle ⊢; omega, hfound⟩
    · exact ih hrest htarget' (List.mem_append_left _ hwaiting) hclimbs

end Frontier

namespace Hierarchy

variable (hO : Hierarchy O)

include hO

/-- The levels up to an ancestor are the fewest. -/
theorem ancestorDistance_le (ht : O t) (h : Climbs u.key t n) :
    ∃ levels ≤ n, t.ancestorDistance u = some levels := by
  unfold ancestorDistance
  split
  case isTrue => exact ⟨0, Nat.zero_le _, rfl⟩
  case isFalse hkey =>
    obtain ⟨v, hv, m, hclimbs, rfl⟩ := h.exists_super hkey
    obtain ⟨found, hle, hfound⟩ := (Frontier.start hO ht).levelOf_le hO List.not_mem_nil
      (List.mem_map_of_mem hv) hclimbs
    exact ⟨found, by simp only at hle; omega, hfound⟩

/-- Levels of ancestors obey the triangle inequality. -/
theorem ancestorDistance_trans (ht : O t) (hu : O u) (h : t.ancestorDistance u = some m)
    (h' : u.ancestorDistance v = some n) :
    ∃ levels ≤ m + n, t.ancestorDistance v = some levels := by
  rw [Nat.add_comm]
  exact hO.ancestorDistance_le ht
    (hO.climbs_trans ht hu (climbs_of_ancestorDistance h) (climbs_of_ancestorDistance h'))

/-- Two types that are ancestors of each other have one key. -/
theorem ancestorDistance_antisymm (ht : O t) (hu : O u) (h : t.ancestorDistance u = some m)
    (h' : u.ancestorDistance t = some n) : t.key = u.key := by
  have hround : Climbs t.key t (n + m) :=
    hO.climbs_trans ht hu (climbs_of_ancestorDistance h) (climbs_of_ancestorDistance h')
  have hzero := hO.levels_eq_zero ht hround
  obtain rfl : m = 0 := by omega
  cases climbs_of_ancestorDistance h with
  | here hkey => exact hkey

end Hierarchy

end RuleExpr.Ty
