import Mathlib.Data.List.Induction
import Mathlib.Data.List.Nodup
import RuleExpr.Assoc

/-!
# The First Element of Each Key

Tables keep the first entry of a key and go by the order in which keys first came.  `firstsBy` says
this of lists: those elements stay whose key no earlier one has.
-/

namespace RuleExpr

section EraseDups

variable {α : Type} (r : α → α → Bool)

theorem eraseDupsBy_loop_concat (xs kept : List α) (x : α) :
    List.eraseDupsBy.loop r (xs ++ [x]) kept =
      if (List.eraseDupsBy.loop r xs kept).any (r x) then List.eraseDupsBy.loop r xs kept
      else List.eraseDupsBy.loop r xs kept ++ [x] := by
  induction xs generalizing kept with
  | nil => cases h : kept.any (r x) <;> simp [List.eraseDupsBy.loop, h]
  | cons y ys ih =>
    cases h : kept.any (r y) <;> simp only [List.cons_append, List.eraseDupsBy.loop, h, ih]

/-- A further element is kept unless it equals one that was kept. -/
theorem eraseDupsBy_concat (xs : List α) (x : α) :
    (xs ++ [x]).eraseDupsBy r =
      if (xs.eraseDupsBy r).any (r x) then xs.eraseDupsBy r else xs.eraseDupsBy r ++ [x] :=
  eraseDupsBy_loop_concat r xs [] x

end EraseDups

variable {α κ : Type} [DecidableEq κ] (key : α → κ)

/-- The elements that are the first of their keys. -/
def firstsBy (xs : List α) : List α := xs.eraseDupsBy fun x y => key x = key y

theorem firstsBy_concat (xs : List α) (x : α) :
    firstsBy key (xs ++ [x]) =
      if (firstsBy key xs).any (key · = key x) then firstsBy key xs
      else firstsBy key xs ++ [x] := by
  have hsymm : (fun y => decide (key x = key y)) = fun y => decide (key y = key x) := by
    funext y
    exact decide_eq_decide.2 eq_comm
  rw [firstsBy, eraseDupsBy_concat, hsymm]
  rfl

theorem firstsBy_sublist (xs : List α) : (firstsBy key xs).Sublist xs := by
  induction xs using List.reverseRecOn with
  | nil => exact .slnil
  | append_singleton xs x ih =>
    rw [firstsBy_concat]
    split
    · exact ih.trans (List.sublist_append_left _ _)
    · exact ih.append (.refl _)

/-- Of each key the first element is kept. -/
theorem find?_firstsBy (xs : List α) (k : κ) :
    (firstsBy key xs).find? (key · = k) = xs.find? (key · = k) := by
  induction xs using List.reverseRecOn with
  | nil => rfl
  | append_singleton xs x ih =>
    rw [firstsBy_concat, List.find?_append, ← ih]
    split
    case isTrue htaken =>
      by_cases hkey : key x = k
      · -- The key has been met, so the search ends before the new element.
        have hfound : ((firstsBy key xs).find? (key · = k)).isSome := by
          rw [← hkey]
          exact List.find?_isSome.2 (List.any_eq_true.1 htaken)
        rw [Option.or_of_isSome hfound]
      · simp [hkey]
    case isFalse => rw [List.find?_append]

theorem nodup_map_firstsBy (xs : List α) : ((firstsBy key xs).map key).Nodup := by
  induction xs using List.reverseRecOn with
  | nil => exact List.nodup_nil
  | append_singleton xs x ih =>
    rw [firstsBy_concat]
    split
    case isTrue => exact ih
    case isFalse hnew =>
      rw [List.map_append, List.map_singleton, ← List.concat_eq_append]
      apply ih.concat
      intro htaken
      obtain ⟨first, hfirst, hkey⟩ := List.mem_map.1 htaken
      exact hnew (List.any_eq_true.2 ⟨first, hfirst, decide_eq_true hkey⟩)

/-- Every element has its key in common with one that is kept. -/
theorem exists_mem_firstsBy {xs : List α} {x : α} (h : x ∈ xs) :
    ∃ y ∈ firstsBy key xs, key y = key x := by
  have hfound : (xs.find? (key · = key x)).isSome :=
    List.find?_isSome.2 ⟨x, h, decide_eq_true rfl⟩
  rw [← find?_firstsBy] at hfound
  obtain ⟨y, hy, hkey⟩ := List.find?_isSome.1 hfound
  exact ⟨y, hy, of_decide_eq_true hkey⟩

theorem mem_map_firstsBy {xs : List α} {k : κ} :
    k ∈ (firstsBy key xs).map key ↔ k ∈ xs.map key := by
  constructor
  · exact fun h => ((firstsBy_sublist key xs).map key).subset h
  · intro h
    obtain ⟨x, hx, rfl⟩ := List.mem_map.1 h
    obtain ⟨y, hy, hkey⟩ := exists_mem_firstsBy key hx
    exact List.mem_map.2 ⟨y, hy, hkey⟩

theorem firstsBy_eq_self {xs : List α} (h : (xs.map key).Nodup) : firstsBy key xs = xs := by
  induction xs using List.reverseRecOn with
  | nil => rfl
  | append_singleton xs x ih =>
    rw [List.map_append, List.map_singleton] at h
    obtain ⟨hxs, -, hapart⟩ := List.nodup_append.1 h
    rw [firstsBy_concat, ih hxs, if_neg]
    intro htaken
    obtain ⟨first, hfirst, hkey⟩ := List.any_eq_true.1 htaken
    exact hapart _ (List.mem_map_of_mem hfirst) _ List.mem_cons_self (of_decide_eq_true hkey)

/-- What follows does not change what is kept of the elements before it. -/
theorem firstsBy_prefix (xs ys : List α) : firstsBy key xs <+: firstsBy key (xs ++ ys) := by
  induction ys using List.reverseRecOn with
  | nil => simp
  | append_singleton ys y ih =>
    rw [← List.append_assoc, firstsBy_concat]
    split
    · exact ih
    · exact ih.trans (List.prefix_append _ _)

/-- Only the first elements of their keys matter in what follows. -/
theorem firstsBy_append_firstsBy (xs ys : List α) :
    firstsBy key (xs ++ firstsBy key ys) = firstsBy key (xs ++ ys) := by
  induction ys using List.reverseRecOn with
  | nil => rfl
  | append_singleton ys y ih =>
    rw [firstsBy_concat]
    split
    case isTrue htaken =>
      -- The key has been met in what follows, so it is met there with the elements before it too.
      have hkept : key y ∈ (firstsBy key (xs ++ ys)).map key := by
        obtain ⟨first, hfirst, hkey⟩ := List.any_eq_true.1 htaken
        rw [mem_map_firstsBy, List.map_append]
        refine List.mem_append_right _ (List.mem_map.2 ⟨first, ?_, of_decide_eq_true hkey⟩)
        exact (firstsBy_sublist key ys).subset hfirst
      obtain ⟨first, hfirst, hkey⟩ := List.mem_map.1 hkept
      rw [ih, ← List.append_assoc, firstsBy_concat key (xs ++ ys),
        if_pos (List.any_eq_true.2 ⟨first, hfirst, decide_eq_true hkey⟩)]
    case isFalse =>
      rw [← List.append_assoc, ← List.append_assoc, firstsBy_concat, firstsBy_concat, ih]

/-- A table that is filled with the elements under their keys has the first ones. -/
theorem Assoc.values_merge_eq (xs : List α) :
    values (merge [] (xs.map fun x => (key x, x))) = firstsBy key xs := by
  suffices h : merge [] (xs.map fun x => (key x, x)) =
      (firstsBy key xs).map fun x => (key x, x) by
    rw [h, values, List.map_map]
    exact List.map_id _
  induction xs using List.reverseRecOn with
  | nil => rfl
  | append_singleton xs x ih =>
    have hcontains : contains ((firstsBy key xs).map fun x => (key x, x)) (key x) =
        (firstsBy key xs).any (key · = key x) := List.any_map
    calc merge [] ((xs ++ [x]).map fun x => (key x, x))
        = insertNew (merge [] (xs.map fun x => (key x, x))) (key x) x := by
          rw [List.map_append, merge, List.foldl_append]
          rfl
      _ = (firstsBy key (xs ++ [x])).map fun x => (key x, x) := by
          rw [ih, insertNew, hcontains, firstsBy_concat]
          split
          · rfl
          · rw [List.map_append, List.map_singleton]

end RuleExpr
