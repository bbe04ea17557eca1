import RuleExpr.Proofs.Cast.Registry

/-!
# Costs of Conversions

A conversion costs something unless it is between types of one key.  This is what lets an exact
match win over every other overload.  It is a property of the casts that a registry has, so it is
stated of registries, for the conversions that binding may insert by itself, and proved of the
standard one; a registry with conversions of its own may violate it.
-/

namespace RuleExpr

variable {a b : Ty} {c : Cast}

/-- The level of a type that is found is one of those that wait or a later one. -/
theorem Ty.le_of_levelOf {target : TypeKey} {queue : Queue} {visited : List TypeKey}
    {least level : Nat} (h : levelOf target queue visited = some level)
    (hqueue : ∀ entry ∈ queue, least ≤ entry.2) : least ≤ level := by
  fun_induction levelOf target queue visited with
  | case1 => cases h
  | case2 visited t first queue hkey =>
    cases h
    exact hqueue _ List.mem_cons_self
  | case3 visited t first queue hkey hvisited ih =>
    exact ih h fun entry hentry => hqueue entry (List.mem_cons_of_mem _ hentry)
  | case4 visited t first queue hkey hvisited ih =>
    apply ih h
    intro entry hentry
    rcases List.mem_append.1 hentry with hwaiting | hnext
    · exact hqueue entry (List.mem_cons_of_mem _ hwaiting)
    · obtain ⟨u, -, rfl⟩ := List.mem_map.1 hnext
      exact Nat.le_succ_of_le (hqueue _ List.mem_cons_self)

/-- An ancestor of another key is at least one level up. -/
theorem Ty.ancestorDistance_pos {levels : Nat} (hkey : a.key ≠ b.key)
    (h : a.ancestorDistance b = some levels) : 0 < levels := by
  rw [ancestorDistance, if_neg hkey] at h
  apply le_of_levelOf h
  intro entry hentry
  obtain ⟨u, -, rfl⟩ := List.mem_map.1 hentry
  exact Nat.le_refl 1

theorem NumericKind.stepsTo_pos {narrow wide : NumericKind} (h : narrow.widensTo wide = true) :
    0 < narrow.stepsTo wide := by
  revert h
  cases narrow <;> cases wide <;> decide

theorem Cast.ofExplicit_distance_pos (a b : Ty) (kind : CastKind) (extra : Nat) :
    0 < (ofExplicit a b kind extra).distance :=
  Nat.add_pos_left (by decide) _

theorem scalarCast_distance_pos (hkey : a.key ≠ b.key) (h : scalarCast a b = some c) :
    0 < c.distance := by
  cases scalarCast_cases h with
  | null =>
    dsimp only [Cast.ofImplicit]
    split <;> decide
  | boxObject | object | box | unbox =>
    dsimp only [Cast.ofImplicit]
    decide
  | widen _ _ hwidens =>
    have hsteps := NumericKind.stepsTo_pos hwidens
    simp only [Cast.ofImplicit, wideningDistance, Distance.wideningStep]
    omega
  | boxAncestor => exact Nat.add_pos_left (by decide) _
  | up _ hlevels => exact Nat.mul_pos (Ty.ancestorDistance_pos hkey hlevels) (by decide)
  | _ => exact Cast.ofExplicit_distance_pos _ _ _ _

/-- Types of different keys are at a distance. -/
theorem structuralCast_distance_pos (hkey : a.key ≠ b.key) (h : structuralCast a b = some c) :
    0 < c.distance := by
  fun_induction structuralCast a b generalizing c with
  | case1 a b hsame => exact absurd hsame hkey
  | case2 => cases h
  | case3 a b _ hdifferent ih =>
    obtain ⟨inner, hinner, hlift⟩ := Option.bind_eq_some_iff.1 h
    -- Arrays have the keys of their components, one dimension up.
    have hcomponents : a.key ≠ b.key := by
      intro hsame
      obtain ⟨helement, hdimensions⟩ := TypeKey.mk.inj hsame
      apply hdifferent
      rw [Ty.key, Ty.key, Ty.elementName, Ty.elementName, Ty.dimensions, Ty.dimensions, helement,
        hdimensions]
    rcases liftToArrays_cases hlift with ⟨-, rfl⟩ | ⟨-, rfl⟩
    · have hpos := ih hcomponents hinner
      exact hpos
    · exact Cast.ofExplicit_distance_pos _ _ _ _
  | case4 => exact scalarCast_distance_pos hkey h

theorem CastLibrary.cast_distance_pos {library : CastLibrary}
    (hentries : ∀ entry ∈ library.entries, 0 < entry.distance)
    (h : library.cast a b = .ok (some c)) : 0 < c.distance := by
  obtain ⟨entry, ⟨hentry, rfl⟩ | ⟨-, -, -, rfl⟩⟩ := cast_cases h
  · exact hentries entry (matching_spec hentry).1
  · exact Cast.ofExplicit_distance_pos _ _ _ _

theorem Library.conversion_distance_pos : ∀ entry ∈ Library.casts.entries, 0 < entry.distance := by
  decide +kernel

/-- A registry that has an answer for any two types, and that converts only types of one key at no
cost. -/
structure Registry.Separates (r : Registry) : Prop where
  answers : ∀ a b : Ty, ∃ cast?, r.implicitCast a b = .ok cast?
  costs : ∀ ⦃a b : Ty⦄ ⦃c : Cast⦄, r.implicitCast a b = .ok (some c) → a.key ≠ b.key →
    0 < c.distance

theorem Library.registry_distance_pos (hkey : a.key ≠ b.key)
    (h : Library.registry.cast a b = .ok (some c)) : 0 < c.distance := by
  obtain ⟨provider, hmem, hcast⟩ := Registry.firstCast_provider h
  rcases List.mem_cons.1 hmem with rfl | hmem
  · exact structuralCast_distance_pos hkey (Except.ok.inj hcast)
  · rw [List.mem_singleton.1 hmem] at hcast
    exact CastLibrary.cast_distance_pos conversion_distance_pos hcast

theorem Library.registry_separates : Library.registry.Separates where
  answers := registry_answers.implicitCast
  costs a b c h hkey := by
    rcases Registry.implicitCast_eq_some h with ⟨hsame, -⟩ | hcast
    · exact absurd hsame hkey
    · exact registry_distance_pos hkey hcast

end RuleExpr
