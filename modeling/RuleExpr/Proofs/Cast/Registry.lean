import RuleExpr.Operators.Library
import RuleExpr.Proofs.Cast.Structural

/-!
# Casts of a Registry

A registry never answers with other end points than it was asked for.  The casts of the standard
registry follow from the structure of the types or call a conversion method of the library, and
those that do nothing are between types of one key.
-/

namespace RuleExpr

variable {a b : Ty} {c : Cast}

theorem Distance.add_eq_ok {x y sum : Nat} : Distance.add x y = .ok sum ↔
    x + y < Distance.limit ∧ sum = x + y := by
  unfold Distance.add
  split
  case isTrue hfits => simp [hfits, eq_comm]
  case isFalse hfits => simp [hfits]

theorem Distance.add_eq_error {x y : Nat} {e : CastError} : Distance.add x y = .error e ↔
    Distance.limit ≤ x + y ∧ e = .overflow := by
  unfold Distance.add
  split
  case isTrue hfits => simp [Nat.not_le.2 hfits]
  case isFalse hfits => simp [Nat.not_lt.1 hfits, eq_comm]

namespace Registry

/-- A registry hands on the answer of its first provider if that has one. -/
theorem firstCast_cons_eq_some {provider : Provider} {rest : List Provider} :
    firstCast a b (provider :: rest) = .ok (some c) ↔
      provider.cast a b = .ok none ∧ firstCast a b rest = .ok (some c) ∨
        provider.cast a b = .ok (some c) ∧ c.source.key = a.key ∧ c.target.key = b.key := by
  rw [firstCast]
  rcases hcast : provider.cast a b with e | (_ | cast)
  case error => simp [Bind.bind, Except.bind]
  case ok.none => simp [Bind.bind, Except.bind]
  case ok.some =>
    by_cases hkeys : cast.source.key = a.key ∧ cast.target.key = b.key
    · simp only [Bind.bind, Except.bind, if_pos hkeys]
      constructor
      · intro h
        cases h
        exact .inr ⟨rfl, hkeys⟩
      · rintro (⟨hnone, -⟩ | ⟨hsome, -⟩)
        · cases hnone
        · exact hsome
    · simp only [Bind.bind, Except.bind, if_neg hkeys]
      constructor
      · intro h
        cases h
      · rintro (⟨hnone, -⟩ | ⟨hsome, hkeys'⟩)
        · cases hnone
        · cases hsome
          exact absurd hkeys' hkeys

theorem firstCast_endpoints {providers : List Provider}
    (h : firstCast a b providers = .ok (some c)) :
    c.source.key = a.key ∧ c.target.key = b.key := by
  induction providers with
  | nil => cases h
  | cons provider rest ih =>
    rcases firstCast_cons_eq_some.1 h with ⟨-, hrest⟩ | ⟨-, hkeys⟩
    · exact ih hrest
    · exact hkeys

theorem cast_endpoints {r : Registry} (h : r.cast a b = .ok (some c)) :
    c.source.key = a.key ∧ c.target.key = b.key :=
  firstCast_endpoints h

theorem firstCast_provider {providers : List Provider}
    (h : firstCast a b providers = .ok (some c)) :
    ∃ provider ∈ providers, provider.cast a b = .ok (some c) := by
  induction providers with
  | nil => cases h
  | cons provider rest ih =>
    rcases firstCast_cons_eq_some.1 h with ⟨-, hrest⟩ | ⟨hcast, -⟩
    · obtain ⟨found, hmem, hcast⟩ := ih hrest
      exact ⟨found, List.mem_cons_of_mem _ hmem, hcast⟩
    · exact ⟨provider, List.mem_cons_self, hcast⟩

/-- Between types of different keys, a cast that may be inserted is one of the registry. -/
theorem cast_of_implicitCast {r : Registry} (hkey : a.key ≠ b.key)
    (h : r.implicitCast a b = .ok (some c)) : r.cast a b = .ok (some c) ∧ c.implicit = true := by
  rw [implicitCast, if_neg hkey] at h
  cases hcast : r.cast a b with
  | error e =>
    rw [hcast] at h
    cases h
  | ok answer =>
    rw [hcast] at h
    have hfilter : answer.filter (·.implicit) = some c := Except.ok.inj h
    obtain ⟨rfl, himplicit⟩ := Option.filter_eq_some_iff.1 hfilter
    exact ⟨rfl, himplicit⟩

theorem implicitCast_eq_some {r : Registry} (h : r.implicitCast a b = .ok (some c)) :
    a.key = b.key ∧ c = .identity a ∨ r.cast a b = .ok (some c) := by
  by_cases hkey : a.key = b.key
  · rw [implicitCast, if_pos hkey] at h
    cases h
    exact .inl ⟨hkey, rfl⟩
  · exact .inr (cast_of_implicitCast hkey h).1

theorem implicitCast_eq_error_iff {r : Registry} {e : CastError} :
    r.implicitCast a b = .error e ↔ a.key ≠ b.key ∧ r.cast a b = .error e := by
  unfold implicitCast
  split
  case isTrue hkey => simp [hkey]
  case isFalse hkey => cases r.cast a b <;> simp [hkey, Bind.bind, Except.bind, pure, Except.pure]

/-- A registry that has an answer for any two types. -/
def Answers (r : Registry) : Prop := ∀ a b : Ty, ∃ cast?, r.cast a b = .ok cast?

theorem Answers.implicitCast {r : Registry} (h : r.Answers) (a b : Ty) :
    ∃ cast?, r.implicitCast a b = .ok cast? := by
  cases hcast : r.implicitCast a b with
  | ok cast? => exact ⟨cast?, rfl⟩
  | error e =>
    obtain ⟨answer, hanswer⟩ := h a b
    cases hanswer.symm.trans (implicitCast_eq_error_iff.1 hcast).2

/-- A registry that refuses no answer of its providers, so that a lookup fails only where a sum of
distances does not fit. -/
def Trusts (r : Registry) : Prop :=
  ∀ ⦃a b : Ty⦄ ⦃e : CastError⦄, r.cast a b = .error e → e = .overflow

theorem Answers.trusts {r : Registry} (h : r.Answers) : r.Trusts := by
  intro a b e hfails
  obtain ⟨cast?, hcast⟩ := h a b
  cases hcast.symm.trans hfails

theorem Trusts.implicitCast {r : Registry} {e : CastError} (h : r.Trusts)
    (hfails : r.implicitCast a b = .error e) : e = .overflow :=
  h (implicitCast_eq_error_iff.1 hfails).2

/-- A lookup fails where a provider does, or where one answers with other end points. -/
theorem firstCast_eq_error {providers : List Provider} {e : CastError}
    (h : firstCast a b providers = .error e) :
    ∃ provider ∈ providers, provider.cast a b = .error e ∨
      ∃ c, provider.cast a b = .ok (some c) ∧ ¬(c.source.key = a.key ∧ c.target.key = b.key) := by
  induction providers with
  | nil => cases h
  | cons provider rest ih =>
    rw [firstCast] at h
    rcases hcast : provider.cast a b with e' | (_ | cast)
    case error =>
      rw [hcast] at h
      cases h
      exact ⟨provider, List.mem_cons_self, .inl hcast⟩
    case ok.none =>
      rw [hcast] at h
      obtain ⟨found, hmem, hfails⟩ := ih h
      exact ⟨found, List.mem_cons_of_mem _ hmem, hfails⟩
    case ok.some =>
      rw [hcast] at h
      dsimp only [Bind.bind, Except.bind] at h
      split at h
      case isTrue => cases h
      case isFalse hkeys => exact ⟨provider, List.mem_cons_self, .inr ⟨cast, hcast, hkeys⟩⟩

/-- Providers that answer with the end points they are asked for make no other error than their
own. -/
theorem cast_eq_error {r : Registry} {e : CastError}
    (hends : ∀ provider ∈ r.providers, ∀ c, provider.cast a b = .ok (some c) →
      c.source.key = a.key ∧ c.target.key = b.key)
    (h : r.cast a b = .error e) : ∃ provider ∈ r.providers, provider.cast a b = .error e := by
  obtain ⟨provider, hmem, hfails | ⟨c, hcast, hkeys⟩⟩ := firstCast_eq_error h
  · exact ⟨provider, hmem, hfails⟩
  · exact absurd (hends provider hmem c hcast) hkeys

/-- Casts that do nothing are between types of one key. -/
def Faithful (r : Registry) : Prop :=
  ∀ ⦃a b : Ty⦄ ⦃c : Cast⦄, r.cast a b = .ok (some c) → c.isIdentity → a.key = b.key

end Registry

/-- A cast from `a` to `b` that calls a method of the library. -/
structure CastLibrary.Calls (library : CastLibrary) (a b : Ty) (c : Cast) (entry : Conversion) :
    Prop where
  mem : entry ∈ library.entries
  source_key : entry.source.key = a.key
  target_key : entry.method.returns.key = b.key
  source_eq : c.source = a
  target_eq : c.target = b
  kind_eq : c.kind = .method entry.method

theorem CastLibrary.matching_spec {library : CastLibrary} {implicit : Bool} {entry : Conversion}
    (h : library.matching a b implicit = some entry) :
    entry ∈ library.entries ∧ entry.source.key = a.key ∧ entry.method.returns.key = b.key := by
  have hkeys := List.find?_some h
  simp only [Bool.and_eq_true, decide_eq_true_iff] at hkeys
  exact ⟨List.mem_of_find?_eq_some h, hkeys.1.2, hkeys.2⟩

theorem CastLibrary.matching_implicit {library : CastLibrary} {implicit : Bool}
    {entry : Conversion} (h : library.matching a b implicit = some entry) :
    entry.implicit = implicit := by
  have hkeys := List.find?_some h
  simp only [Bool.and_eq_true, beq_iff_eq] at hkeys
  exact hkeys.1.1

/-- The cast of a library is the implicit one that is registered first, or else the first one that
has to be written, if its distance and the price fit together. -/
theorem CastLibrary.cast_cases {library : CastLibrary} (h : library.cast a b = .ok (some c)) :
    ∃ entry, library.matching a b true = some entry ∧
        c = .ofImplicit a b (.method entry.method) entry.distance ∨
      library.matching a b true = none ∧ library.matching a b false = some entry ∧
        Distance.explicit + entry.distance < Distance.limit ∧
        c = .ofExplicit a b (.method entry.method) entry.distance := by
  unfold CastLibrary.cast at h
  split at h
  case h_1 entry hentry =>
    cases h
    exact ⟨entry, .inl ⟨hentry, rfl⟩⟩
  case h_2 hnone =>
    split at h
    case h_1 entry hentry =>
      cases hsum : Distance.add Distance.explicit entry.distance with
      | error e =>
        rw [hsum] at h
        cases h
      | ok distance =>
        rw [hsum] at h
        cases h
        obtain ⟨hfits, rfl⟩ := Distance.add_eq_ok.1 hsum
        exact ⟨entry, .inr ⟨hnone, hentry, hfits, rfl⟩⟩
    case h_2 => cases h

theorem CastLibrary.cast_calls {library : CastLibrary} (h : library.cast a b = .ok (some c)) :
    ∃ entry, library.Calls a b c entry := by
  obtain ⟨entry, ⟨hentry, rfl⟩ | ⟨-, hentry, -, rfl⟩⟩ := cast_cases h
  all_goals
    obtain ⟨hmem, hsource, htarget⟩ := matching_spec hentry
    exact ⟨entry, hmem, hsource, htarget, rfl, rfl, rfl⟩

theorem CastLibrary.cast_endpoints {library : CastLibrary} (h : library.cast a b = .ok (some c)) :
    c.source.key = a.key ∧ c.target.key = b.key := by
  obtain ⟨entry, hcalls⟩ := cast_calls h
  exact ⟨by rw [hcalls.source_eq], by rw [hcalls.target_eq]⟩

/-- A library fails for the price of its first conversion that has to be written, if none is
implicit. -/
theorem CastLibrary.cast_eq_error_iff {library : CastLibrary} {e : CastError} :
    library.cast a b = .error e ↔ e = .overflow ∧ library.matching a b true = none ∧
      ∃ entry, library.matching a b false = some entry ∧
        Distance.limit ≤ Distance.explicit + entry.distance := by
  unfold CastLibrary.cast
  rcases library.matching a b true with _ | implicit
  case some => simp
  case none =>
    rcases library.matching a b false with _ | written
    case none => simp
    case some =>
      cases hsum : Distance.add Distance.explicit written.distance with
      | error e' =>
        obtain ⟨hlimit, rfl⟩ := Distance.add_eq_error.1 hsum
        simp [Bind.bind, Except.bind, hsum, hlimit, eq_comm]
      | ok distance =>
        have hfits := (Distance.add_eq_ok.1 hsum).1
        simp [Bind.bind, Except.bind, pure, Except.pure, hsum, Nat.not_le.2 hfits]

theorem IsStructural.endpoints (h : IsStructural a b c) :
    c.source.key = a.key ∧ c.target.key = b.key := by
  refine ⟨by rw [h.source_eq], ?_⟩
  rw [h.target_eq]
  split
  case isTrue hidentity => exact h.key_eq hidentity
  case isFalse => rfl

theorem Library.conversion_distance_le : ∀ entry ∈ Library.casts.entries,
    entry.distance ≤ 1000 := by
  decide +kernel

theorem Library.registry_endpoints : ∀ provider ∈ Library.registry.providers, ∀ c,
    provider.cast a b = .ok (some c) → c.source.key = a.key ∧ c.target.key = b.key := by
  intro provider hmem c hcast
  rcases List.mem_cons.1 hmem with rfl | hmem
  · exact (structuralCast_structural (Except.ok.inj hcast)).endpoints
  · rw [List.mem_singleton.1 hmem] at hcast
    exact CastLibrary.cast_endpoints hcast

theorem Library.registry_answers : Library.registry.Answers := by
  intro a b
  cases hanswer : Library.registry.cast a b with
  | ok cast? => exact ⟨cast?, rfl⟩
  | error e =>
    obtain ⟨provider, hmem, hfails⟩ := Registry.cast_eq_error Library.registry_endpoints hanswer
    rcases List.mem_cons.1 hmem with rfl | hmem
    · cases hfails
    · rw [List.mem_singleton.1 hmem] at hfails
      obtain ⟨-, -, entry, hentry, hlimit⟩ := CastLibrary.cast_eq_error_iff.1 hfails
      have hle := Library.conversion_distance_le entry (CastLibrary.matching_spec hentry).1
      have hsum : Distance.limit ≤ Distance.explicit + 1000 :=
        Nat.le_trans hlimit (Nat.add_le_add_left hle _)
      exact absurd hsum (by decide)

theorem Library.registry_cast (h : Library.registry.cast a b = .ok (some c)) :
    IsStructural a b c ∨ ∃ entry, Library.casts.Calls a b c entry := by
  obtain ⟨provider, hmem, hcast⟩ := Registry.firstCast_provider h
  rcases List.mem_cons.1 hmem with rfl | hmem
  · exact .inl (structuralCast_structural (Except.ok.inj hcast))
  · rw [List.mem_singleton.1 hmem] at hcast
    exact .inr (CastLibrary.cast_calls hcast)

theorem Library.registry_faithful : Library.registry.Faithful := by
  intro a b c h hidentity
  rcases Library.registry_cast h with hstructural | ⟨entry, hentry⟩
  · exact hstructural.key_eq hidentity
  · unfold Cast.isIdentity at hidentity
    rw [hentry.kind_eq] at hidentity
    cases hidentity

end RuleExpr
