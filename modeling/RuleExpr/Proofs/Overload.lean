import RuleExpr.Overload

/-!
# Selected Overloads

What a selection says about its method: it is one of the candidates, it has the name and the number
of parameters of the call, and every argument has its conversion.
-/

namespace RuleExpr.Overload

/-- Conversions of the arguments to the parameters, one for each. -/
inductive Converts (r : Registry) : List Ty → List Ty → List Cast → Prop
  | nil : Converts r [] [] []
  | cons {argument param : Ty} {cast : Cast} {arguments params : List Ty} {casts : List Cast}
      (hcast : r.implicitCast argument param = .ok (some cast))
      (hcasts : Converts r arguments params casts) :
      Converts r (argument :: arguments) (param :: params) (cast :: casts)

variable {r : Registry} {name : String} {arguments : List Ty}

theorem converts_of_convertArguments {params : List Ty} {casts : List Cast}
    (hlength : params.length = arguments.length)
    (h : convertArguments r arguments params = .ok (some casts)) :
    Converts r arguments params casts := by
  induction arguments generalizing params casts with
  | nil =>
    rw [List.length_nil, List.length_eq_zero_iff] at hlength
    subst hlength
    cases h
    exact .nil
  | cons argument arguments ih =>
    cases params with
    | nil => cases hlength
    | cons param params =>
      have hrest : params.length = arguments.length := Nat.succ.inj hlength
      unfold convertArguments at h
      cases hcast : r.implicitCast argument param with
      | error e =>
        rw [hcast] at h
        cases h
      | ok cast? =>
        rw [hcast] at h
        cases cast? with
        | none => cases h
        | some cast =>
          cases hcasts : convertArguments r arguments params with
          | error e =>
            simp only [hcasts] at h
            cases h
          | ok casts? =>
            simp only [hcasts] at h
            cases casts? with
            | none => cases h
            | some rest =>
              cases h
              exact .cons hcast (ih hrest hcasts)

theorem Converts.length_eq {params : List Ty} {casts : List Cast}
    (h : Converts r arguments params casts) : casts.length = arguments.length := by
  induction h with
  | nil => rfl
  | cons _ _ ih => rw [List.length_cons, List.length_cons, ih]

/-- A selection among `candidates` with its conversions. -/
structure Selects (r : Registry) (candidates : List Method) (name : String) (arguments : List Ty)
    (selection : Selection) : Prop where
  mem : selection.method ∈ candidates
  name_eq : selection.method.name = name
  converts : Converts r arguments selection.method.params selection.casts

theorem selects_of_select? {method : Method} {selection : Selection}
    (h : select? r name arguments method = .ok (some selection)) :
    Selects r [method] name arguments selection := by
  unfold select? at h
  split at h
  case isTrue happlies =>
    cases hcasts : convertArguments r arguments method.params with
    | error e =>
      rw [hcasts] at h
      cases h
    | ok casts? =>
      rw [hcasts] at h
      cases casts? with
      | none => cases h
      | some casts =>
        cases h
        exact ⟨List.mem_singleton_self _, happlies.1,
          converts_of_convertArguments happlies.2 hcasts⟩
  case isFalse => cases h

theorem mem_keepNearest {best : List Selection} {selection new : Selection}
    (h : selection ∈ keepNearest best new) : selection ∈ best ∨ selection = new := by
  unfold keepNearest at h
  split at h
  · exact .inr (List.mem_singleton.1 h)
  · split at h
    · exact .inl h
    · split at h
      · rcases List.mem_append.1 h with h | h
        · exact .inl h
        · exact .inr (List.mem_singleton.1 h)
      · exact .inr (List.mem_singleton.1 h)

/-- Whatever is kept was kept before or is selected from a candidate. -/
theorem mem_nearest {candidates : List Method} {best result : List Selection}
    (h : nearest r name arguments candidates best = .ok result) {selection : Selection}
    (hmem : selection ∈ result) :
    selection ∈ best ∨ Selects r candidates name arguments selection := by
  induction candidates generalizing best with
  | nil =>
    cases h
    exact .inl hmem
  | cons method rest ih =>
    -- A selection from the rest is one from all candidates.
    have hrest {s : Selection} (hs : Selects r rest name arguments s) :
        Selects r (method :: rest) name arguments s :=
      ⟨List.mem_cons_of_mem _ hs.mem, hs.name_eq, hs.converts⟩
    unfold nearest at h
    cases hselect : select? r name arguments method with
    | error e =>
      rw [hselect] at h
      cases h
    | ok selection? =>
      rw [hselect] at h
      cases selection? with
      | none => exact (ih h).imp_right hrest
      | some new =>
        rcases ih h with hbest | hselects
        · rcases mem_keepNearest hbest with hbest | rfl
          · exact .inl hbest
          · have hnew := selects_of_select? hselect
            have hmethod : selection.method ∈ method :: rest := by
              rw [List.mem_singleton.1 hnew.mem]
              exact List.mem_cons_self
            exact .inr ⟨hmethod, hnew.name_eq, hnew.converts⟩
        · exact .inr (hrest hselects)

theorem selects_of_resolve {candidates : List Method} {selection : Selection}
    (h : resolve r candidates name arguments = .ok (.found selection)) :
    Selects r candidates name arguments selection := by
  unfold resolve at h
  cases hnearest : nearest r name arguments candidates [] with
  | error e =>
    rw [hnearest] at h
    cases h
  | ok result =>
    rw [hnearest] at h
    match result, hnearest, h with
    | [found], hnearest, h =>
      cases h
      rcases mem_nearest hnearest (List.mem_singleton_self _) with hnil | hselects
      · cases hnil
      · exact hselects

variable {e : CastError}

/-- An error is that of the first argument whose conversion cannot be found out. -/
theorem convertArguments_eq_error {params : List Ty}
    (h : convertArguments r arguments params = .error e) :
    ∃ argument ∈ arguments, ∃ param ∈ params, r.implicitCast argument param = .error e := by
  induction arguments generalizing params with
  | nil => cases params <;> cases h
  | cons argument arguments ih =>
    cases params with
    | nil => cases h
    | cons param params =>
      unfold convertArguments at h
      rcases hcast : r.implicitCast argument param with e' | (_ | cast)
      case error =>
        rw [hcast] at h
        cases h
        exact ⟨argument, List.mem_cons_self, param, List.mem_cons_self, hcast⟩
      case ok.none =>
        rw [hcast] at h
        cases h
      case ok.some =>
        rw [hcast] at h
        cases hcasts : convertArguments r arguments params with
        | error e' =>
          simp only [hcasts] at h
          cases h
          obtain ⟨a, ha, p, hp, hfails⟩ := ih hcasts
          exact ⟨a, List.mem_cons_of_mem _ ha, p, List.mem_cons_of_mem _ hp, hfails⟩
        | ok casts? =>
          simp only [hcasts] at h
          cases h

theorem select?_eq_error {method : Method} (h : select? r name arguments method = .error e) :
    ∃ argument ∈ arguments, ∃ param ∈ method.params,
      r.implicitCast argument param = .error e := by
  unfold select? at h
  split at h
  case isTrue =>
    cases hcasts : convertArguments r arguments method.params with
    | error e' =>
      rw [hcasts] at h
      cases h
      exact convertArguments_eq_error hcasts
    | ok casts? =>
      rw [hcasts] at h
      cases h
  case isFalse => cases h

theorem nearest_eq_error {candidates : List Method} {best : List Selection}
    (h : nearest r name arguments candidates best = .error e) :
    ∃ method ∈ candidates, select? r name arguments method = .error e := by
  induction candidates generalizing best with
  | nil => cases h
  | cons method rest ih =>
    have hrest {best : List Selection} (h : nearest r name arguments rest best = .error e) :
        ∃ m ∈ method :: rest, select? r name arguments m = .error e := by
      obtain ⟨m, hm, hfails⟩ := ih h
      exact ⟨m, List.mem_cons_of_mem _ hm, hfails⟩
    unfold nearest at h
    rcases hselect : select? r name arguments method with e' | (_ | selection)
    case error =>
      rw [hselect] at h
      cases h
      exact ⟨method, List.mem_cons_self, hselect⟩
    all_goals
      rw [hselect] at h
      exact hrest h

/-- Resolution fails for the conversion of an argument to a parameter only. -/
theorem resolve_eq_error {candidates : List Method}
    (h : resolve r candidates name arguments = .error e) :
    ∃ method ∈ candidates, ∃ argument ∈ arguments, ∃ param ∈ method.params,
      r.implicitCast argument param = .error e := by
  unfold resolve at h
  cases hnearest : nearest r name arguments candidates [] with
  | error e' =>
    rw [hnearest] at h
    cases h
    obtain ⟨method, hmethod, hselect⟩ := nearest_eq_error hnearest
    exact ⟨method, hmethod, select?_eq_error hselect⟩
  | ok result =>
    rw [hnearest] at h
    match result, h with
    | [], h => cases h
    | [found], h => cases h
    | first :: second :: rest, h => cases h

end RuleExpr.Overload
