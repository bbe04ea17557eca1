/-!
# Tables in Insertion Order

A table is a list of keys with their entries, in the order in which the keys first came.  Writing
a key that is present replaces its entry in place; `insertNew` leaves it alone.
-/

namespace RuleExpr.Assoc

variable {κ : Type} {α : Type} [DecidableEq κ]

/-- The entry of the first pair with this key. -/
def get? (table : List (κ × α)) (key : κ) : Option α :=
  (table.find? (·.1 = key)).map (·.2)

def contains (table : List (κ × α)) (key : κ) : Bool :=
  table.any (·.1 = key)

/-- Puts the entry in the place of the one it replaces, or at the end. -/
def insert (table : List (κ × α)) (key : κ) (entry : α) : List (κ × α) :=
  match table with
  | [] => [(key, entry)]
  | (k, e) :: rest => if k = key then (k, entry) :: rest else (k, e) :: insert rest key entry

/-- Adds the entry at the end unless the key is present. -/
def insertNew (table : List (κ × α)) (key : κ) (entry : α) : List (κ × α) :=
  if contains table key then table else table ++ [(key, entry)]

/-- Table of the given pairs, written one after the other. -/
def ofList (pairs : List (κ × α)) : List (κ × α) :=
  pairs.foldl (fun table pair => insert table pair.1 pair.2) []

/-- `table` with the entries of `extra` whose keys it lacks. -/
def merge (table extra : List (κ × α)) : List (κ × α) :=
  extra.foldl (fun table pair => insertNew table pair.1 pair.2) table

def values (table : List (κ × α)) : List α := table.map (·.2)

@[simp]
theorem get?_nil (key : κ) : get? ([] : List (κ × α)) key = none := rfl

theorem get?_cons (k key : κ) (entry : α) (rest : List (κ × α)) :
    get? ((k, entry) :: rest) key = if k = key then some entry else get? rest key := by
  by_cases h : k = key <;> simp [get?, h]

theorem get?_append (front back : List (κ × α)) (key : κ) :
    get? (front ++ back) key = (get? front key <|> get? back key) := by
  induction front with
  | nil => simp
  | cons pair rest ih =>
    obtain ⟨k, entry⟩ := pair
    by_cases h : k = key <;> simp [get?_cons, h, ih]

theorem contains_eq_isSome (table : List (κ × α)) (key : κ) :
    contains table key = (get? table key).isSome := by
  induction table with
  | nil => rfl
  | cons pair rest ih =>
    obtain ⟨k, entry⟩ := pair
    by_cases h : k = key
    · simp [contains, get?_cons, h]
    · simpa [contains, get?_cons, h] using ih

theorem get?_insert (table : List (κ × α)) (key other : κ) (entry : α) :
    get? (insert table key entry) other =
      if key = other then some entry else get? table other := by
  induction table with
  | nil => simp [insert, get?_cons]
  | cons pair rest ih =>
    obtain ⟨k, old⟩ := pair
    by_cases h : k = key
    · by_cases ho : key = other <;> simp [insert, get?_cons, h, ho]
    · by_cases ho : key = other
      · subst ho
        simp [insert, get?_cons, h, ih]
      · simp [insert, get?_cons, h, ho, ih]

theorem get?_insertNew (table : List (κ × α)) (key other : κ) (entry : α) :
    get? (insertNew table key entry) other =
      (get? table other <|> if key = other then some entry else none) := by
  unfold insertNew
  rw [contains_eq_isSome]
  cases hkey : get? table key with
  | none => simp [get?_append, get?_cons]
  | some present =>
    by_cases ho : key = other
    · subst ho
      simp [hkey]
    · simp [ho]

/-- Entries of `table` hide those of `extra`. -/
theorem get?_merge (table extra : List (κ × α)) (key : κ) :
    get? (merge table extra) key = (get? table key <|> get? extra key) := by
  induction extra generalizing table with
  | nil => simp [merge]
  | cons pair rest ih =>
    obtain ⟨k, entry⟩ := pair
    change get? (merge (insertNew table k entry) rest) key = _
    rw [ih, get?_insertNew, get?_cons]
    cases get? table key <;> by_cases h : k = key <;> simp [h]

/-- Pairs written one after the other: the last one of a key counts. -/
theorem get?_foldl_insert (table pairs : List (κ × α)) (key : κ) :
    get? (pairs.foldl (fun table pair => insert table pair.1 pair.2) table) key =
      (get? pairs.reverse key <|> get? table key) := by
  induction pairs generalizing table with
  | nil => simp
  | cons pair rest ih =>
    obtain ⟨k, entry⟩ := pair
    rw [List.foldl_cons, ih, get?_insert, List.reverse_cons, get?_append, get?_cons, get?_nil]
    cases get? rest.reverse key <;> by_cases h : k = key <;> simp [h]

theorem get?_ofList (pairs : List (κ × α)) (key : κ) :
    get? (ofList pairs) key = get? pairs.reverse key := by
  rw [ofList, get?_foldl_insert, get?_nil]
  cases get? pairs.reverse key <;> rfl

theorem mem_of_get? {table : List (κ × α)} {key : κ} {entry : α}
    (h : get? table key = some entry) : (key, entry) ∈ table := by
  obtain ⟨⟨k, found⟩, hfind, rfl⟩ := Option.map_eq_some_iff.1 h
  obtain rfl : k = key := by simpa using List.find?_some hfind
  exact List.mem_of_find?_eq_some hfind

theorem mem_merge {table extra : List (κ × α)} {pair : κ × α} (h : pair ∈ merge table extra) :
    pair ∈ table ∨ pair ∈ extra := by
  induction extra generalizing table with
  | nil => exact .inl h
  | cons first rest ih =>
    change pair ∈ merge (insertNew table first.1 first.2) rest at h
    rcases ih h with h | h
    · unfold insertNew at h
      split at h
      · exact .inl h
      · rcases List.mem_append.1 h with h | h
        · exact .inl h
        · exact .inr (List.mem_cons.2 (.inl (List.mem_singleton.1 h)))
    · exact .inr (List.mem_cons_of_mem _ h)

end RuleExpr.Assoc
