/-!
# Association lists in order of insertion

A list of pairs with at most one pair for each key. Putting a value under a key that is already
there replaces the value and keeps the place; a new key goes to the end.
-/

set_option autoImplicit false

namespace DexListing.OrderedMap

variable {κ α : Type} [DecidableEq κ]

/-- The value under a key. -/
def find? (entries : List (κ × α)) (key : κ) : Option α :=
  match entries with
  | [] => none
  | entry :: rest => if entry.1 = key then some entry.2 else find? rest key

/-- Puts a value under a key. -/
def put (entries : List (κ × α)) (key : κ) (value : α) : List (κ × α) :=
  match entries with
  | [] => [(key, value)]
  | entry :: rest =>
    if entry.1 = key then (key, value) :: rest else entry :: put rest key value

/-- Takes away a key and its value. -/
def erase (entries : List (κ × α)) (key : κ) : List (κ × α) :=
  entries.filter fun entry => entry.1 ≠ key

/-- The pairs put one after the other. -/
def ofList (pairs : List (κ × α)) : List (κ × α) :=
  pairs.foldl (fun entries pair => put entries pair.1 pair.2) []

/-- A key that is put finds its value, and other keys find what they found. -/
theorem find?_put (entries : List (κ × α)) (key : κ) (value : α) (other : κ) :
    find? (put entries key value) other =
      if other = key then some value else find? entries other := by
  induction entries with
  | nil => simp only [put, find?, eq_comm]
  | cons entry rest ih =>
    by_cases hk : entry.1 = key
    · by_cases h : other = key
      · simp [find?, put, hk, h]
      · simp [find?, put, hk, h, Ne.symm h]
    · by_cases ho : entry.1 = other
      · have : other ≠ key := by rw [← ho]; exact hk
        simp [find?, put, ho, this]
      · simp [find?, put, hk, ho, ih]

/-- A key that is erased finds nothing, and other keys find what they found. -/
theorem find?_erase (entries : List (κ × α)) (key other : κ) :
    find? (erase entries key) other =
      if other = key then none else find? entries other := by
  induction entries with
  | nil => simp [find?, erase]
  | cons entry rest ih =>
    by_cases hk : entry.1 = key
    · by_cases h : other = key
      · simpa [find?, erase, hk, h] using ih
      · simpa [find?, erase, hk, h, Ne.symm h] using ih
    · by_cases ho : entry.1 = other
      · have : other ≠ key := by rw [← ho]; exact hk
        simp [find?, erase, ho, this]
      · simpa [find?, erase, hk, ho] using ih

/-- If keys occur once, an entry is found by its key. -/
theorem find?_of_mem {entries : List (κ × α)} (hnodup : (entries.map Prod.fst).Nodup) {key : κ}
    {value : α} (h : (key, value) ∈ entries) : find? entries key = some value := by
  induction entries with
  | nil => exact nomatch h
  | cons entry rest ih =>
    obtain ⟨hfresh, hrest⟩ := List.nodup_cons.1 hnodup
    rcases List.mem_cons.1 h with rfl | hmem
    · simp [find?]
    · have hne : entry.1 ≠ key := fun heq =>
        hfresh (heq ▸ List.mem_map_of_mem hmem)
      simp only [find?, if_neg hne, ih hrest hmem]

/-- The last of the values put under a key. -/
theorem find?_ofList (pairs : List (κ × α)) (key : κ) :
    find? (ofList pairs) key = (pairs.filter fun pair => pair.1 = key).getLast?.map Prod.snd := by
  suffices h : ∀ entries : List (κ × α),
      find? (pairs.foldl (fun entries pair => put entries pair.1 pair.2) entries) key =
        ((pairs.filter fun pair => pair.1 = key).getLast?.map Prod.snd).or
          (find? entries key) from (h []).trans (Option.or_none)
  induction pairs with
  | nil => exact fun _ => rfl
  | cons pair rest ih =>
    intro entries
    rw [List.foldl_cons, ih, find?_put, List.filter_cons]
    by_cases hk : pair.1 = key
    · simp only [hk, decide_true, if_true, List.getLast?_cons]
      cases (rest.filter fun pair => pair.1 = key).getLast? <;> rfl
    · simp only [hk, Ne.symm hk, decide_false, if_false, Bool.false_eq_true]

/-- A key that finds something is one of the keys. -/
theorem mem_keys_of_find? {entries : List (κ × α)} {key : κ} {value : α}
    (h : find? entries key = some value) : key ∈ entries.map Prod.fst := by
  induction entries with
  | nil => exact nomatch h
  | cons entry rest ih =>
    by_cases hk : entry.1 = key
    · exact List.mem_cons.mpr (Or.inl hk.symm)
    · simp only [find?, hk, if_false] at h
      exact List.mem_cons_of_mem _ (ih h)

/-- Putting a key adds it to the keys. -/
theorem mem_keys_put (entries : List (κ × α)) (key : κ) (value : α) (other : κ) :
    other ∈ (put entries key value).map Prod.fst ↔
      other = key ∨ other ∈ entries.map Prod.fst := by
  induction entries with
  | nil => simp [put]
  | cons entry rest ih =>
    by_cases hk : entry.1 = key
    · simp [put, hk]
    · simp only [put, hk, if_false, List.map_cons, List.mem_cons, ih]
      exact or_left_comm

/-- Putting a key that is there does not add it again. -/
theorem nodup_keys_put {entries : List (κ × α)} (h : (entries.map Prod.fst).Nodup) (key : κ)
    (value : α) : ((put entries key value).map Prod.fst).Nodup := by
  induction entries with
  | nil => simp [put]
  | cons entry rest ih =>
    have ⟨hn, hr⟩ := List.nodup_cons.1 h
    by_cases hk : entry.1 = key
    · simpa [put, hk] using h
    · simp only [put, hk, if_false, List.map_cons, List.nodup_cons]
      refine ⟨fun hm => ?_, ih hr⟩
      rcases (mem_keys_put _ _ _ _).1 hm with he | hr
      · exact hk he
      · exact hn hr

/-- In a map that is made from pairs keys occur once. -/
theorem nodup_keys_ofList (pairs : List (κ × α)) : ((ofList pairs).map Prod.fst).Nodup := by
  suffices h : ∀ entries : List (κ × α), (entries.map Prod.fst).Nodup →
      ((pairs.foldl (fun entries pair => put entries pair.1 pair.2) entries).map
        Prod.fst).Nodup from h [] List.nodup_nil
  induction pairs with
  | nil => exact fun _ h => h
  | cons pair rest ih => exact fun _ h => ih _ (nodup_keys_put h pair.1 pair.2)

end DexListing.OrderedMap
