import DexListing.Proofs.Dalvik.Access

/-!
# The cache cannot be seen

A reader that keeps the strings it has worked out answers from its cache without looking at the
container again: neither at the range of the index nor at the bytes. This is right because whatever
is in the cache is what the container says (`StringCache.Agrees`), and every step of the reader
keeps it so, whether or not it fails (`CachedRead.Gives`). So whatever a reader was asked before, it
answers a question as one that was never asked anything, and as one without a cache
(`Container.askAll_eq`).
-/

set_option autoImplicit false

namespace DexListing

/-- What is in a cache is what the container says. -/
def StringCache.Agrees (c : Container) (cache : StringCache) : Prop :=
  ∀ index value, cache[index]? = some value → c.toLayout.string index = .ok value

/-- An empty cache agrees with every container. -/
theorem StringCache.agrees_empty (c : Container) : StringCache.Agrees c ∅ := by
  intro index value h
  simp at h

/-- A string of the container may be put into the cache. -/
theorem StringCache.Agrees.insert {c : Container} {cache : StringCache} {index : Nat}
    {value : String} (hcache : cache.Agrees c) (hvalue : c.toLayout.string index = .ok value) :
    StringCache.Agrees c (cache.insert index value) := by
  intro other found h
  rw [Std.TreeMap.getElem?_insert] at h
  split at h
  · next heq =>
    obtain rfl := Std.LawfulEqCmp.eq_of_compare heq
    obtain rfl := Option.some.inj h
    exact hvalue
  · exact hcache other found h

namespace CachedRead

variable {c : Container} {α β : Type}

/-- With any cache that agrees with the container a computation has one result, and it leaves such a
cache. -/
def Gives (c : Container) (x : CachedRead α) (r : Except ContainerError α) : Prop :=
  ∀ cache : StringCache, cache.Agrees c → ∃ cache' : StringCache, x cache = (r, cache') ∧
    cache'.Agrees c

/-- Reading in two steps gives what both steps give. -/
theorem Gives.bind {x : CachedRead α} {r : Except ContainerError α} {f : α → CachedRead β}
    {g : α → Except ContainerError β} (hx : Gives c x r)
    (hthen : ∀ v, r = .ok v → Gives c (f v) (g v)) : Gives c (x >>= f) (r >>= g) := by
  intro cache hcache
  obtain ⟨middle, hrun, hmiddle⟩ := hx cache hcache
  have hstep : (x >>= f) cache = match x cache with
      | (.ok v, after) => f v after
      | (.error e, after) => (.error e, after) := by
    change (ExceptT.bindCont f (x cache).1) (x cache).2 = _
    rcases x cache with ⟨_ | _, _⟩ <;> rfl
  rw [hstep, hrun]
  cases r with
  | error e => exact ⟨middle, rfl, hmiddle⟩
  | ok v => exact hthen v rfl middle hmiddle

/-- A value gives itself. -/
theorem Gives.pure (v : α) : Gives c (Pure.pure v) (.ok v) :=
  fun cache hcache => ⟨cache, rfl, hcache⟩

/-- A string from the cache is the one that the container has; any other one is worked out and put
into the cache. -/
theorem gives_string (c : Container) (index : Nat) :
    Gives c (CachedRead.string c index) (c.toLayout.string index) := by
  intro cache hcache
  unfold CachedRead.string
  cases hfound : cache[index]? with
  | some value => exact ⟨cache, by rw [hcache index value hfound], hcache⟩
  | none =>
    cases hstring : c.toLayout.string index with
    | error e => exact ⟨cache, rfl, hcache⟩
    | ok value => exact ⟨cache.insert index value, rfl, hcache.insert hstring⟩

/-- Every step of a reader with a cache gives what the container says. -/
theorem relates (c : Container) : (Access.cached c).Relates c (Gives c) where
  pure v := .pure v
  bind := Gives.bind
  map f _ r hx := by
    have hmap := hx.bind (g := fun v => .ok (f v)) fun v _ => Gives.pure (f v)
    have hresult : r >>= (fun v => Except.ok (f v)) = f <$> r := by cases r <;> rfl
    rwa [hresult] at hmap
  look x cache hcache := ⟨cache, rfl, hcache⟩
  entry _ cache hcache := ⟨cache, rfl, hcache⟩
  string := gives_string c
  mapError f _ _ hx cache hcache := by
    obtain ⟨cache', hrun, hcache'⟩ := hx cache hcache
    refine ⟨cache', ?_, hcache'⟩
    change ((_ : Except ContainerError _ × StringCache).1.mapError f, _) = _
    rw [hrun]

end CachedRead

/-- A reader without a cache gives what the container says. -/
theorem Access.relates_plain (c : Container) :
    (Access.plain c).Relates c fun x r => x = r where
  pure _ := rfl
  bind {_ _ x r _ _} hx hthen := by
    obtain rfl : x = r := hx
    cases x with
    | error e => rfl
    | ok v => exact hthen v rfl
  map _ _ _ hx := by rw [hx]
  look _ := rfl
  entry _ := rfl
  string _ := rfl
  mapError _ _ _ hx := by
    subst hx
    rfl

namespace Container

/-- From any cache that agrees with the container, each question is answered as the container
answers it, and the cache still agrees at the end. -/
theorem askAll_of_agrees (c : Container) {cache : StringCache} (hcache : cache.Agrees c)
    (questions : List Question) :
    (c.askAll cache questions).1 = questions.map c.answer ∧
      (c.askAll cache questions).2.Agrees c := by
  induction questions generalizing cache with
  | nil => exact ⟨rfl, hcache⟩
  | cons question rest ih =>
    obtain ⟨after, hrun, hafter⟩ := (CachedRead.relates c).answer question cache hcache
    obtain ⟨hanswers, hlast⟩ := ih hafter
    unfold askAll
    rw [hrun]
    exact ⟨congrArg (c.answer question :: ·) hanswers, hlast⟩

/-- The cache of a reader cannot be seen. Whatever questions a reader is asked, failing ones
included, it answers each of them as a reader that has not been asked anything before, as a reader
without any cache, and as the container does with its memos. -/
theorem askAll_eq (c : Container) (questions : List Question) :
    (c.askAll ∅ questions).1 =
        questions.map (fun question => ((Access.cached c).answer c question ∅).1) ∧
      (c.askAll ∅ questions).1 = questions.map (fun question => (Access.plain c).answer c question) ∧
      (c.askAll ∅ questions).1 = questions.map c.answer := by
  obtain ⟨hanswers, -⟩ := c.askAll_of_agrees (StringCache.agrees_empty c) questions
  refine ⟨?_, ?_, hanswers⟩
  · rw [hanswers]
    apply List.map_congr_left
    intro question _
    obtain ⟨cache, hrun, -⟩ :=
      (CachedRead.relates c).answer question ∅ (StringCache.agrees_empty c)
    rw [hrun]
  · rw [hanswers]
    apply List.map_congr_left
    intro question _
    exact ((Access.relates_plain c).answer question).symm

end Container

end DexListing
