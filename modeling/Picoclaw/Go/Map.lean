import Mathlib.Data.List.Nodup

/-!
# Go maps

Every store of the repository (the MCP manager's servers, the mailbox, the family store's
chores and lists) is a Go `map[string]*T`. A `GoMap` is such a map as the program can observe
it: its entries in the order a `range` loop visits them, with no key twice.

Go leaves the iteration order unspecified and varies it from loop to loop. The model fixes one
order, the order of insertion; every law of the project that talks about what a loop over a
map returns is stated up to that order (as membership, a count, or a `List.Perm`), so none of
them depends on the choice.

A pointer stored in a map is written through in place (`chore.Status = ...` after
`chore, ok := s.chores[id]`); the model writes that as `GoMap.modify`, which keeps the entry
where it is.

## What is proved

`mem_entries_iff`: an entry is in the map exactly when looking its key up answers its value;
the key column's `Nodup` is what makes the lookup and the entry list agree. Each operation has
its lookup lemma (`get?_set`, `get?_modify`, `get?_delete`), stated once and tagged for `simp`,
so that later modules never unfold an operation.
-/

namespace Picoclaw.Go

/-- A Go `map[K]V`, its entries in one iteration order, no key repeated. -/
structure GoMap (κ α : Type) where
  entries : List (κ × α)
  nodup : (entries.map Prod.fst).Nodup

namespace GoMap

variable {κ α : Type} [DecidableEq κ]

/-- `make(map[K]V)`. -/
def empty : GoMap κ α := ⟨[], List.nodup_nil⟩

/-- The values, in iteration order: `for _, v := range m`. -/
def values (m : GoMap κ α) : List α := m.entries.map Prod.snd

/-- The first value stored under `k` in an entry list. -/
def find? (k : κ) : List (κ × α) → Option α
  | [] => none
  | e :: es => if e.1 = k then some e.2 else find? k es

/-- `v, ok := m[k]`. -/
def get? (m : GoMap κ α) (k : κ) : Option α := find? k m.entries

/-- `m[k] = v` on the entry list: the value is replaced in place, or a new key appended. -/
def upsert (k : κ) (v : α) : List (κ × α) → List (κ × α)
  | [] => [(k, v)]
  | e :: es => if e.1 = k then (k, v) :: es else e :: upsert k v es

/-- Writing through the pointer stored under `k`. -/
def update (k : κ) (f : α → α) (e : κ × α) : κ × α := if e.1 = k then (e.1, f e.2) else e

theorem keys_upsert (k : κ) (v : α) :
    ∀ l : List (κ × α), (upsert k v l).map Prod.fst =
      if k ∈ l.map Prod.fst then l.map Prod.fst else l.map Prod.fst ++ [k]
  | [] => rfl
  | e :: es => by
    by_cases h : e.1 = k
    · simp [upsert, h]
    · have ih := keys_upsert k v es
      by_cases hk : k ∈ es.map Prod.fst <;> simp_all [upsert, Ne.symm h]

/-- `m[k] = v`. -/
def set (m : GoMap κ α) (k : κ) (v : α) : GoMap κ α :=
  ⟨upsert k v m.entries, by
    rw [keys_upsert]
    split
    · exact m.nodup
    · exact m.nodup.append (List.nodup_singleton k) (by simp_all)⟩

/-- `m[k].f = ...` through the stored pointer; a missing key changes nothing. -/
def modify (m : GoMap κ α) (k : κ) (f : α → α) : GoMap κ α :=
  ⟨m.entries.map (update k f), by
    have : (m.entries.map (update k f)).map Prod.fst = m.entries.map Prod.fst := by
      simp only [List.map_map]
      exact List.map_congr_left fun e _ => by by_cases h : e.1 = k <;> simp [update, h]
    exact this ▸ m.nodup⟩

/-- `delete(m, k)`. -/
def delete (m : GoMap κ α) (k : κ) : GoMap κ α :=
  ⟨m.entries.filter (fun e => e.1 ≠ k), by
    have := m.nodup.filter (fun x => decide (x ≠ k))
    rwa [List.filter_map] at this⟩

/-- The map a loop `for k, v := range m { res[k] = f(v) }` builds into a fresh map. -/
def mapValues {β : Type} (f : α → β) (m : GoMap κ α) : GoMap κ β :=
  ⟨m.entries.map fun e => (e.1, f e.2), by simpa only [List.map_map] using m.nodup⟩

/-- A map literal `map[K]V{k₁: v₁, …}`, its entries in the order written. -/
def ofList (kvs : List (κ × α)) : GoMap κ α := kvs.foldl (fun m kv => m.set kv.1 kv.2) empty

/-! ## Lookup -/

theorem find?_eq_some_of_mem {k : κ} {v : α} :
    ∀ {l : List (κ × α)}, (l.map Prod.fst).Nodup → (k, v) ∈ l → find? k l = some v
  | e :: es, hn, hm => by
    rw [List.map_cons, List.nodup_cons] at hn
    rcases List.mem_cons.mp hm with rfl | hm
    · simp [find?]
    · have hk : e.1 ≠ k := fun h => hn.1 (h ▸ List.mem_map_of_mem Prod.fst hm)
      simp only [find?, if_neg hk]
      exact find?_eq_some_of_mem hn.2 hm

theorem mem_of_find?_eq_some {k : κ} {v : α} :
    ∀ {l : List (κ × α)}, find? k l = some v → (k, v) ∈ l
  | e :: es, h => by
    simp only [find?] at h
    split at h
    · rename_i he
      cases h; exact List.mem_cons.mpr (.inl (Prod.ext he.symm rfl))
    · exact List.mem_cons_of_mem _ (mem_of_find?_eq_some h)

/-- **The entry list and the lookup agree**, because no key is repeated. -/
theorem mem_entries_iff (m : GoMap κ α) {k : κ} {v : α} :
    (k, v) ∈ m.entries ↔ m.get? k = some v :=
  ⟨find?_eq_some_of_mem m.nodup, mem_of_find?_eq_some⟩

theorem mem_values_iff (m : GoMap κ α) {v : α} : v ∈ m.values ↔ ∃ k, m.get? k = some v := by
  simp only [values, List.mem_map, ← mem_entries_iff]
  exact ⟨fun ⟨e, he, hv⟩ => ⟨e.1, hv ▸ he⟩, fun ⟨k, h⟩ => ⟨(k, v), h, rfl⟩⟩

theorem find?_eq_none {k : κ} : ∀ {l : List (κ × α)}, find? k l = none ↔ k ∉ l.map Prod.fst
  | [] => by simp [find?]
  | e :: es => by
    by_cases h : e.1 = k
    · simp [find?, h]
    · simp [find?, h, Ne.symm h, find?_eq_none]

/-- The keys, in iteration order: `for k := range m`. -/
def keys (m : GoMap κ α) : List κ := m.entries.map Prod.fst

theorem mem_keys (m : GoMap κ α) {k : κ} : k ∈ m.keys ↔ (m.get? k).isSome := by
  rw [← not_iff_not, Option.not_isSome_iff_eq_none]
  exact find?_eq_none.symm

@[simp] theorem get?_empty (k : κ) : (empty : GoMap κ α).get? k = none := rfl

theorem find?_upsert (k k' : κ) (v : α) :
    ∀ l : List (κ × α), find? k' (upsert k v l) = if k = k' then some v else find? k' l
  | [] => by simp [upsert, find?]
  | e :: es => by
    have ih := find?_upsert k k' v es
    by_cases h : e.1 = k
    · subst h; by_cases h' : e.1 = k' <;> simp [upsert, find?, h']
    · by_cases h' : e.1 = k'
      · have : k ≠ k' := fun hk => h (h'.trans hk.symm)
        simp [upsert, find?, h, h', this, Ne.symm this]
      · simp [upsert, find?, h, h', ih]

@[simp] theorem get?_set (m : GoMap κ α) (k k' : κ) (v : α) :
    (m.set k v).get? k' = if k = k' then some v else m.get? k' :=
  find?_upsert k k' v m.entries

theorem find?_map_update (k k' : κ) (f : α → α) :
    ∀ l : List (κ × α), find? k' (l.map (update k f)) =
      if k = k' then (find? k' l).map f else find? k' l
  | [] => by simp [find?]
  | e :: es => by
    have ih := find?_map_update k k' f es
    by_cases hk : k = k'
    · subst hk; by_cases h : e.1 = k <;> simp_all [find?, update]
    · by_cases h : e.1 = k <;> by_cases h' : e.1 = k' <;> simp_all [find?, update]

@[simp] theorem get?_modify (m : GoMap κ α) (k k' : κ) (f : α → α) :
    (m.modify k f).get? k' = if k = k' then (m.get? k').map f else m.get? k' :=
  find?_map_update k k' f m.entries

theorem find?_filter (k k' : κ) :
    ∀ l : List (κ × α), find? k' (l.filter (fun e => e.1 ≠ k)) =
      if k = k' then none else find? k' l
  | [] => by simp [find?]
  | e :: es => by
    have ih := find?_filter k k' es
    by_cases hk : k = k'
    · subst hk; by_cases h : e.1 = k <;> simp_all [find?, List.filter_cons]
    · by_cases h : e.1 = k <;> by_cases h' : e.1 = k' <;> simp_all [find?, List.filter_cons]

@[simp] theorem get?_delete (m : GoMap κ α) (k k' : κ) :
    (m.delete k).get? k' = if k = k' then none else m.get? k' :=
  find?_filter k k' m.entries

theorem find?_map_values {β : Type} (f : α → β) (k : κ) :
    ∀ l : List (κ × α), find? k (l.map fun e => (e.1, f e.2)) = (find? k l).map f
  | [] => rfl
  | e :: es => by
    by_cases h : e.1 = k
    · simp [find?, h]
    · simp [find?, h, find?_map_values f k es]

@[simp] theorem get?_mapValues {β : Type} (f : α → β) (m : GoMap κ α) (k : κ) :
    (m.mapValues f).get? k = (m.get? k).map f :=
  find?_map_values f k m.entries

omit [DecidableEq κ] in
/-- Mapping the values by `f` and then by `g` gives the map back when `g` undoes `f` on its
values. -/
theorem mapValues_mapValues_of_leftInverse {β : Type} {f : α → β} {g : β → α} (m : GoMap κ α)
    (h : ∀ v ∈ m.values, g (f v) = v) : (m.mapValues f).mapValues g = m := by
  obtain ⟨entries, nodup⟩ := m
  simp only [mapValues, GoMap.mk.injEq, List.map_map]
  conv_rhs => rw [← List.map_id entries]
  exact List.map_congr_left fun e he => by
    simp [h e.2 (List.mem_map_of_mem _ he)]

/-! ## Iteration -/

theorem upsert_of_not_mem (k : κ) (v : α) :
    ∀ {l : List (κ × α)}, k ∉ l.map Prod.fst → upsert k v l = l ++ [(k, v)]
  | [], _ => rfl
  | e :: es, hk => by
    have he : e.1 ≠ k := fun h => hk (h ▸ List.mem_cons_self _ _)
    simp only [upsert, if_neg he, upsert_of_not_mem k v (fun h => hk (List.mem_cons_of_mem _ h)),
      List.cons_append]

/-- Storing under a key the map does not hold appends one entry at the end. -/
theorem entries_set_of_get?_eq_none {m : GoMap κ α} {k : κ} (h : m.get? k = none) (v : α) :
    (m.set k v).entries = m.entries ++ [(k, v)] :=
  upsert_of_not_mem k v (find?_eq_none.mp h)

@[simp] theorem entries_modify (m : GoMap κ α) (k : κ) (f : α → α) :
    (m.modify k f).entries = m.entries.map (update k f) := rfl

@[simp] theorem entries_delete (m : GoMap κ α) (k : κ) :
    (m.delete k).entries = m.entries.filter (fun e => e.1 ≠ k) := rfl

end GoMap

end Picoclaw.Go
