/-!
# Ordered entries

Values by name, in the order in which the names were first stored. Storing under a name that is
already present replaces the value and keeps the place.

* `get?_insert`: what a lookup sees after a store.
* `mem_of_get?`, `get?_of_mem`: a lookup finds the entries there are.
* `names_insert`: the names after a store.
* `nodup_insert`: no name comes to stand twice.
-/

namespace Stepwise

/-- Values by name, in order. -/
abbrev Entries (α : Type) := List (String × α)

namespace Entries

variable {α : Type}

/-- The names in order. -/
def names (entries : Entries α) : List String := entries.map Prod.fst

/-- The value stored under a name. -/
def get? : Entries α → String → Option α
  | [], _ => none
  | (n, v) :: rest, name => if n = name then some v else get? rest name

/-- A value is stored under the name. -/
def contains (entries : Entries α) (name : String) : Bool := (entries.get? name).isSome

/-- Stores a value under a name: in its old place, or at the end. -/
def insert : Entries α → String → α → Entries α
  | [], name, value => [(name, value)]
  | (n, v) :: rest, name, value =>
    if n = name then (n, value) :: rest else (n, v) :: insert rest name value

/-- Stores all of `more`, one after the other. -/
def extend (entries more : Entries α) : Entries α :=
  more.foldl (fun es entry => es.insert entry.1 entry.2) entries

/-- Entries from pairs in which a name may come again: the last value counts, at the first
place. -/
def ofPairs (pairs : List (String × α)) : Entries α := extend [] pairs

theorem get?_insert (entries : Entries α) (name other : String) (value : α) :
    (entries.insert name value).get? other =
      if name = other then some value else entries.get? other := by
  induction entries with
  | nil => rfl
  | cons e rest ih => grind [insert, get?]

theorem get?_cons (name other : String) (value : α) (rest : Entries α) :
    get? ((name, value) :: rest) other = if name = other then some value else rest.get? other := rfl

theorem mem_of_get? {entries : Entries α} {name : String} {value : α}
    (h : entries.get? name = some value) : (name, value) ∈ entries := by
  induction entries with
  | nil => cases h
  | cons e rest ih =>
    obtain ⟨other, u⟩ := e
    rw [get?_cons] at h
    split at h
    · next hname =>
      rw [hname, Option.some.inj h]
      exact List.mem_cons_self
    · exact List.mem_cons_of_mem _ (ih h)

theorem get?_of_mem {entries : Entries α} (hn : entries.names.Nodup) {name : String} {value : α}
    (h : (name, value) ∈ entries) : entries.get? name = some value := by
  induction entries with
  | nil => cases h
  | cons e rest ih =>
    obtain ⟨other, u⟩ := e
    obtain ⟨hother, hrest⟩ := List.nodup_cons.mp hn
    rw [get?_cons]
    rcases List.mem_cons.mp h with h | h
    · cases h
      rw [if_pos rfl]
    · rw [if_neg]
      · exact ih hrest h
      · rintro rfl
        exact hother (List.mem_map.mpr ⟨_, h, rfl⟩)

theorem names_insert (entries : Entries α) (name : String) (value : α) :
    (entries.insert name value).names =
      if entries.contains name then entries.names else entries.names ++ [name] := by
  induction entries with
  | nil => rfl
  | cons e rest ih => grind [insert, get?, contains, names]

theorem contains_iff (entries : Entries α) (name : String) :
    entries.contains name = true ↔ name ∈ entries.names := by
  induction entries with
  | nil => simp [contains, get?, names]
  | cons e rest ih => grind [get?, contains, names]

theorem nodup_insert {entries : Entries α} (h : entries.names.Nodup) (name : String) (value : α) :
    (entries.insert name value).names.Nodup := by
  rw [names_insert]
  split
  · exact h
  · next hc =>
    rw [contains_iff] at hc
    rw [List.nodup_append]
    refine ⟨h, by simp, ?_⟩
    intro a ha b hb
    rw [List.mem_singleton] at hb
    rintro rfl
    exact hc (hb ▸ ha)

theorem nodup_extend {entries : Entries α} (h : entries.names.Nodup) (more : Entries α) :
    (entries.extend more).names.Nodup := by
  induction more generalizing entries with
  | nil => exact h
  | cons e rest ih => exact ih (nodup_insert h e.1 e.2)

end Entries

end Stepwise
