/-!
# Maps keyed by variable ids

An `IdMap` pairs variable ids with values and remembers the order in which the ids
were first written. Gradient maps, bindings and the variables in scope of a text are
all of this kind.

* `IdMap.get?_insert_self` and `IdMap.get?_insert_of_ne` say what reading after a
  write gives;
* `IdMap.ids_insert` says that a write keeps the order of the ids, and that a new id
  goes to the end;
* `IdMap.get?_override` says that the second of two maps wins;
* `IdMap.get?_map` says what is read when every value is replaced, and `IdMap.map_insert`
  that a value may be replaced before it is written.
-/

namespace Autodiff

/-- Ids with their values, each id once, in the order of first writing. -/
structure IdMap (β : Type) where
  /-- The pairs, oldest id first. -/
  entries : List (String × β)
  /-- No id has two values. -/
  nodup : (entries.map Prod.fst).Nodup

namespace IdMap

variable {β : Type}

/-! ## Association lists -/

/-- Overwrite the value of an id in place, or append the id with its value. -/
def writeEntry (id : String) (value : β) : List (String × β) → List (String × β)
  | [] => [(id, value)]
  | (key, old) :: rest =>
    if key = id then (key, value) :: rest else (key, old) :: writeEntry id value rest

theorem keys_writeEntry (id : String) (value : β) (entries : List (String × β)) :
    (writeEntry id value entries).map Prod.fst =
      if id ∈ entries.map Prod.fst then entries.map Prod.fst
      else entries.map Prod.fst ++ [id] := by
  induction entries with
  | nil => simp [writeEntry]
  | cons entry rest ih =>
    obtain ⟨key, old⟩ := entry
    by_cases hKey : key = id
    · simp [writeEntry, hKey]
    · by_cases hMem : id ∈ rest.map Prod.fst
      · rw [if_pos hMem] at ih
        rw [writeEntry, if_neg hKey, List.map_cons, ih, List.map_cons,
          if_pos (List.mem_cons_of_mem _ hMem)]
      · rw [if_neg hMem] at ih
        rw [writeEntry, if_neg hKey, List.map_cons, ih, List.map_cons,
          if_neg (by simp only [List.mem_cons, not_or]; exact ⟨fun h => hKey h.symm, hMem⟩)]
        rfl

theorem nodup_writeEntry (id : String) (value : β) {entries : List (String × β)}
    (hNodup : (entries.map Prod.fst).Nodup) :
    ((writeEntry id value entries).map Prod.fst).Nodup := by
  rw [keys_writeEntry]
  split
  · exact hNodup
  · next hMem =>
    refine List.nodup_append.2 ⟨hNodup, by simp, ?_⟩
    intro a ha b hb hab
    rw [List.mem_singleton] at hb
    exact hMem (by rw [← hb, ← hab]; exact ha)

theorem lookup_writeEntry_self (id : String) (value : β) (entries : List (String × β)) :
    (writeEntry id value entries).lookup id = some value := by
  induction entries with
  | nil => simp [writeEntry]
  | cons entry rest ih =>
    obtain ⟨key, old⟩ := entry
    by_cases hKey : key = id
    · simp [writeEntry, hKey]
    · rw [writeEntry, if_neg hKey, List.lookup_cons, beq_eq_false_iff_ne.2 (Ne.symm hKey)]
      exact ih

theorem lookup_writeEntry_of_ne {id other : String} (hNe : other ≠ id) (value : β)
    (entries : List (String × β)) :
    (writeEntry id value entries).lookup other = entries.lookup other := by
  induction entries with
  | nil => rw [writeEntry, List.lookup_cons, beq_eq_false_iff_ne.2 hNe]
  | cons entry rest ih =>
    obtain ⟨key, old⟩ := entry
    by_cases hKey : key = id
    · subst hKey
      rw [writeEntry, if_pos rfl, List.lookup_cons, List.lookup_cons, beq_eq_false_iff_ne.2 hNe]
    · simp [writeEntry, hKey, List.lookup_cons, ih]

/-! ## Operations -/

def empty : IdMap β := ⟨[], List.nodup_nil⟩

def get? (map : IdMap β) (id : String) : Option β := map.entries.lookup id

/-- The ids, oldest first. -/
def ids (map : IdMap β) : List String := map.entries.map Prod.fst

def contains (map : IdMap β) (id : String) : Bool := (map.get? id).isSome

def isEmpty (map : IdMap β) : Bool := map.entries.isEmpty

/-- Give an id a value, in place if the id is known and at the end if it is new. -/
def insert (map : IdMap β) (id : String) (value : β) : IdMap β :=
  ⟨writeEntry id value map.entries, nodup_writeEntry id value map.nodup⟩

/-- Write the pairs of a list one after the other. -/
def insertAll (map : IdMap β) (pairs : List (String × β)) : IdMap β :=
  pairs.foldl (fun current pair => current.insert pair.1 pair.2) map

/-- The map that holds the pairs of a list; of two values of one id the later stays. -/
def ofList (pairs : List (String × β)) : IdMap β := empty.insertAll pairs

/-- The first map with the values of the second written over it. -/
def override (map newer : IdMap β) : IdMap β := map.insertAll newer.entries

/-- The map with the same ids and every value replaced, by a function of id and value. -/
def map {γ : Type} (f : String → β → γ) (source : IdMap β) : IdMap γ :=
  ⟨source.entries.map fun entry => (entry.1, f entry.1 entry.2), by
    simpa [List.map_map, Function.comp_def] using source.nodup⟩

/-! ## Reading after writing -/

@[simp] theorem get?_empty (id : String) : (empty : IdMap β).get? id = none := rfl

@[simp] theorem ids_empty : (empty : IdMap β).ids = [] := rfl

@[simp] theorem get?_insert_self (map : IdMap β) (id : String) (value : β) :
    (map.insert id value).get? id = some value :=
  lookup_writeEntry_self id value map.entries

theorem get?_insert_of_ne (map : IdMap β) {id other : String} (hNe : other ≠ id) (value : β) :
    (map.insert id value).get? other = map.get? other :=
  lookup_writeEntry_of_ne hNe value map.entries

theorem get?_insert (map : IdMap β) (id other : String) (value : β) :
    (map.insert id value).get? other = if other = id then some value else map.get? other := by
  split
  · next h => rw [h, get?_insert_self]
  · next h => exact get?_insert_of_ne map h value

theorem ids_insert (map : IdMap β) (id : String) (value : β) :
    (map.insert id value).ids = if id ∈ map.ids then map.ids else map.ids ++ [id] :=
  keys_writeEntry id value map.entries

theorem get?_eq_none_iff (map : IdMap β) (id : String) : map.get? id = none ↔ id ∉ map.ids := by
  unfold get? ids
  induction map.entries with
  | nil => simp
  | cons entry rest ih =>
    obtain ⟨key, value⟩ := entry
    by_cases hKey : id = key
    · simp [hKey]
    · simp only [List.lookup_cons, beq_eq_false_iff_ne.2 hKey, List.map_cons, List.mem_cons, hKey,
        false_or]
      exact ih

theorem contains_iff (map : IdMap β) (id : String) : map.contains id = true ↔ id ∈ map.ids := by
  have h := get?_eq_none_iff map id
  unfold contains
  cases hGet : map.get? id with
  | none => simpa using h.1 hGet
  | some value =>
    simp only [Option.isSome_some, true_iff]
    exact Decidable.of_not_not fun hMem => by rw [h.2 hMem] at hGet; cases hGet

theorem get?_insertAll (map : IdMap β) {pairs : List (String × β)}
    (hNodup : (pairs.map Prod.fst).Nodup) (id : String) :
    (map.insertAll pairs).get? id = (pairs.lookup id).or (map.get? id) := by
  induction pairs generalizing map with
  | nil => rfl
  | cons pair rest ih =>
    obtain ⟨key, value⟩ := pair
    rw [List.map_cons, List.nodup_cons] at hNodup
    have hStep : (map.insertAll ((key, value) :: rest)) = (map.insert key value).insertAll rest := rfl
    rw [hStep, ih (map.insert key value) hNodup.2, get?_insert, List.lookup_cons]
    by_cases hKey : id = key
    · have hNone : rest.lookup id = none :=
        (get?_eq_none_iff ⟨rest, hNodup.2⟩ id).2 (by rw [hKey]; exact hNodup.1)
      simp [hKey, hKey ▸ hNone]
    · rw [if_neg hKey, beq_eq_false_iff_ne.2 hKey]

/-- Of two maps the second wins, and the first fills the gaps. -/
theorem get?_override (map newer : IdMap β) (id : String) :
    (map.override newer).get? id = (newer.get? id).or (map.get? id) :=
  get?_insertAll map newer.nodup id

theorem get?_map {γ : Type} (f : String → β → γ) (source : IdMap β) (id : String) :
    (source.map f).get? id = (source.get? id).map (f id) := by
  change (source.entries.map fun entry => (entry.1, f entry.1 entry.2)).lookup id =
    (source.entries.lookup id).map (f id)
  induction source.entries with
  | nil => rfl
  | cons entry rest ih =>
    obtain ⟨key, value⟩ := entry
    by_cases hKey : id = key
    · simp [hKey]
    · simpa [List.lookup_cons, beq_eq_false_iff_ne.2 hKey] using ih

theorem ids_map {γ : Type} (f : String → β → γ) (source : IdMap β) :
    (source.map f).ids = source.ids := by
  simp [ids, map]

theorem map_writeEntry {γ : Type} (f : String → β → γ) (id : String) (value : β)
    (entries : List (String × β)) :
    (writeEntry id value entries).map (fun entry => (entry.1, f entry.1 entry.2)) =
      writeEntry id (f id value) (entries.map fun entry => (entry.1, f entry.1 entry.2)) := by
  induction entries with
  | nil => rfl
  | cons entry rest ih =>
    obtain ⟨key, old⟩ := entry
    by_cases hKey : key = id
    · simp [writeEntry, hKey]
    · simp [writeEntry, hKey, ih]

theorem map_insert {γ : Type} (f : String → β → γ) (source : IdMap β) (id : String) (value : β) :
    (source.insert id value).map f = (source.map f).insert id (f id value) := by
  simp only [insert, map, map_writeEntry]

/-! ## The empty map -/

theorem eq_empty_of_isEmpty {source : IdMap β} (hEmpty : source.isEmpty = true) :
    source = empty := by
  obtain ⟨entries, nodup⟩ := source
  cases List.isEmpty_iff.1 hEmpty
  rfl

end IdMap

end Autodiff
