import SchemaScript.Order.Topological

/-!
# Named entries

Objects by name, in the order in which their names came in. A name has one entry: putting an object
under a name that is taken replaces the old one and keeps its place.
-/

namespace SchemaScript

structure Entries (α : Type) where
  pairs : List (String × α)
  nodup : (pairs.map (·.1)).Nodup
  deriving DecidableEq

namespace Entries

variable {α β : Type}

def empty : Entries α :=
  ⟨[], by simp⟩

instance : Inhabited (Entries α) :=
  ⟨empty⟩

/-- The names in the order in which they came in. -/
def names (entries : Entries α) : List String :=
  entries.pairs.map (·.1)

def values (entries : Entries α) : List α :=
  entries.pairs.map (·.2)

def size (entries : Entries α) : Nat :=
  entries.pairs.length

def isEmpty (entries : Entries α) : Bool :=
  entries.pairs.isEmpty

def lookup (name : String) (pairs : List (String × α)) : Option α :=
  (pairs.find? fun pair => pair.1 == name).map (·.2)

def get? (entries : Entries α) (name : String) : Option α :=
  lookup name entries.pairs

def contains (entries : Entries α) (name : String) : Bool :=
  (entries.get? name).isSome

def putPair (name : String) (value : α) : List (String × α) → List (String × α)
  | [] => [(name, value)]
  | (n, v) :: pairs => if n = name then (n, value) :: pairs else (n, v) :: putPair name value pairs

theorem mem_names_putPair {name n : String} {value : α} {pairs : List (String × α)} :
    n ∈ (putPair name value pairs).map (·.1) ↔ n = name ∨ n ∈ pairs.map (·.1) := by
  induction pairs with
  | nil => simp [putPair]
  | cons pair pairs ih =>
    obtain ⟨m, v⟩ := pair
    by_cases h : m = name
    · simp [putPair, h]
    · simp only [putPair, h, if_false, List.map_cons, List.mem_cons, ih]
      constructor
      · rintro (h | h | h) <;> simp [h]
      · rintro (h | h | h) <;> simp [h]

theorem nodup_putPair {name : String} {value : α} {pairs : List (String × α)}
    (h : (pairs.map (·.1)).Nodup) : ((putPair name value pairs).map (·.1)).Nodup := by
  induction pairs with
  | nil => simp [putPair]
  | cons pair pairs ih =>
    obtain ⟨m, v⟩ := pair
    simp only [List.map_cons, List.nodup_cons] at h
    by_cases hm : m = name
    · simpa [putPair, hm] using ⟨hm ▸ by simpa using h.1, h.2⟩
    · simp only [putPair, hm, if_false, List.map_cons, List.nodup_cons, mem_names_putPair]
      exact ⟨by simpa [hm] using h.1, ih h.2⟩

def put (entries : Entries α) (name : String) (value : α) : Entries α :=
  ⟨putPair name value entries.pairs, nodup_putPair entries.nodup⟩

/-- Later pairs take the place of earlier ones with the same name. -/
def ofPairs (pairs : List (String × α)) : Entries α :=
  pairs.foldl (fun entries pair => entries.put pair.1 pair.2) empty

def filter (entries : Entries α) (keep : String → Bool) : Entries α :=
  ⟨entries.pairs.filter fun pair => keep pair.1,
    entries.nodup.sublist (List.filter_sublist.map _)⟩

def erase (entries : Entries α) (name : String) : Entries α :=
  entries.filter (· != name)

def map (f : α → β) (entries : Entries α) : Entries β :=
  ⟨entries.pairs.map fun pair => (pair.1, f pair.2), by
    simpa [List.map_map, Function.comp_def] using entries.nodup⟩

/-- Changes the entry under a name, if there is one. -/
def modify (entries : Entries α) (name : String) (f : α → α) : Entries α :=
  match entries.get? name with
  | some value => entries.put name (f value)
  | none => entries

/-- The pairs in the order of their names, by code point. -/
def sorted (entries : Entries α) : List (String × α) :=
  Order.sort (fun a b => a.1 ≤ b.1) entries.pairs

def sortedNames (entries : Entries α) : List String :=
  entries.sorted.map (·.1)

def sortedValues (entries : Entries α) : List α :=
  entries.sorted.map (·.2)

@[simp] theorem pairs_empty : (empty : Entries α).pairs = [] := rfl

@[simp] theorem get?_empty (name : String) : (empty : Entries α).get? name = none := rfl

theorem lookup_putPair (name n : String) (value : α) (pairs : List (String × α)) :
    lookup n (putPair name value pairs) = if n = name then some value else lookup n pairs := by
  induction pairs with
  | nil =>
    by_cases h : name = n
    · simp [putPair, lookup, h]
    · simp [putPair, lookup, h, Ne.symm h]
  | cons pair pairs ih =>
    obtain ⟨m, v⟩ := pair
    simp only [lookup] at ih ⊢
    by_cases hm : m = name <;> by_cases hn : m = n <;> by_cases hnn : n = name <;>
      simp_all [putPair]

/-- Putting changes the one name and no other. -/
theorem get?_put (entries : Entries α) (name n : String) (value : α) :
    (entries.put name value).get? n = if n = name then some value else entries.get? n :=
  lookup_putPair name n value entries.pairs

theorem mem_names_put {entries : Entries α} {name n : String} {value : α} :
    n ∈ (entries.put name value).names ↔ n = name ∨ n ∈ entries.names :=
  mem_names_putPair

end Entries
end SchemaScript
