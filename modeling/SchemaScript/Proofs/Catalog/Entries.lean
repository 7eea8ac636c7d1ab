import SchemaScript.Catalog.Entries
import SchemaScript.Proofs.Order.Sorting
import Mathlib.Data.List.Nodup

/-!
# Entries by name

Which names have an entry, and that going through the entries by name meets each of them once. Pairs with
different names are put in as they are (`pairs_ofPairs`).
-/

namespace SchemaScript.Entries

variable {α : Type} {entries : Entries α} {name : String} {value : α}

theorem mem_sorted {pair : String × α} : pair ∈ entries.sorted ↔ pair ∈ entries.pairs :=
  Order.mem_sort

/-- Going through the entries meets their names in the order of code points. -/
theorem pairwise_lt_sorted (entries : Entries α) : entries.sorted.Pairwise fun a b => a.1 < b.1 := by
  have hle : entries.sorted.Pairwise fun a b => a.1 ≤ b.1 := Order.pairwise_sort_by (·.1) entries.pairs
  have hne : entries.sorted.Pairwise fun a b => a.1 ≠ b.1 :=
    List.pairwise_map.mp (((Order.sort_perm _ _).map _).nodup_iff.mpr entries.nodup)
  exact (hle.and hne).imp fun h => lt_of_le_of_ne h.1 h.2

theorem get?_eq_some_iff : entries.get? name = some value ↔ (name, value) ∈ entries.pairs := by
  unfold get? lookup
  constructor
  · intro h
    obtain ⟨⟨n, v⟩, hfind, rfl⟩ := Option.map_eq_some_iff.mp h
    obtain rfl : n = name := by simpa using List.find?_some hfind
    exact List.mem_of_find?_eq_some hfind
  · intro h
    rcases hfind : entries.pairs.find? fun pair => pair.1 == name with _ | ⟨n, v⟩
    · simpa using List.find?_eq_none.mp hfind _ h
    · obtain rfl : n = name := by simpa using List.find?_some hfind
      have hmem := List.mem_of_find?_eq_some hfind
      have heq := List.inj_on_of_nodup_map entries.nodup h hmem rfl
      simp_all

theorem get?_of_mem_sorted {pair : String × α} (h : pair ∈ entries.sorted) :
    entries.get? pair.1 = some pair.2 :=
  get?_eq_some_iff.mpr (mem_sorted.mp h)

theorem mem_sorted_iff_get? {pair : String × α} :
    pair ∈ entries.sorted ↔ entries.get? pair.1 = some pair.2 :=
  mem_sorted.trans get?_eq_some_iff.symm

theorem contains_iff_mem_names : entries.contains name ↔ name ∈ entries.names := by
  unfold contains names
  rw [Option.isSome_iff_exists]
  simp [get?_eq_some_iff]

theorem contains_of_get? (h : entries.get? name = some value) : entries.contains name := by
  simp [contains, h]

theorem contains_of_mem_sorted {pair : String × α} (h : pair ∈ entries.sorted) :
    entries.contains pair.1 :=
  contains_of_get? (get?_of_mem_sorted h)

/-- A kept object stands in one place among the others, whose names are different. -/
theorem exists_sorted_split (h : entries.get? name = some value) :
    ∃ before after, entries.sorted = before ++ (name, value) :: after ∧
      ∀ pair ∈ before ++ after, pair.1 ≠ name := by
  obtain ⟨before, after, hsplit⟩ := List.append_of_mem (mem_sorted.mpr (get?_eq_some_iff.mp h))
  have hne := entries.pairwise_lt_sorted.imp fun h => ne_of_lt h
  rw [hsplit, List.pairwise_append, List.pairwise_cons] at hne
  refine ⟨before, after, hsplit, fun pair hpair => ?_⟩
  rcases List.mem_append.mp hpair with hpair | hpair
  · exact hne.2.2 pair hpair (name, value) (by simp)
  · exact (hne.2.1.1 pair hpair).symm

theorem filter_name_sorted (h : entries.get? name = some value) :
    entries.sorted.filter (·.1 == name) = [(name, value)] := by
  obtain ⟨before, after, hsplit, hne⟩ := exists_sorted_split h
  have hnone {pairs : List (String × α)} (hpairs : ∀ pair ∈ pairs, pair.1 ≠ name) :
      pairs.filter (·.1 == name) = [] :=
    List.filter_eq_nil_iff.mpr fun pair hpair => by simpa using hpairs pair hpair
  rw [hsplit, List.filter_append, hnone fun pair hp => hne pair (List.mem_append_left after hp),
    List.filter_cons_of_pos (by simp), hnone fun pair hp => hne pair (List.mem_append_right before hp),
    List.nil_append]

/-! ## Putting pairs -/

section

variable {pairs : List (String × α)} {pair : String × α}

theorem putPair_fresh (h : name ∉ pairs.map (·.1)) :
    putPair name value pairs = pairs ++ [(name, value)] := by
  induction pairs with
  | nil => rfl
  | cons pair pairs ih =>
    obtain ⟨n, v⟩ := pair
    simp only [List.map_cons, List.mem_cons, not_or] at h
    rw [putPair, if_neg (Ne.symm h.1), ih h.2, List.cons_append]

theorem pairs_ofPairs (h : (pairs.map (·.1)).Nodup) : (ofPairs pairs).pairs = pairs := by
  have hfold (pairs : List (String × α)) (done : Entries α)
      (h : ((done.pairs ++ pairs).map (·.1)).Nodup) :
      (pairs.foldl (fun all p => all.put p.1 p.2) done).pairs = done.pairs ++ pairs := by
    induction pairs generalizing done with
    | nil => simp
    | cons pair pairs ih =>
      have hfresh : pair.1 ∉ done.pairs.map (·.1) := by
        rw [List.map_append, List.map_cons, List.nodup_append] at h
        exact fun hmem => h.2.2 _ hmem _ (by simp) rfl
      have hput : (done.put pair.1 pair.2).pairs = done.pairs ++ [pair] := putPair_fresh hfresh
      rw [List.foldl_cons, ih _ (by rw [hput]; simpa using h), hput, List.append_assoc,
        List.singleton_append]
  exact hfold pairs empty h

theorem mem_of_mem_putPair (h : pair ∈ putPair name value pairs) :
    pair = (name, value) ∨ pair ∈ pairs := by
  induction pairs with
  | nil => exact .inl (List.mem_singleton.mp h)
  | cons first pairs ih =>
    obtain ⟨n, v⟩ := first
    rw [putPair] at h
    split at h
    · next hn =>
      rcases List.mem_cons.mp h with rfl | hmem
      · exact .inl (by rw [hn])
      · exact .inr (List.mem_cons_of_mem _ hmem)
    · rcases List.mem_cons.mp h with rfl | hmem
      · exact .inr (List.mem_cons_self ..)
      · exact (ih hmem).imp_right (List.mem_cons_of_mem _)

theorem mem_of_mem_foldl_put {done : Entries α}
    (h : pair ∈ (pairs.foldl (fun all p => all.put p.1 p.2) done).pairs) :
    pair ∈ done.pairs ∨ pair ∈ pairs := by
  induction pairs generalizing done with
  | nil => exact .inl h
  | cons first pairs ih =>
    rcases ih h with hmem | hmem
    · rcases mem_of_mem_putPair hmem with rfl | hmem
      · exact .inr (List.mem_cons_self ..)
      · exact .inl hmem
    · exact .inr (List.mem_cons_of_mem first hmem)

theorem mem_of_mem_ofPairs (h : pair ∈ (ofPairs pairs).pairs) : pair ∈ pairs :=
  (mem_of_mem_foldl_put h).resolve_left List.not_mem_nil

end

/-! ## Changing entries -/

section

variable {pairs : List (String × α)} {other : String} {w : α} {f : α → α}

theorem eq_of_pairs {a b : Entries α} (h : a.pairs = b.pairs) : a = b := by
  cases a
  cases b
  cases h
  rfl

theorem putPair_twice (name : String) (value w : α) (pairs : List (String × α)) :
    putPair name w (putPair name value pairs) = putPair name w pairs := by
  induction pairs with
  | nil => simp [putPair]
  | cons pair pairs ih =>
    obtain ⟨n, v⟩ := pair
    by_cases hn : n = name <;> simp [putPair, hn, ih]

/-- A name that is there keeps its place, so it makes no difference what is put under another name before. -/
theorem putPair_putPair (hne : other ≠ name) (hmem : name ∈ pairs.map (·.1)) :
    putPair name w (putPair other value pairs) = putPair other value (putPair name w pairs) := by
  induction pairs with
  | nil => contradiction
  | cons pair pairs ih =>
    obtain ⟨n, v⟩ := pair
    by_cases hn : n = name
    · simp [putPair, hn, Ne.symm hne]
    · have hmem : name ∈ pairs.map (·.1) := by simpa [Ne.symm hn] using hmem
      by_cases ho : n = other <;> simp [putPair, hn, ho, hne, ih hmem]

theorem put_of_get? (h : entries.get? name = some value) : entries.put name value = entries := by
  have hput (pairs : List (String × α)) (hpairs : lookup name pairs = some value) :
      putPair name value pairs = pairs := by
    induction pairs with
    | nil => contradiction
    | cons pair pairs ih =>
      obtain ⟨n, v⟩ := pair
      by_cases hn : n = name
      · simp_all [putPair, lookup]
      · rw [putPair, if_neg hn, ih (by simpa [lookup, hn] using hpairs)]
  exact eq_of_pairs (hput entries.pairs h)

theorem modify_of_get? (h : entries.get? name = some value) (f : α → α) :
    entries.modify name f = entries.put name (f value) := by
  rw [modify, h]

theorem modify_put_self (entries : Entries α) (name : String) (value : α) (f : α → α) :
    (entries.put name value).modify name f = entries.put name (f value) := by
  have hthere : (entries.put name value).get? name = some value := by rw [get?_put, if_pos rfl]
  rw [modify_of_get? hthere]
  exact eq_of_pairs (putPair_twice name value (f value) entries.pairs)

theorem modify_put_other (hne : other ≠ name) (value : α) (f : α → α) :
    (entries.put other value).modify name f = (entries.modify name f).put other value := by
  have hget : (entries.put other value).get? name = entries.get? name := by rw [get?_put, if_neg (Ne.symm hne)]
  unfold modify
  rw [hget]
  cases hthere : entries.get? name with
  | none => rfl
  | some v =>
    have hmem : name ∈ entries.pairs.map (·.1) := contains_iff_mem_names.mp (contains_of_get? hthere)
    exact eq_of_pairs (putPair_putPair hne hmem)

theorem names_modify (entries : Entries α) (name : String) (f : α → α) : (entries.modify name f).names = entries.names := by
  have hput {pairs : List (String × α)} {v : α} (hmem : name ∈ pairs.map (·.1)) :
      (putPair name v pairs).map (·.1) = pairs.map (·.1) := by
    induction pairs with
    | nil => contradiction
    | cons pair pairs ih =>
      obtain ⟨n, w⟩ := pair
      by_cases hn : n = name
      · simp [putPair, hn]
      · have hmem : name ∈ pairs.map (·.1) := by simpa [Ne.symm hn] using hmem
        simp only [putPair, hn, if_false, List.map_cons, ih hmem]
  unfold modify
  cases hthere : entries.get? name with
  | none => rfl
  | some v => exact hput (contains_iff_mem_names.mp (contains_of_get? hthere))

end

end SchemaScript.Entries
