import SchemaScript.Json.Reader
import SchemaScript.Json.Writer
import SchemaScript.Proofs.Order.Sorting

/-!
# Values up to the order of fields

The fields of an object have no order of their own, so a value stands for the one with the fields of
every object in the order of their names, its normal form. Both are written alike (`writeAt_normal`).
-/

namespace SchemaScript.Json

/-! ## Sorted fields -/

section

variable {α β : Type}

theorem pairwise_sortFields (fields : List (String × α)) :
    (sortFields fields).Pairwise fun a b => a.1 ≤ b.1 :=
  Order.pairwise_sort_by (·.1) fields

theorem sortFields_eq_self {fields : List (String × α)} (h : fields.Pairwise fun a b => a.1 ≤ b.1) :
    sortFields fields = fields :=
  Order.sort_eq_self (h.imp decide_eq_true)

@[simp] theorem sortFields_sortFields (fields : List (String × α)) :
    sortFields (sortFields fields) = sortFields fields :=
  sortFields_eq_self (pairwise_sortFields fields)

theorem sortFields_map (f : α → β) (fields : List (String × α)) :
    sortFields (fields.map fun field => (field.1, f field.2)) =
      (sortFields fields).map fun field => (field.1, f field.2) :=
  (Order.map_sort (fun field : String × α => (field.1, f field.2)) (fun _ _ => rfl) fields).symm

theorem sortFields_perm (fields : List (String × α)) : (sortFields fields).Perm fields :=
  Order.sort_perm _ fields

end

theorem find?_cons (key name : String) (value : Json) (fields : List (String × Json)) :
    find? key ((name, value) :: fields) = if name == key then some value else find? key fields := by
  rw [find?, List.find?_cons]
  cases name == key <;> rfl

/-- Sorting is stable, so it does not change which of the fields with one name comes first. -/
theorem find?_sortFields (key : String) (fields : List (String × Json)) :
    find? key (sortFields fields) = find? key fields := by
  have hname (a : String × Json) (ha : a ∈ fields.filter (·.1 == key)) : a.1 = key :=
    beq_iff_eq.mp (List.mem_filter.mp ha).2
  have hsame : (fields.filter (·.1 == key)).Pairwise fun a b => a.1 ≤ b.1 :=
    List.pairwise_of_forall_mem_list fun a ha b hb => le_of_eq ((hname a ha).trans (hname b hb).symm)
  have hfilter : (sortFields fields).filter (·.1 == key) = fields.filter (·.1 == key) :=
    (Order.filter_sort (Order.le_name_trans Prod.fst) (Order.le_name_total Prod.fst) _ fields).trans
      (sortFields_eq_self hsame)
  rw [find?, find?, ← List.head?_filter, ← List.head?_filter, hfilter]

/-! ## Normal forms -/

mutual

/-- The value with the fields of every object in the order of their names. -/
def normal : Json → Json
  | list items => list (normalItems items)
  | object fields => object (sortFields (normalFields fields))
  | value => value

def normalItems : List Json → List Json
  | [] => []
  | item :: items => normal item :: normalItems items

def normalFields : List (String × Json) → List (String × Json)
  | [] => []
  | (name, value) :: fields => (name, normal value) :: normalFields fields

end

@[simp] theorem normalItems_eq (items : List Json) : normalItems items = items.map normal := by
  induction items with
  | nil => rfl
  | cons item items ih => rw [normalItems, ih, List.map_cons]

@[simp] theorem normalFields_eq (fields : List (String × Json)) :
    normalFields fields = fields.map fun field => (field.1, field.2.normal) := by
  induction fields with
  | nil => rfl
  | cons field fields ih => rw [normalFields, ih, List.map_cons]

theorem normal_object_fields (fields : List (String × Json)) :
    (object fields).normal = object (sortFields (normalFields fields)) := by
  rw [normal]

theorem normal_object (fields : List (String × Json)) :
    (object fields).normal = object ((sortFields fields).map fun field => (field.1, field.2.normal)) := by
  rw [normal_object_fields, normalFields_eq, sortFields_map]

theorem normal_list (items : List Json) : (list items).normal = list (items.map normal) := by
  rw [normal, normalItems_eq]

@[simp] theorem normal_text (s : String) : (text s).normal = text s := by
  simp only [normal]

mutual

@[simp] theorem normal_normal : (value : Json) → value.normal.normal = value.normal
  | null | flag _ | integer _ | real _ | text _ | torn _ => by simp only [normal]
  | list items => by
    simp only [normal_list, List.map_map]
    exact congrArg list (normal_items items)
  | object fields => by
    rw [normal, normal_object, sortFields_sortFields, normalFields_eq, ← sortFields_map, List.map_map]
    exact congrArg (fun l => object (sortFields l)) (normal_fields fields)

theorem normal_items : (items : List Json) → items.map (normal ∘ normal) = items.map normal
  | [] => rfl
  | item :: items => by
    rw [List.map_cons, List.map_cons, Function.comp_apply, normal_normal item, normal_items items]

theorem normal_fields : (fields : List (String × Json)) →
    fields.map ((fun field => (field.1, field.2.normal)) ∘ fun field => (field.1, field.2.normal)) =
      fields.map fun field => (field.1, field.2.normal)
  | [] => rfl
  | (name, value) :: fields => by
    rw [List.map_cons, List.map_cons, Function.comp_apply, normal_normal value, normal_fields fields]

end

/-- Every field of an object is found in the normal form, with the normal form of its value. -/
theorem exists_normal_object {fields : List (String × Json)} (h : (fields.map (·.1)).Nodup) :
    ∃ sorted, (object fields).normal = object sorted ∧
      ∀ field ∈ fields, find? field.1 sorted = some field.2.normal := by
  refine ⟨_, by rw [normal_object_fields, normalFields_eq], fun field hmem => ?_⟩
  rw [find?_sortFields]
  induction fields with
  | nil => simp at hmem
  | cons first fields ih =>
    simp only [List.map_cons, List.nodup_cons] at h
    rw [List.map_cons, find?_cons]
    rcases List.mem_cons.mp hmem with rfl | hmem
    · rw [beq_self_eq_true, if_pos rfl]
    · rw [if_neg, ih h.2 hmem]
      intro heq
      exact h.1 (beq_iff_eq.mp heq ▸ List.mem_map_of_mem hmem)

/-! ## Writing -/

theorem writeItems_eq (layout : Layout) (depth : Nat) (items : List Json) :
    writeItems layout depth items = items.map (writeAt layout depth) := by
  induction items with
  | nil => rfl
  | cons item items ih => rw [writeItems, ih, List.map_cons]

theorem writeFields_eq (layout : Layout) (depth : Nat) (fields : List (String × Json)) :
    writeFields layout depth fields =
      fields.map fun field => (field.1, writeAt layout depth field.2) := by
  induction fields with
  | nil => rfl
  | cons field fields ih => rw [writeFields, ih, List.map_cons]

mutual

/-- The order of fields does not show in what is written. -/
theorem writeAt_normal (layout : Layout) : (depth : Nat) → (value : Json) →
    writeAt layout depth value.normal = writeAt layout depth value
  | _, null | _, flag _ | _, integer _ | _, real _ | _, text _ | _, torn _ => by simp only [normal]
  | depth, list items => by
    rw [normal_list, writeAt, writeAt, writeItems_eq, writeItems_eq, List.map_map,
      writeItems_normal layout (depth + 1) items]
  | depth, object fields => by
    rw [normal, writeAt, writeAt, writeFields_eq, writeFields_eq, sortFields_map,
      sortFields_sortFields, ← sortFields_map, normalFields_eq, List.map_map,
      writeFields_normal layout (depth + 1) fields]

theorem writeItems_normal (layout : Layout) : (depth : Nat) → (items : List Json) →
    items.map (writeAt layout depth ∘ normal) = items.map (writeAt layout depth)
  | _, [] => rfl
  | depth, item :: items => by
    rw [List.map_cons, List.map_cons, Function.comp_apply, writeAt_normal layout depth item,
      writeItems_normal layout depth items]

theorem writeFields_normal (layout : Layout) : (depth : Nat) → (fields : List (String × Json)) →
    fields.map ((fun field => (field.1, writeAt layout depth field.2)) ∘
        fun field => (field.1, field.2.normal)) =
      fields.map fun field => (field.1, writeAt layout depth field.2)
  | _, [] => rfl
  | depth, (name, value) :: fields => by
    rw [List.map_cons, List.map_cons, Function.comp_apply, writeAt_normal layout depth value,
      writeFields_normal layout depth fields]

end

theorem write_eq_of_normal_eq {value other : Json} (h : value.normal = other.normal)
    (layout : Layout) : value.write layout = other.write layout := by
  rw [write, write, ← writeAt_normal layout 0 value, h, writeAt_normal]

end SchemaScript.Json
