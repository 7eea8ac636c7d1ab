import SchemaScript.Catalog.Basic
import SchemaScript.Proofs.Catalog.Entries
import Mathlib.Data.List.Pairwise

/-!
# Catalogs that differ by order

Catalogs are alike if they keep the same and differ at most in what has no order of its own: how entries
came in, columns that their positions tell apart, the events of a trigger, and attachments of which each
has another child (`Catalog.Alike`). What is gone through by name or by position is met in the same
order (`Entries.Alike.forall₂_sorted`, `Rearranged.byPosition_eq`).
-/

namespace SchemaScript

variable {α β : Type}

/-! ## Lists -/

/-- The same items, in another order only if any two of them are apart. -/
def Rearranged (Apart : α → α → Prop) (a b : List α) : Prop :=
  a = b ∨ a.Perm b ∧ a.Pairwise Apart

/-- The positions are not the same, so they put the objects in order. -/
def PositionsApart (position : α → Field Int) (x y : α) : Prop :=
  ¬ ((position x).stored.precedes (position y).stored ∧
    (position y).stored.precedes (position x).stored)

theorem Json.precedes_integer (m n : Int) : (integer m).precedes (integer n) = decide (m ≤ n) := by
  have hplace (k : Int) : (integer k).place = .number 0 k := by
    simp [place, letters?, fraction?, Rat.mkRat_one]
  rw [precedes, hplace, hplace]
  simp only [Place.le, Rat.intCast_le_intCast, lt_irrefl, decide_false, beq_self_eq_true, Bool.true_and,
    Bool.false_or]

theorem positionsApart_of_ne {position : α → Field Int} {x y : α} {m n : Int}
    (hx : position x = m) (hy : position y = n) (h : m ≠ n) : PositionsApart position x y := by
  rintro ⟨hxy, hyx⟩
  rw [hx, hy, Json.precedes_integer, decide_eq_true_eq] at hxy
  rw [hx, hy, Json.precedes_integer, decide_eq_true_eq] at hyx
  exact h (le_antisymm hxy hyx)

section

variable {Apart : α → α → Prop} {a b : List α} {position : α → Field Int}

theorem Rearranged.perm (h : Rearranged Apart a b) : a.Perm b := by
  rcases h with rfl | ⟨h, -⟩
  · exact List.Perm.refl a
  · exact h

theorem Rearranged.filter (h : Rearranged Apart a b) (keep : α → Bool) :
    Rearranged Apart (a.filter keep) (b.filter keep) := by
  rcases h with rfl | ⟨h, hapart⟩
  · exact .inl rfl
  · exact .inr ⟨h.filter keep, hapart.filter keep⟩

/-- Where any two items are apart, there is one that `keep` accepts at most. -/
theorem Rearranged.filter_eq (h : Rearranged Apart a b) {keep : α → Bool}
    (hkeep : ∀ x y, keep x → keep y → ¬ Apart x y) : a.filter keep = b.filter keep := by
  rcases h.filter keep with heq | ⟨hperm, hapart⟩
  · exact heq
  · rcases hfound : a.filter keep with _ | ⟨x, _ | ⟨y, rest⟩⟩
    · rw [hfound] at hperm
      exact (List.nil_perm.mp hperm).symm
    · rw [hfound] at hperm
      exact List.singleton_perm.mp hperm
    · have hmem : ∀ z ∈ [x, y], keep z := fun z hz =>
        List.of_mem_filter (show z ∈ a.filter keep by
          rw [hfound]
          exact List.mem_append_left rest hz)
      rw [hfound] at hapart
      exact absurd ((List.pairwise_cons.mp hapart).1 y (by simp))
        (hkeep x y (hmem x (by simp)) (hmem y (by simp)))

theorem Rearranged.byPosition_eq (h : Rearranged (PositionsApart position) a b) :
    byPosition position a = byPosition position b := by
  rcases h with rfl | ⟨hperm, hapart⟩
  · rfl
  · have : Std.Symm (PositionsApart position) := ⟨fun x y hxy hyx => hxy hyx.symm⟩
    have htrans (x y z : α) :=
      @Json.precedes_trans (position x).stored (position y).stored (position z).stored
    have htotal (x y : α) := Json.precedes_total (position x).stored (position y).stored
    refine Order.sort_eq_of_perm htrans htotal hperm fun x hx y hy hxy hyx => ?_
    by_contra hne
    exact hapart.forall hx hy hne ⟨hxy, hyx⟩

theorem Json.areOrdered_perm {values others : List Json} (h : values.Perm others) :
    areOrdered values = areOrdered others := by
  rw [areOrdered, areOrdered, h.length_eq, h.all_eq, h.all_eq]

theorem needOrder_perm (h : a.Perm b) : needOrder position a = needOrder position b := by
  rw [needOrder, needOrder, Json.areOrdered_perm (h.map _)]

/-- Checks of which all give the same fault may come in any order. -/
theorem forM_perm {check : α → Except Fault Unit} {fault : Fault}
    (hcheck : ∀ x, check x = .ok () ∨ check x = .error fault) (h : a.Perm b) :
    a.forM check = b.forM check := by
  have hall (l : List α) : l.forM check =
      if l.all (fun x => (check x).toBool) then .ok () else .error fault := by
    induction l with
    | nil => rfl
    | cons x l ih =>
      show (check x >>= fun _ => l.forM check) = _
      rw [List.all_cons]
      rcases hcheck x with hx | hx <;> rw [hx]
      · exact ih
      · rfl
  rw [hall, hall, h.all_eq]

end

section

variable {r : α → β → Prop} {l : List α} {l' : List β}

theorem forM_congr {check : α → Except Fault Unit} {check' : β → Except Fault Unit}
    (hcheck : ∀ x y, r x y → check x = check' y) (h : List.Forall₂ r l l') :
    l.forM check = l'.forM check' := by
  induction h with
  | nil => rfl
  | cons hxy _ ih =>
    exact congrArg₂ (fun first rest => first >>= fun _ => rest) (hcheck _ _ hxy) ih

theorem forall₂_filter {p : α → Bool} {q : β → Bool} (hp : ∀ x y, r x y → p x = q y)
    (h : List.Forall₂ r l l') : List.Forall₂ r (l.filter p) (l'.filter q) :=
  List.rel_filter (fun x y hxy => show p x = true ↔ q y = true by rw [hp x y hxy]) h

theorem find?_rel {p : α → Bool} {q : β → Bool} (hp : ∀ x y, r x y → p x = q y)
    (h : List.Forall₂ r l l') : Option.Rel r (l.find? p) (l'.find? q) := by
  induction h with
  | nil => exact .none
  | @cons x y _ _ hxy _ ih =>
    rw [List.find?_cons, List.find?_cons, hp x y hxy]
    cases q y with
    | true => exact .some hxy
    | false => exact ih

theorem map_eq_of_forall₂ {γ : Type} {f : α → γ} {g : β → γ} (hf : ∀ x y, r x y → f x = g y)
    (h : List.Forall₂ r l l') : l.map f = l'.map g := by
  induction h with
  | nil => rfl
  | cons hxy _ ih => rw [List.map_cons, List.map_cons, hf _ _ hxy, ih]

theorem filterMap_eq_of_forall₂ {γ : Type} {f : α → Option γ} {g : β → Option γ}
    (hf : ∀ x y, r x y → f x = g y) (h : List.Forall₂ r l l') : l.filterMap f = l'.filterMap g := by
  induction h with
  | nil => rfl
  | cons hxy _ ih => rw [List.filterMap_cons, List.filterMap_cons, hf _ _ hxy, ih]

end

/-! ## Entries -/

/-- The same names, and under each of them objects of which `r` holds. -/
def Entries.Alike (r : α → β → Prop) (a : Entries α) (b : Entries β) : Prop :=
  ∀ name, Option.Rel r (a.get? name) (b.get? name)

namespace Entries.Alike

variable {r : α → β → Prop} {a : Entries α} {b : Entries β}

theorem empty : (Entries.empty : Entries α).Alike r (Entries.empty : Entries β) :=
  fun _ => .none

theorem mono {q : α → β → Prop} (h : a.Alike r b) (hq : ∀ x y, r x y → q x y) : a.Alike q b := by
  intro name
  have hrel := h name
  generalize a.get? name = x at hrel ⊢
  generalize b.get? name = y at hrel ⊢
  cases hrel with
  | some hxy => exact .some (hq _ _ hxy)
  | none => exact .none

theorem put (h : a.Alike r b) (name : String) {x : α} {y : β} (hxy : r x y) :
    (a.put name x).Alike r (b.put name y) := by
  intro n
  rw [get?_put, get?_put]
  split
  · exact .some hxy
  · exact h n

/-- Two entries may come in the one way or the other. -/
theorem put_put (h : a.Alike r b) {m n : String} (hne : m ≠ n) {x x' : α} {y y' : β} (hxy : r x y)
    (hxy' : r x' y') : ((a.put m x).put n x').Alike r ((b.put n y').put m y) := by
  intro name
  rw [get?_put, get?_put, get?_put, get?_put]
  by_cases hm : name = m
  · rw [if_neg (hm ▸ hne), if_pos hm, if_pos hm]
    exact .some hxy
  · rw [if_neg hm, if_neg hm]
    split
    · exact .some hxy'
    · exact h name

theorem contains_eq (h : a.Alike r b) (name : String) : a.contains name = b.contains name := by
  have hrel := h name
  rw [Entries.contains, Entries.contains]
  generalize a.get? name = x at hrel ⊢
  generalize b.get? name = y at hrel ⊢
  cases hrel <;> rfl

theorem names_perm (h : a.Alike r b) : a.names.Perm b.names := by
  refine (List.perm_ext_iff_of_nodup a.nodup b.nodup).mpr fun name => ?_
  show name ∈ a.names ↔ name ∈ b.names
  rw [← contains_iff_mem_names, ← contains_iff_mem_names, h.contains_eq]

theorem size_eq (h : a.Alike r b) : a.size = b.size := by
  simpa [Entries.names, Entries.size] using h.names_perm.length_eq

theorem sortedNames_eq (h : a.Alike r b) : a.sortedNames = b.sortedNames := by
  have hperm : a.sortedNames.Perm b.sortedNames :=
    ((Order.sort_perm _ _).map _).trans (h.names_perm.trans ((Order.sort_perm _ _).map _).symm)
  refine List.Perm.eq_of_pairwise (fun (x y : String) _ _ (hxy : x < y) (hyx : y < x) =>
    absurd hyx (lt_asymm hxy)) ?_ ?_ hperm
  · exact List.pairwise_map.mpr a.pairwise_lt_sorted
  · exact List.pairwise_map.mpr b.pairwise_lt_sorted

/-- Going through the entries by name meets objects of which `r` holds under the same names. -/
theorem forall₂_sorted (h : a.Alike r b) :
    List.Forall₂ (fun x y => x.1 = y.1 ∧ r x.2 y.2) a.sorted b.sorted := by
  have hnames := h.sortedNames_eq
  rw [sortedNames, sortedNames] at hnames
  refine List.forall₂_iff_get.mpr ⟨by simpa using congrArg List.length hnames, fun i ha hb => ?_⟩
  have hname : a.sorted[i].1 = b.sorted[i].1 := by
    have hget := congrArg (·[i]?) hnames
    simpa [ha, hb] using hget
  have hrel := h a.sorted[i].1
  rw [get?_of_mem_sorted (List.getElem_mem ha), hname,
    get?_of_mem_sorted (List.getElem_mem hb)] at hrel
  rcases hrel with hrel | _
  exact ⟨hname, hrel⟩

theorem forall₂_sortedValues (h : a.Alike r b) :
    List.Forall₂ r a.sortedValues b.sortedValues := by
  rw [sortedValues, sortedValues, List.forall₂_map_left_iff, List.forall₂_map_right_iff]
  exact h.forall₂_sorted.imp fun _ _ hxy => hxy.2

theorem sorted_eq {a b : Entries α} (h : a.Alike Eq b) : a.sorted = b.sorted := by
  rw [← List.forall₂_eq_eq_eq]
  exact h.forall₂_sorted.imp fun _ _ hxy => Prod.ext hxy.1 hxy.2

theorem get?_eq {a b : Entries α} (h : a.Alike Eq b) (name : String) :
    a.get? name = b.get? name := by
  have hrel := h name
  generalize a.get? name = x at hrel ⊢
  generalize b.get? name = y at hrel ⊢
  cases hrel with
  | some heq => rw [heq]
  | none => rfl

end Entries.Alike

/-! ## Objects -/

/-- A trigger waits for its events in any order, however often each is listed. -/
inductive Trigger.Alike (t : Trigger) : Trigger → Prop
  | reorder {events : List Event} (same : ∀ event, event ∈ t.events ↔ event ∈ events) :
    t.Alike { t with events }

inductive Index.Alike (i : Index) : Index → Prop
  | reorder {columns : List IndexColumn}
      (columnsMoved : Rearranged (PositionsApart (·.position)) i.columns columns) :
    i.Alike { i with columns }

inductive Constraint.Alike (c : Constraint) : Constraint → Prop
  | reorder {columns referencedColumns : List KeyColumn}
      (columnsMoved : Rearranged (PositionsApart (·.position)) c.columns columns)
      (referencedMoved :
        Rearranged (PositionsApart (·.position)) c.referencedColumns referencedColumns) :
    c.Alike { c with columns, referencedColumns }

inductive UserType.Alike (t : UserType) : UserType → Prop
  | reorder {members : List Member}
      (membersMoved : Rearranged (PositionsApart (·.position)) t.members members) :
    t.Alike { t with members }

inductive Table.Alike (t : Table) : Table → Prop
  | reorder {columns : List Column} {constraints : Entries Constraint} {indexes : Entries Index}
      {triggers : Entries Trigger} {policies : Entries Policy}
      (columnsMoved : Rearranged (PositionsApart (·.position)) t.columns columns)
      (constraintsMoved : t.constraints.Alike Constraint.Alike constraints)
      (indexesMoved : t.indexes.Alike Index.Alike indexes)
      (triggersMoved : t.triggers.Alike Trigger.Alike triggers)
      (policiesMoved : t.policies.Alike Eq policies) :
    t.Alike { t with columns, constraints, indexes, triggers, policies }

structure Schema.Alike (s s' : Schema) : Prop where
  name : s.name = s'.name
  owner : s.owner = s'.owner
  tables : s.tables.Alike Table.Alike s'.tables
  views : s.views.Alike Eq s'.views
  functions : s.functions.Alike Eq s'.functions
  procedures : s.procedures.Alike Eq s'.procedures
  aggregates : s.aggregates.Alike Eq s'.aggregates
  sequences : s.sequences.Alike Eq s'.sequences
  policies : s.policies.Alike Eq s'.policies
  types : s.types.Alike UserType.Alike s'.types

/-- What is attached as a partition, by schema and name. -/
def PartitionAttachment.child (a : PartitionAttachment) : Field String × Field String :=
  (a.childSchema, a.childTable)

def IndexAttachment.child (a : IndexAttachment) : Field String × Field String :=
  (a.childSchema, a.childIndex)

/-- The catalogs differ at most in what has no order of its own. -/
structure Catalog.Alike (c c' : Catalog) : Prop where
  metadata : c.metadata = c'.metadata
  schemas : c.schemas.Alike Schema.Alike c'.schemas
  extensions : c.extensions.Alike Eq c'.extensions
  partitions : Rearranged (fun x y => x.child ≠ y.child) c.partitions c'.partitions
  indexPartitions : Rearranged (fun x y => x.child ≠ y.child) c.indexPartitions c'.indexPartitions

end SchemaScript
