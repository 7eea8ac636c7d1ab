import SchemaScript.Proofs.Script.Passes

/-!
# The pieces of tables

What is written for one table is a block: the piece that creates it, what attaches it as a partition,
and what it owns (`tablePieces_eq_block`). The walk through a schema writes one block after another
(`exists_layout`), and nothing else in a script is there because of the schema's tables
(`exists_tableScript`).
-/

namespace SchemaScript

/-- Unless there is nothing to write, a table's text begins by creating it. -/
theorem Table.isPrefixOf_ddl {target : Option String} (t : Table) (h : t.ddl target ≠ "") :
    "CREATE TABLE ".toList.isPrefixOf (t.ddl target).toList := by
  unfold Table.ddl at h ⊢
  split
  · next hincomplete => simp [hincomplete] at h
  · dsimp only
    rcases t.comments (Ddl.reference t.schema t.name target) with _ | ⟨comment, comments⟩
    · simp [List.isPrefixOf]
    · rw [String.intercalate_cons_cons]
      simp [List.isPrefixOf]

namespace Diff

variable {p : Pair} {old new : Catalog} {target : Option String} {ps : Partitions} {walk : Walk}
  {parent : Option String} {name : String} {own parts : List Piece} {x : Piece}

/-! ## One table -/

/-- The piece that creates the table, if one is written. -/
def creation? (p : Pair) (name : String) : Option Piece :=
  (p.schema.tables.get? name).bind fun t =>
    if isCreated p name t && t.ddl p.target != "" then
      some { tag := p.tag .table name, kind := .table, name, schema := p.heading,
             text := t.ddl p.target }
    else none

/-- The piece that makes the table a partition of `parent`, if its bound is known. -/
def attaching (p : Pair) (ps : Partitions) (parent : Option String) (name : String) : List Piece :=
  match parent, Text.given (ps.bound? name) with
  | some parent, some bound =>
    [{ tag := p.tag .table name, kind := .tableAttach, name, schema := p.heading,
       text := "ALTER TABLE " ++
         Text.spelled (Sql.qualified? p.schema.name.given (some parent) p.target) ++
         " ATTACH PARTITION " ++
         Text.spelled (Sql.qualified? p.schema.name.given (some name) p.target) ++ " " ++ bound ++
         ";" }]
  | _, _ => []

def block (p : Pair) (ps : Partitions) (parent : Option String) (parts : List Piece)
    (name : String) : List Piece :=
  match creation? p name with
  | some x => x :: (attaching p ps parent name ++ parts)
  | none => []

theorem eq_attaching (h : (attachment p ps name parent).result = .ok own) :
    own = attaching p ps parent name := by
  unfold attachment at h
  unfold attaching
  rcases parent with _ | parent
  · simpa [eq_comm] using h
  · obtain ⟨-, rfl⟩ := emit_eq_ok.mp h
    unfold Ddl.attachPartition
    rcases Text.given (ps.bound? name) with _ | bound
    · rfl
    · simp

/-- Either nothing is written for the table, or it is created, put in its place and given what it owns. -/
theorem tablePieces_cases {t : Table} (h : (tablePieces p new ps name t parent).result = .ok own) :
    (isCreated p name t && t.ddl p.target != "") = false ∧ own = [] ∨
      ∃ parts, isCreated p name t ∧ t.ddl p.target ≠ "" ∧
        (tableParts p (p.tag .table name) new t).result = .ok parts ∧
        own = { tag := p.tag .table name, kind := .table, name, schema := p.heading,
                text := t.ddl p.target } :: (attaching p ps parent name ++ parts) := by
  unfold tablePieces at h
  by_cases hcreated : isCreated p name t
  · simp only [hcreated, Bool.not_true, Bool.false_eq_true, if_false] at h
    obtain ⟨created, hemit, h⟩ := Logged.result_bind_eq_ok.mp h
    obtain ⟨-, rfl⟩ := emit_eq_ok.mp hemit
    by_cases hempty : t.ddl p.target = ""
    · left
      exact ⟨by simp [hempty], by simpa [hempty, eq_comm] using h⟩
    · simp only [hempty, if_false, List.isEmpty_cons, Bool.false_eq_true] at h
      obtain ⟨attach, hattach, h⟩ := Logged.result_bind_eq_ok.mp h
      obtain ⟨parts, hparts, h⟩ := Logged.result_bind_eq_ok.mp h
      obtain rfl := eq_attaching hattach
      obtain ⟨rfl⟩ := h
      right
      exact ⟨parts, hcreated, hempty, hparts, by simp⟩
  · left
    exact ⟨by simp [hcreated], by simpa [hcreated, eq_comm] using h⟩

theorem tablePieces_eq_block {t : Table} (ht : p.schema.tables.get? name = some t)
    (h : (tablePieces p new ps name t parent).result = .ok own) :
    ∃ parts, (∀ x ∈ parts, IsPart (p.tag .table name) x) ∧ own = block p ps parent parts name := by
  have hcreation : creation? p name =
      if isCreated p name t && t.ddl p.target != "" then
        some { tag := p.tag .table name, kind := .table, name, schema := p.heading,
               text := t.ddl p.target }
      else none := by
    rw [creation?, ht, Option.bind_some]
  rcases tablePieces_cases h with ⟨hnone, rfl⟩ | ⟨parts, hcreated, htext, hparts, rfl⟩
  · exact ⟨[], by simp, by simp [block, hcreation, hnone]⟩
  · exact ⟨parts, yields_tableParts name t parts hparts, by simp [block, hcreation, hcreated, htext]⟩

/-- A table is created if it is not kept as a view, the older state does not have it, and there is
something to write. -/
def Pair.Creates (p : Pair) (name : String) : Prop :=
  ∃ t, p.schema.tables.get? name = some t ∧ t.kind ≠ .view ∧
    (∀ s, p.old = some s → s.tables.contains name = false) ∧ t.ddl p.target ≠ ""

theorem isSome_creation?_iff : (creation? p name).isSome ↔ p.Creates name := by
  rw [creation?, Pair.Creates]
  rcases p.schema.tables.get? name with _ | t
  · simp
  · rcases hold : p.old with _ | s <;> simp [isCreated, hold, and_assoc]

/-! ## What tells the pieces of a block apart -/

/-- The table of this schema that the tag stands for. -/
def Pair.tableName? (p : Pair) : Tag → Option String
  | .object schema .table name => if schema = p.key then some name else none
  | _ => none

theorem Pair.tableName?_eq_some_iff {tag : Tag} :
    p.tableName? tag = some name ↔ tag = p.tag .table name := by
  rcases tag with key | key | ⟨schema, kind, key⟩
  · simp [tableName?, Pair.tag]
  · simp [tableName?, Pair.tag]
  · rcases kind <;> simp [tableName?, Pair.tag]

theorem createsTable_of_creation? (h : creation? p name = some x) :
    x.tag = p.tag .table name ∧ x.createsTable := by
  obtain ⟨t, -, hx⟩ := Option.bind_eq_some_iff.mp h
  split at hx
  · next hcreated =>
    obtain rfl := Option.some_inj.mp hx
    have hne : t.ddl p.target ≠ "" := by simpa using (Bool.and_eq_true_iff.mp hcreated).2
    exact ⟨rfl, Bool.and_eq_true_iff.mpr ⟨rfl, t.isPrefixOf_ddl hne⟩⟩
  · simp at hx

theorem mem_attaching (h : x ∈ attaching p ps parent name) :
    x.tag = p.tag .table name ∧ x.kind = .tableAttach := by
  unfold attaching at h
  split at h
  · obtain rfl := List.mem_singleton.mp h
    exact ⟨rfl, rfl⟩
  · simp at h

theorem tag_of_mem_block (hparts : ∀ x ∈ parts, IsPart (p.tag .table name) x)
    (h : x ∈ block p ps parent parts name) : x.tag = p.tag .table name := by
  unfold block at h
  split at h
  · next y hy =>
    simp only [List.mem_cons, List.mem_append] at h
    rcases h with rfl | h | h
    · exact (createsTable_of_creation? hy).1
    · exact (mem_attaching h).1
    · exact (hparts x h).tagged.1
  · simp at h

/-- The first piece of a block is the one that creates the table. -/
theorem filter_createsTable_block (hparts : ∀ x ∈ parts, IsPart (p.tag .table name) x) :
    (block p ps parent parts name).filter (·.createsTable) = (creation? p name).toList := by
  unfold block
  split
  · next x hx =>
    have hnone : (attaching p ps parent name ++ parts).filter (·.createsTable) = [] := by
      refine List.filter_eq_nil_iff.mpr fun y hy => ?_
      rcases List.mem_append.mp hy with hy | hy
      · simp [Piece.createsTable, (mem_attaching hy).2]
      · simp [(hparts y hy).notCreation]
    rw [List.filter_cons_of_pos (createsTable_of_creation? hx).2, hnone, hx]
    rfl
  · next hx => simp [hx]

/-! ## One block after another -/

/-- The walk went to every handled table on its own or from a table handled before it, to which the
table is attached, and wrote the block of each. -/
structure Walk.Layout (p : Pair) (ps : Partitions) (parent : String → Option String)
    (parts : String → List Piece) (walk : Walk) : Prop where
  root : ∀ name ∈ walk.handled, parent name = none → ps.isPartition p.schema.tables name = false
  child : ∀ name ∈ walk.handled, ∀ q, parent name = some q →
    [q, name].Sublist walk.handled ∧ ps.Attached q name
  part : ∀ name, ∀ x ∈ parts name, IsPart (p.tag .table name) x
  pieces : walk.pieces = walk.handled.flatMap fun name => block p ps (parent name) (parts name) name

theorem Walk.Layout.visit {parents : String → Option String} {partsOf : String → List Piece}
    (h : walk.Layout p ps parents partsOf) (hnew : name ∉ walk.handled)
    (henters : Enters p ps walk parent name)
    (hparts : ∀ x ∈ parts, IsPart (p.tag .table name) x) :
    (walk.visit name (block p ps parent parts name)).Layout p ps
      (Function.update parents name parent) (Function.update partsOf name parts) := by
  -- what is known about the tables handled before speaks of other names
  have hne {n : String} (hn : n ∈ walk.handled) : n ≠ name := fun he => hnew (he ▸ hn)
  refine ⟨fun n hn hroot => ?_, fun n hn q hq => ?_, fun n x hx => ?_, ?_⟩
  · rcases List.mem_append.mp hn with hn | hn
    · rw [Function.update_of_ne (hne hn)] at hroot
      exact h.root n hn hroot
    · obtain rfl := List.mem_singleton.mp hn
      rw [Function.update_self] at hroot
      subst hroot
      exact henters
  · rcases List.mem_append.mp hn with hn | hn
    · rw [Function.update_of_ne (hne hn)] at hq
      obtain ⟨hsub, hattached⟩ := h.child n hn q hq
      exact ⟨hsub.trans (List.sublist_append_left _ _), hattached⟩
    · obtain rfl := List.mem_singleton.mp hn
      rw [Function.update_self] at hq
      subst hq
      exact ⟨(List.singleton_sublist.mpr henters.1).append (List.Sublist.refl [n]), henters.2⟩
  · by_cases hself : n = name
    · subst hself
      rw [Function.update_self] at hx
      exact hparts x hx
    · rw [Function.update_of_ne hself] at hx
      exact h.part n x hx
  · rw [Walk.pieces_visit, Walk.handled_visit, List.flatMap_append, h.pieces]
    congr 1
    · refine List.flatMap_congr fun n hn => ?_
      rw [Function.update_of_ne (hne hn), Function.update_of_ne (hne hn)]
    · simp

theorem exists_layout (h : (walkTables new p).result = .ok walk) :
    ∃ parent parts, walk.Layout p (.inSchema new p.schema.name) parent parts := by
  refine walkTables_induct (I := fun w => ∃ parent parts, w.Layout p _ parent parts) ?_ h ?_
  · rintro w parent name t own ht hnew henters hown ⟨parents, partsOf, hlayout⟩
    obtain ⟨parts, hparts, rfl⟩ := tablePieces_eq_block ht hown
    exact ⟨_, _, hlayout.visit hnew henters hparts⟩
  · exact ⟨fun _ => none, fun _ => [], by simp, by simp, by simp, rfl⟩

theorem Walk.Layout.filter_createsTable {parents : String → Option String}
    {partsOf : String → List Piece} (h : walk.Layout p ps parents partsOf) :
    walk.pieces.filter (·.createsTable) = walk.handled.filterMap (creation? p) := by
  rw [h.pieces, List.filter_flatMap, List.filterMap_eq_flatMap_toList]
  exact List.flatMap_congr fun name _ => filter_createsTable_block (h.part name)

/-! ## In a whole script -/

/-- All pieces that are there because of the schema's tables are those that the walk through them
writes, in one row. -/
theorem exists_tableScript {pieces : List Piece} (hp : p ∈ pairs old new (Text.given target))
    (h : (Diff.pieces old new target).result = .ok pieces) :
    ∃ walk before after, (walkTables new p).result = .ok walk ∧
      pieces = before ++ walk.pieces ++ after ∧
      ∀ x ∈ before ++ after, p.tableName? x.tag = none := by
  obtain ⟨own, before, after, hown, rfl, hothers⟩ := exists_passScript .table hp h
  obtain ⟨walk, hwalk, hwritten⟩ := Logged.result_bind_eq_ok.mp hown
  obtain ⟨rfl⟩ : Except.ok (ε := Fault) walk.pieces = .ok own := hwritten
  refine ⟨walk, before, after, hwalk, rfl, fun x hx => ?_⟩
  exact Option.eq_none_iff_forall_ne_some.mpr fun name hname =>
    hothers x hx name (Pair.tableName?_eq_some_iff.mp hname)

end Diff
end SchemaScript
