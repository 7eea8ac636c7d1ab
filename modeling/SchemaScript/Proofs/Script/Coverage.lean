import SchemaScript.Proofs.Ddl.Incomplete
import SchemaScript.Proofs.Script.Addition
import SchemaScript.Proofs.Script.TablePieces
import SchemaScript.Proofs.Script.Totality

/-!
# What a script leaves out

A script has the statement of each object that it goes through, unless that statement is empty, and apart from
attachments it has nothing else (`mem_pieces_iff`). So what cannot be written for want of a name is left out
with all it owns, and the rest is there (`incomplete_left_out_iff`).
-/

namespace SchemaScript

/-- The piece puts a table or an index in its place below another one. -/
def Piece.isAttachment (x : Piece) : Bool :=
  x.kind == .tableAttach || x.kind == .indexAttach

namespace Diff

/-! ## Objects and their pieces -/

def Pair.piece (p : Pair) (tag : Tag) (kind : PieceKind) (name : String) (s : Subject) : Piece :=
  { tag, kind, name, schema := p.heading, text := s.ddl p.target }

/-- What is written outside the table's own statement, each with its piece. -/
inductive Owns (p : Pair) (tag : Tag) (t : Table) : Subject → Piece → Prop
  | index {key i} (kept : t.indexes.get? key = some i) (ordinary : i.isPrimary.isGiven = false) :
      Owns p tag t (.index i) (p.piece tag .index key (.index i))
  | constraint {key c} (kept : t.constraints.get? key = some c)
      (outside : t.isInline key c = false) :
      Owns p tag t (.constraint c) (p.piece tag .constraint key (.constraint c))
  | trigger {key g} (kept : t.triggers.get? key = some g) :
      Owns p tag t (.trigger g) (p.piece tag .trigger key (.trigger g))
  | rowSecurity : Owns p tag t (.rowSecurity t) (p.piece tag .table t.name.spelled (.rowSecurity t))
  | policy {key l} (kept : t.policies.get? key = some l) :
      Owns p tag t (.policy l) (p.piece tag .policy key (.policy l))

/-- The walk comes to the table, which is one to be created. -/
structure Visits (p : Pair) (new : Catalog) (name : String) (t : Table) : Prop where
  kept : p.schema.tables.get? name = some t
  reached : Reached p (.inSchema new p.schema.name) name
  created : isCreated p name t

/-- What is written because of a table: its own statement and, after that, what it owns. -/
inductive OfTable (p : Pair) (name : String) (t : Table) : Subject → Piece → Prop
  | self : OfTable p name t (.table t) (p.piece (p.tag .table name) .table name (.table t))
  | owned {s x} (written : t.ddl p.target ≠ "") (owned : Owns p (p.tag .table name) t s x) :
      OfTable p name t s x

/-- The objects of one kind that the script goes through in the schema, each with its piece. -/
inductive InSchema (p : Pair) (new : Catalog) : ObjectKind → Subject → Piece → Prop
  | type {key t} (kept : p.schema.types.get? key = some t) (added : p.isNew .type key) :
      InSchema p new .type (.type t) (p.piece (p.tag .type key)
        (if t.isDomain then .domain else .type) t.name.spelled (.type t))
  | sequence {key s} (kept : p.schema.sequences.get? key = some s) (added : p.isNew .sequence key)
      (free : s.isOwned = false) :
      InSchema p new .sequence (.sequence s)
        (p.piece (p.tag .sequence key) .sequence key (.sequence s))
  | table {name t s x} (visited : Visits p new name t) (part : OfTable p name t s x) :
      InSchema p new .table s x
  | view {key v} (kept : p.schema.views.get? key = some v) (added : p.isNew .view key) :
      InSchema p new .view (.view v) (p.piece (p.tag .view key)
        (if v.materialized.isGiven then .materializedView else .view) key (.view v))
  | function {key f} (kept : p.schema.functions.get? key = some f) (added : p.isNew .function key) :
      InSchema p new .function (.function f)
        (p.piece (p.tag .function key) .function f.identity (.function f))
  | aggregate {key a} (kept : p.schema.aggregates.get? key = some a)
      (added : p.isNew .aggregate key) :
      InSchema p new .aggregate (.aggregate a)
        (p.piece (p.tag .aggregate key) .aggregate a.identity (.aggregate a))
  | procedure {key r} (kept : p.schema.procedures.get? key = some r)
      (added : p.isNew .procedure key) :
      InSchema p new .procedure (.procedure r)
        (p.piece (p.tag .procedure key) .procedure r.identity (.procedure r))

def extensionPiece (key : String) (e : Extension) : Piece :=
  { tag := .extension key, kind := .extension, name := e.name.spelled,
    schema := Sql.headingSchema e.schema.given none, text := e.ddl }

def schemaPiece (target : Option String) (key : String) (s : Schema) : Piece :=
  { tag := .schema key, kind := .schema, name := key, schema := Sql.headingSchema none target,
    owner := s.owner.given, text := s.ddl }

/-- The objects that the script goes through, each with its piece. -/
inductive Covers (old new : Catalog) (target : Option String) : Subject → Piece → Prop
  | extension {key e} (kept : new.extensions.get? key = some e)
      (added : old.extensions.contains key = false) :
      Covers old new target (.extension e) (extensionPiece key e)
  | schema {key s} (kept : new.schemas.get? key = some s)
      (added : old.schemas.contains key = false) (other : some key ≠ Text.given target) :
      Covers old new target (.schema s) (schemaPiece (Text.given target) key s)
  | inSchema {p kind s x} (walked : p ∈ pairs old new (Text.given target))
      (held : InSchema p new kind s x) : Covers old new target s x

variable {p : Pair} {old new : Catalog} {target : Option String} {s : Subject} {x : Piece}
  {ps own : List Piece} {name : String} {t : Table} {walk : Walk}

theorem mem_row {α : Type} {items : List α} (piece : α → Piece) (checked : α → Except Fault Unit)
    (h : (collect items fun a => emit (piece a).tag (piece a).kind (piece a).name (piece a).schema
      (piece a).owner (checked a) (piece a).text).result = .ok ps) :
    x ∈ ps ↔ x.text ≠ "" ∧ ∃ a ∈ items, piece a = x := by
  obtain ⟨-, rfl⟩ := (collect_emit_eq_ok piece checked).mp h
  rw [List.mem_filter, List.mem_map, and_comm, bne_iff_ne]

/-! ## Tables -/

theorem mem_indexes {tag : Tag} {key : String} {i : Index}
    (h : (index p tag new key i).result = .ok ps) (hx : x.isAttachment = false) :
    x ∈ ps ↔ x.text ≠ "" ∧ x = p.piece tag .index key (.index i) := by
  obtain ⟨own, hown, h⟩ := Logged.result_bind_eq_ok.mp h
  obtain ⟨attached, hattached, h⟩ := Logged.result_bind_eq_ok.mp h
  obtain ⟨rfl⟩ := h
  have hattach : x ∉ attached := by
    intro hmem
    obtain ⟨a, -, place, hplace, hmem⟩ := (mem_collect hattached).mp hmem
    obtain ⟨-, rfl⟩ := (mem_emit hplace).mp hmem
    simp [Piece.isAttachment] at hx
  rw [List.mem_append, mem_emit hown, or_iff_left hattach]
  rfl

theorem mem_tableParts {tag : Tag} (h : (tableParts p tag new t).result = .ok ps)
    (hx : x.isAttachment = false) : x ∈ ps ↔ x.text ≠ "" ∧ ∃ s, Owns p tag t s x := by
  obtain ⟨indexes, hindexes, h⟩ := Logged.result_bind_eq_ok.mp h
  obtain ⟨constraints, hconstraints, h⟩ := Logged.result_bind_eq_ok.mp h
  obtain ⟨triggers, htriggers, h⟩ := Logged.result_bind_eq_ok.mp h
  obtain ⟨security, hsecurity, h⟩ := Logged.result_bind_eq_ok.mp h
  obtain ⟨policies, hpolicies, h⟩ := Logged.result_bind_eq_ok.mp h
  obtain ⟨rfl⟩ := h
  have hconstraint := mem_row (x := x)
    (fun entry : String × Constraint => p.piece tag .constraint entry.1 (.constraint entry.2))
    (fun entry => entry.2.check p.target) hconstraints
  have htrigger := mem_row (x := x)
    (fun entry : String × Trigger => p.piece tag .trigger entry.1 (.trigger entry.2))
    (fun entry => entry.2.check) htriggers
  have hpolicy := mem_row (x := x)
    (fun entry : String × Policy => p.piece tag .policy entry.1 (.policy entry.2))
    (fun entry => entry.2.check) hpolicies
  simp only [List.mem_append, hconstraint, htrigger, mem_emit hsecurity, hpolicy, List.mem_filter,
    Entries.mem_sorted_iff_get?, Bool.not_eq_true']
  constructor
  · rintro ((((hmem | ⟨htext, entry, ⟨hkept, houtside⟩, rfl⟩) | ⟨htext, entry, hkept, rfl⟩) |
      ⟨htext, rfl⟩) | ⟨htext, entry, hkept, rfl⟩)
    · obtain ⟨entry, hentry, own, hown, hmem⟩ := (mem_collect hindexes).mp hmem
      obtain ⟨htext, rfl⟩ := (mem_indexes hown hx).mp hmem
      rw [List.mem_filter, Entries.mem_sorted_iff_get?, Bool.not_eq_true'] at hentry
      exact ⟨htext, _, .index hentry.1 hentry.2⟩
    · exact ⟨htext, _, .constraint hkept houtside⟩
    · exact ⟨htext, _, .trigger hkept⟩
    · exact ⟨htext, _, .rowSecurity⟩
    · exact ⟨htext, _, .policy hkept⟩
  · rintro ⟨htext, s, howns⟩
    cases howns with
    | @index key i kept ordinary =>
      have hentry : (key, i) ∈ t.indexes.sorted.filter fun entry => !entry.2.isPrimary.isGiven :=
        List.mem_filter.mpr ⟨Entries.mem_sorted_iff_get?.mpr kept, by simp [ordinary]⟩
      obtain ⟨own, hown⟩ := ends_collect_iff.mp ⟨_, hindexes⟩ _ hentry
      exact .inl (.inl (.inl (.inl ((mem_collect hindexes).mpr
        ⟨_, hentry, own, hown, (mem_indexes hown hx).mpr ⟨htext, rfl⟩⟩))))
    | constraint kept outside =>
      exact .inl (.inl (.inl (.inr ⟨htext, (_, _), ⟨kept, outside⟩, rfl⟩)))
    | trigger kept => exact .inl (.inl (.inr ⟨htext, (_, _), kept, rfl⟩))
    | rowSecurity => exact .inl (.inr ⟨htext, rfl⟩)
    | policy kept => exact .inr ⟨htext, (_, _), kept, rfl⟩

theorem mem_tablePieces {places : Partitions} {parent : Option String}
    (h : (tablePieces p new places name t parent).result = .ok own) (hx : x.isAttachment = false) :
    x ∈ own ↔ x.text ≠ "" ∧ isCreated p name t ∧ ∃ s, OfTable p name t s x := by
  have howns : (∃ s, OfTable p name t s x) ↔
      x = p.piece (p.tag .table name) .table name (.table t) ∨
        t.ddl p.target ≠ "" ∧ ∃ s, Owns p (p.tag .table name) t s x := by
    constructor
    · rintro ⟨s, _ | ⟨written, owned⟩⟩
      · exact .inl rfl
      · exact .inr ⟨written, s, owned⟩
    · rintro (rfl | ⟨written, s, owned⟩)
      · exact ⟨_, .self⟩
      · exact ⟨s, .owned written owned⟩
  rw [howns]
  rcases tablePieces_cases h with ⟨hnone, rfl⟩ | ⟨parts, hcreated, hwritten, hparts, rfl⟩
  · simp only [List.not_mem_nil, false_iff]
    rintro ⟨htext, hcreated, rfl | ⟨hwritten, -⟩⟩
    · rw [hcreated, Bool.true_and, bne_eq_false_iff_eq] at hnone
      exact htext hnone
    · simp [hcreated, hwritten] at hnone
  · have hplace : x ∉ attaching p places parent name := fun hmem => by
      simp [Piece.isAttachment, (mem_attaching hmem).2] at hx
    simp only [List.mem_cons, List.mem_append, false_or, hplace, mem_tableParts hparts hx, hcreated,
      true_and]
    constructor
    · rintro (rfl | ⟨htext, howned⟩)
      · exact ⟨hwritten, .inl rfl⟩
      · exact ⟨htext, .inr ⟨hwritten, howned⟩⟩
    · rintro ⟨htext, hself | ⟨-, howned⟩⟩
      · exact .inl hself
      · exact .inr ⟨htext, howned⟩

/-- Whatever order the walk goes in, it writes what is there because of the tables it comes to. -/
theorem mem_walkTables (h : (walkTables new p).result = .ok walk) (hx : x.isAttachment = false) :
    x ∈ walk.pieces ↔ x.text ≠ "" ∧ ∃ s, InSchema p new .table s x := by
  have hwritten : x ∈ walk.pieces ↔ ∃ name ∈ walk.handled, ∃ t, p.schema.tables.get? name = some t ∧
      x.text ≠ "" ∧ isCreated p name t ∧ ∃ s, OfTable p name t s x := by
    refine walkTables_induct (I := fun w => x ∈ w.pieces ↔ ∃ name ∈ w.handled, ∃ t,
      p.schema.tables.get? name = some t ∧ x.text ≠ "" ∧ isCreated p name t ∧
        ∃ s, OfTable p name t s x) ?_ h (by simp)
    intro w parent name t own ht _ _ hown hw
    simp only [Walk.pieces_visit, Walk.handled_visit, List.mem_append, hw, mem_tablePieces hown hx,
      List.mem_singleton, or_and_right, exists_or, exists_eq_left, ht, Option.some.injEq,
      exists_eq_left']
  rw [hwritten]
  constructor
  · rintro ⟨name, hname, t, hkept, htext, hcreated, s, hpart⟩
    exact ⟨htext, s, .table ⟨hkept, (mem_handled_iff h).mp hname, hcreated⟩ hpart⟩
  · rintro ⟨htext, s, hheld⟩
    cases hheld with
    | table visited hpart => exact ⟨_, (mem_handled_iff h).mpr visited.reached, _, visited.kept, htext,
      visited.created, s, hpart⟩

theorem mem_tables (h : (tables new p).result = .ok ps) (hx : x.isAttachment = false) :
    x ∈ ps ↔ x.text ≠ "" ∧ ∃ s, InSchema p new .table s x := by
  obtain ⟨walk, hwalk, h⟩ := Logged.result_bind_eq_ok.mp h
  obtain ⟨-, -, h⟩ := Logged.result_bind_eq_ok.mp h
  obtain ⟨rfl⟩ := h
  exact mem_walkTables hwalk hx

/-! ## Other objects -/

theorem Pair.mem_added {α : Type} {entries : Schema → Entries α} {entry : String × α}
    (kind : ObjectKind) (h : ∀ s key, s.holds kind key = (entries s).contains key) :
    entry ∈ p.added entries ↔
      (entries p.schema).get? entry.1 = some entry.2 ∧ p.isNew kind entry.1 := by
  have hfresh : p.fresh.added entries = (entries p.schema).sorted :=
    List.filter_eq_self.mpr fun _ _ => rfl
  rw [p.added_eq kind h, hfresh, List.mem_filter, Entries.mem_sorted_iff_get?]

theorem mem_sortTypes {found sorted : List (String × UserType)}
    (h : (sortTypes found).result = .ok sorted) {entry : String × UserType} :
    entry ∈ sorted ↔ entry ∈ found := by
  refine ⟨mem_of_sortTypes h, fun hentry => ?_⟩
  unfold sortTypes at h
  dsimp only at h
  split at h
  · obtain rfl : _ = sorted := by simpa using h
    rw [List.mem_append, Order.mem_sort, Order.mem_sort, List.mem_filter, List.mem_filter]
    cases hdomain : entry.2.isDomain <;> simp [hentry]
  · simp at h

theorem mem_types (h : (types p).result = .ok ps) :
    x ∈ ps ↔ x.text ≠ "" ∧ ∃ s, InSchema p new .type s x := by
  obtain ⟨sorted, hsorted, h⟩ := Logged.result_bind_eq_ok.mp h
  have hadded (entry : String × UserType) : entry ∈ sorted ↔
      p.schema.types.get? entry.1 = some entry.2 ∧ p.isNew .type entry.1 :=
    (mem_sortTypes hsorted).trans (Pair.mem_added .type fun _ _ => rfl)
  rw [mem_row (fun entry : String × UserType => p.piece (p.tag .type entry.1)
    (if entry.2.isDomain then .domain else .type) entry.2.name.spelled (.type entry.2))
    (fun entry => entry.2.check) h]
  refine and_congr_right fun _ => ⟨?_, ?_⟩
  · rintro ⟨entry, hentry, rfl⟩
    obtain ⟨kept, added⟩ := (hadded entry).mp hentry
    exact ⟨_, .type kept added⟩
  · rintro ⟨s, hheld⟩
    cases hheld with
    | type kept added => exact ⟨(_, _), (hadded _).mpr ⟨kept, added⟩, rfl⟩

theorem mem_sequence {key : String} {q : Sequence} (h : (sequence p key q).result = .ok ps) :
    x ∈ ps ↔ x.text ≠ "" ∧ q.isOwned = false ∧
      x = p.piece (p.tag .sequence key) .sequence key (.sequence q) := by
  unfold sequence at h
  split at h
  · next howned =>
    obtain ⟨-, -, h⟩ := Logged.result_bind_eq_ok.mp h
    obtain ⟨rfl⟩ := h
    simp [howned]
  · next howned =>
    rw [mem_emit h]
    simp [howned, Pair.piece, Subject.ddl]

theorem mem_sequences (h : (sequences p).result = .ok ps) :
    x ∈ ps ↔ x.text ≠ "" ∧ ∃ s, InSchema p new .sequence s x := by
  rw [mem_collect h]
  constructor
  · rintro ⟨entry, hentry, own, hown, hx⟩
    obtain ⟨kept, added⟩ := (Pair.mem_added .sequence fun _ _ => rfl).mp hentry
    obtain ⟨htext, free, rfl⟩ := (mem_sequence hown).mp hx
    exact ⟨htext, _, .sequence kept added free⟩
  · rintro ⟨htext, s, hheld⟩
    cases hheld with
    | @sequence key q kept added free =>
      have hentry : (key, q) ∈ p.added (·.sequences) :=
        (Pair.mem_added .sequence fun _ _ => rfl).mpr ⟨kept, added⟩
      obtain ⟨own, hown⟩ := ends_collect_iff.mp ⟨_, h⟩ _ hentry
      exact ⟨_, hentry, own, hown, (mem_sequence hown).mpr ⟨htext, free, rfl⟩⟩

theorem mem_view (h : (view p name).result = .ok ps) :
    x ∈ ps ↔ x.text ≠ "" ∧ ∃ v, p.schema.views.get? name = some v ∧
      x = p.piece (p.tag .view name) (if v.materialized.isGiven then .materializedView else .view)
        name (.view v) := by
  unfold view at h
  split at h
  · next hnone =>
    obtain rfl : ps = [] := by simpa [eq_comm] using h
    simp [hnone]
  · next v hv =>
    rw [mem_emit h]
    simp [hv, Pair.piece, Subject.ddl]

theorem mem_views (h : (views p).result = .ok ps) :
    x ∈ ps ↔ x.text ≠ "" ∧ ∃ s, InSchema p new .view s x := by
  obtain ⟨names, hnames, h⟩ := Logged.result_bind_eq_ok.mp h
  have hadded (name : String) : (p.old.all fun old => !old.views.contains name) ↔
      p.isNew .view name := Iff.rfl
  rw [mem_collect h]
  simp only [List.mem_filter, hadded]
  constructor
  · rintro ⟨name, ⟨-, added⟩, own, hown, hx⟩
    obtain ⟨htext, v, kept, rfl⟩ := (mem_view hown).mp hx
    exact ⟨htext, _, .view kept added⟩
  · rintro ⟨htext, s, hheld⟩
    cases hheld with
    | @view name v kept added =>
      have hname := (Schema.mem_sortViews hnames).mpr (Entries.contains_of_get? kept)
      obtain ⟨own, hown⟩ := ends_collect_iff.mp ⟨_, h⟩ name (List.mem_filter.mpr ⟨hname, added⟩)
      exact ⟨name, ⟨hname, added⟩, own, hown, (mem_view hown).mpr ⟨htext, v, kept, rfl⟩⟩

/-- A row of statements for what is added. -/
theorem mem_addedRow {α : Type} {entries : Schema → Entries α} (kind : ObjectKind)
    (hholds : ∀ s key, s.holds kind key = (entries s).contains key) (piece : String × α → Piece)
    (checked : String × α → Except Fault Unit)
    (h : (collect (p.added entries) fun a => emit (piece a).tag (piece a).kind (piece a).name
      (piece a).schema (piece a).owner (checked a) (piece a).text).result = .ok ps) :
    x ∈ ps ↔ x.text ≠ "" ∧ ∃ entry, (entries p.schema).get? entry.1 = some entry.2 ∧
      p.isNew kind entry.1 ∧ piece entry = x := by
  simp only [mem_row piece checked h, Pair.mem_added kind hholds, and_assoc]

theorem mem_functions (h : (functions p).result = .ok ps) :
    x ∈ ps ↔ x.text ≠ "" ∧ ∃ s, InSchema p new .function s x := by
  rw [mem_addedRow .function (fun _ _ => rfl) (fun entry => p.piece (p.tag .function entry.1) .function
    entry.2.identity (.function entry.2)) (fun entry => entry.2.check p.target) h]
  refine and_congr_right fun _ => ⟨?_, ?_⟩
  · rintro ⟨entry, kept, added, rfl⟩
    exact ⟨_, .function kept added⟩
  · rintro ⟨s, hheld⟩
    cases hheld with
    | function kept added => exact ⟨(_, _), kept, added, rfl⟩

theorem mem_aggregates (h : (aggregates p).result = .ok ps) :
    x ∈ ps ↔ x.text ≠ "" ∧ ∃ s, InSchema p new .aggregate s x := by
  rw [mem_addedRow .aggregate (fun _ _ => rfl) (fun entry => p.piece (p.tag .aggregate entry.1) .aggregate
    entry.2.identity (.aggregate entry.2)) (fun entry => entry.2.check p.target) h]
  refine and_congr_right fun _ => ⟨?_, ?_⟩
  · rintro ⟨entry, kept, added, rfl⟩
    exact ⟨_, .aggregate kept added⟩
  · rintro ⟨s, hheld⟩
    cases hheld with
    | aggregate kept added => exact ⟨(_, _), kept, added, rfl⟩

theorem mem_procedures (h : (procedures p).result = .ok ps) :
    x ∈ ps ↔ x.text ≠ "" ∧ ∃ s, InSchema p new .procedure s x := by
  rw [mem_addedRow .procedure (fun _ _ => rfl) (fun entry => p.piece (p.tag .procedure entry.1) .procedure
    entry.2.identity (.procedure entry.2)) (fun entry => entry.2.check) h]
  refine and_congr_right fun _ => ⟨?_, ?_⟩
  · rintro ⟨entry, kept, added, rfl⟩
    exact ⟨_, .procedure kept added⟩
  · rintro ⟨s, hheld⟩
    cases hheld with
    | procedure kept added => exact ⟨(_, _), kept, added, rfl⟩

theorem mem_extensions (h : (extensions old new).result = .ok ps) :
    x ∈ ps ↔ x.text ≠ "" ∧ ∃ key e, new.extensions.get? key = some e ∧
      old.extensions.contains key = false ∧ extensionPiece key e = x := by
  obtain ⟨-, -, h⟩ := Logged.result_bind_eq_ok.mp h
  obtain ⟨-, -, h⟩ := Logged.result_bind_eq_ok.mp h
  obtain ⟨rfl⟩ := h
  simp only [List.mem_filterMap, List.mem_filter, Entries.mem_sorted_iff_get?, Bool.not_eq_true']
  constructor
  · rintro ⟨⟨key, e⟩, ⟨kept, added⟩, hx⟩
    by_cases htext : e.ddl = ""
    · simp [htext] at hx
    · obtain rfl : extensionPiece key e = x := by simpa [htext, extensionPiece] using hx
      exact ⟨htext, key, e, kept, added, rfl⟩
  · rintro ⟨htext, key, e, kept, added, rfl⟩
    have htext : e.ddl ≠ "" := htext
    exact ⟨(key, e), ⟨kept, added⟩, by simp [htext, extensionPiece]⟩

theorem mem_schemas (h : (schemas old new target).result = .ok ps) :
    x ∈ ps ↔ x.text ≠ "" ∧ ∃ key s, new.schemas.get? key = some s ∧
      old.schemas.contains key = false ∧ some key ≠ target ∧ schemaPiece target key s = x := by
  rw [mem_row (fun entry : String × Schema => schemaPiece target entry.1 entry.2)
    (fun entry => entry.2.check) h]
  simp only [List.mem_filter, Entries.mem_sorted_iff_get?, Bool.and_eq_true, Bool.not_eq_true',
    bne_iff_ne, and_assoc, Prod.exists]

/-! ## The whole script -/

theorem mem_walked {pass : Pair → Logged (List Piece)} {kind : ObjectKind}
    (hpass : ∀ p own, (pass p).result = .ok own →
      (x ∈ own ↔ x.text ≠ "" ∧ ∃ s, InSchema p new kind s x))
    (h : (collect (pairs old new target) pass).result = .ok ps) :
    x ∈ ps ↔ x.text ≠ "" ∧ ∃ p ∈ pairs old new target, ∃ s, InSchema p new kind s x := by
  rw [mem_collect h]
  constructor
  · rintro ⟨p, hp, own, hown, hx⟩
    obtain ⟨htext, s, hheld⟩ := (hpass p own hown).mp hx
    exact ⟨htext, p, hp, s, hheld⟩
  · rintro ⟨htext, p, hp, hheld⟩
    obtain ⟨own, hown⟩ := ends_collect_iff.mp ⟨_, h⟩ p hp
    exact ⟨p, hp, own, hown, (hpass p own hown).mpr ⟨htext, hheld⟩⟩

/-- A script has exactly the pieces with a text of what it goes through, attachments aside. -/
theorem mem_pieces_iff (h : (pieces old new target).result = .ok ps) (hx : x.isAttachment = false) :
    x ∈ ps ↔ x.text ≠ "" ∧ ∃ s, Covers old new target s x := by
  obtain ⟨ofExtensions, hextensions, h⟩ := Logged.result_bind_eq_ok.mp h
  obtain ⟨ofSchemas, hschemas, h⟩ := Logged.result_bind_eq_ok.mp h
  obtain ⟨ofTypes, htypes, h⟩ := Logged.result_bind_eq_ok.mp h
  obtain ⟨ofSequences, hsequences, h⟩ := Logged.result_bind_eq_ok.mp h
  obtain ⟨ofTables, htables, h⟩ := Logged.result_bind_eq_ok.mp h
  obtain ⟨ofViews, hviews, h⟩ := Logged.result_bind_eq_ok.mp h
  obtain ⟨ofFunctions, hfunctions, h⟩ := Logged.result_bind_eq_ok.mp h
  obtain ⟨ofAggregates, haggregates, h⟩ := Logged.result_bind_eq_ok.mp h
  obtain ⟨ofProcedures, hprocedures, h⟩ := Logged.result_bind_eq_ok.mp h
  obtain ⟨rfl⟩ := h
  simp only [List.mem_append, mem_extensions hextensions, mem_schemas hschemas,
    mem_walked (fun _ _ => mem_types) htypes, mem_walked (fun _ _ => mem_sequences) hsequences,
    mem_walked (fun _ _ h => mem_tables h hx) htables, mem_walked (fun _ _ => mem_views) hviews,
    mem_walked (fun _ _ => mem_functions) hfunctions,
    mem_walked (fun _ _ => mem_aggregates) haggregates,
    mem_walked (fun _ _ => mem_procedures) hprocedures, ← and_or_left]
  refine and_congr_right fun _ => ⟨?_, ?_⟩
  · rintro ((((((((⟨key, e, kept, added, rfl⟩ | ⟨key, s, kept, added, other, rfl⟩) |
      ⟨p, hp, s, hheld⟩) | ⟨p, hp, s, hheld⟩) | ⟨p, hp, s, hheld⟩) | ⟨p, hp, s, hheld⟩) |
      ⟨p, hp, s, hheld⟩) | ⟨p, hp, s, hheld⟩) | ⟨p, hp, s, hheld⟩)
    · exact ⟨_, .extension kept added⟩
    · exact ⟨_, .schema kept added other⟩
    all_goals exact ⟨s, .inSchema hp hheld⟩
  · rintro ⟨s, hcovers⟩
    cases hcovers with
    | extension kept added =>
      exact .inl (.inl (.inl (.inl (.inl (.inl (.inl (.inl ⟨_, _, kept, added, rfl⟩)))))))
    | schema kept added other =>
      exact .inl (.inl (.inl (.inl (.inl (.inl (.inl (.inr ⟨_, _, kept, added, other, rfl⟩)))))))
    | @inSchema p kind s x hp hheld =>
      cases kind with
      | type => exact .inl (.inl (.inl (.inl (.inl (.inl (.inr ⟨p, hp, s, hheld⟩))))))
      | sequence => exact .inl (.inl (.inl (.inl (.inl (.inr ⟨p, hp, s, hheld⟩)))))
      | table => exact .inl (.inl (.inl (.inl (.inr ⟨p, hp, s, hheld⟩))))
      | view => exact .inl (.inl (.inl (.inr ⟨p, hp, s, hheld⟩)))
      | function => exact .inl (.inl (.inr ⟨p, hp, s, hheld⟩))
      | aggregate => exact .inl (.inr ⟨p, hp, s, hheld⟩)
      | procedure => exact .inr ⟨p, hp, s, hheld⟩

theorem Owns.text_eq {tag : Tag} (h : Owns p tag t s x) :
    x.text = s.ddl p.target ∧ x.isAttachment = false := by
  cases h <;> exact ⟨rfl, rfl⟩

theorem InSchema.text_eq {kind : ObjectKind} (h : InSchema p new kind s x) :
    x.text = s.ddl p.target ∧ x.isAttachment = false := by
  cases h with
  | table _ part =>
    cases part with
    | self => exact ⟨rfl, rfl⟩
    | owned _ owned => exact owned.text_eq
  | @type key t _ _ => exact ⟨rfl, by cases t.isDomain <;> rfl⟩
  | @view key v _ _ => exact ⟨rfl, by cases v.materialized.isGiven <;> rfl⟩
  | sequence | function | aggregate | procedure => exact ⟨rfl, rfl⟩

theorem InSchema.exists_tag (h : InSchema p new kind s x) : ∃ key, x.tag = p.tag kind key := by
  cases h with
  | @table name t _ _ visited part =>
    refine ⟨name, ?_⟩
    cases part with
    | self => rfl
    | owned written owned => cases owned <;> rfl
  | @type key => exact ⟨key, rfl⟩
  | @sequence key => exact ⟨key, rfl⟩
  | @view key => exact ⟨key, rfl⟩
  | @function key => exact ⟨key, rfl⟩
  | @aggregate key => exact ⟨key, rfl⟩
  | @procedure key => exact ⟨key, rfl⟩

theorem Pair.eq_of_key {p' : Pair} (h : p ∈ pairs old new target) (h' : p' ∈ pairs old new target)
    (hkey : p'.key = p.key) : p' = p := by
  obtain ⟨hschema, hold, htarget⟩ := Pair.get?_of_mem_pairs h
  obtain ⟨hschema', hold', htarget'⟩ := Pair.get?_of_mem_pairs h'
  rw [hkey, hschema] at hschema'
  rw [hkey, ← hold] at hold'
  cases p
  cases p'
  simp_all

/-- What is written of an object is its statement. -/
theorem Covers.text_eq (h : Covers old new target s x) :
    x.text = s.ddl (Text.given target) ∧ x.isAttachment = false := by
  cases h with
  | extension => exact ⟨rfl, rfl⟩
  | schema => exact ⟨rfl, rfl⟩
  | inSchema hp hheld => exact (Pair.get?_of_mem_pairs hp).2.2 ▸ hheld.text_eq

/-- Nothing in a script is there because of a table that is not written. -/
theorem tag_ne_of_empty (h : (pieces old new target).result = .ok ps)
    (hp : p ∈ pairs old new (Text.given target)) (ht : p.schema.tables.get? name = some t)
    (hempty : t.ddl p.target = "") (hx : x ∈ ps) : x.tag ≠ p.tag .table name := by
  intro htag
  obtain ⟨walk, before, after, hwalk, rfl, hothers⟩ := exists_tableScript hp h
  obtain ⟨parents, parts, hlayout⟩ := exists_layout hwalk
  have hname : p.tableName? x.tag = some name := Pair.tableName?_eq_some_iff.mpr htag
  have hmem : x ∈ walk.pieces := by
    by_contra hnot
    have hother : x ∈ before ++ after := by
      simpa [hnot] using hx
    simp [hothers x hother] at hname
  rw [hlayout.pieces, List.mem_flatMap] at hmem
  obtain ⟨n, -, hblock⟩ := hmem
  have hself := tag_of_mem_block (hlayout.part n) hblock
  obtain rfl : n = name := Option.some.inj
    ((Pair.tableName?_eq_some_iff.mpr hself).symm.trans hname)
  simp [block, creation?, ht, hempty] at hblock

/-- The script holds what can be written, and nothing because of a table that cannot. -/
structure HoldsStatements (old new : Catalog) (target : Option String) (ps : List Piece) : Prop where
  sound : ∀ x ∈ ps, x.isAttachment = false → ∃ s, Covers old new target s x
  complete : ∀ s x, Covers old new target s x → (x ∈ ps ↔ s.ddl (Text.given target) ≠ "")
  lacking : ∀ s x, Covers old new target s x → s.lacksName → (x ∈ ps ↔ s.isUnguarded)
  owned : ∀ p ∈ pairs old new (Text.given target), ∀ name t, p.schema.tables.get? name = some t →
    t.ddl p.target = "" → ∀ x ∈ ps, x.tag ≠ p.tag .table name

theorem holdsStatements (h : (pieces old new target).result = .ok ps) :
    HoldsStatements old new target ps := by
  have hmem (s : Subject) (x : Piece) (hcovers : Covers old new target s x) :
      x ∈ ps ↔ s.ddl (Text.given target) ≠ "" := by
    obtain ⟨htext, hattachment⟩ := hcovers.text_eq
    rw [mem_pieces_iff h hattachment, ← htext, and_iff_left ⟨s, hcovers⟩]
  refine ⟨fun x hx hattachment => ((mem_pieces_iff h hattachment).mp hx).2, hmem,
    fun s x hcovers hlacks => ?_, fun p hp name t ht hempty x hx => tag_ne_of_empty h hp ht hempty hx⟩
  rw [hmem s x hcovers, ne_eq, Subject.ddl_eq_empty_iff hlacks, Bool.not_eq_false]

/-- A well-typed object without a name that its statement needs renders as the empty text and is left out,
unless its statement is unguarded; and a script is written unless types cannot be put in order. -/
theorem incomplete_left_out_iff (hnew : new.isTyped) (old : Catalog) (target : Option String) :
    (∀ s : Subject, s.isTyped → s.lacksName → s.check target = .ok () ∧
      (s.ddl target = "" ↔ s.isUnguarded = false) ∧
      (s.isUnguarded → (∃ f ∈ s.mentions, f.stored = .null) → Ddl.Shows "None" (s.ddl target))) ∧
    ((pieces old new target).Ends ↔
      ∀ p ∈ pairs old new (Text.given target), p.typesOrdered) ∧
    ∀ ps, (pieces old new target).result = .ok ps → HoldsStatements old new target ps :=
  ⟨fun _ htyped hlacks => ⟨Subject.check_of_isTyped htyped, Subject.ddl_eq_empty_iff hlacks,
    Subject.shows_none⟩, pieces_ends_iff hnew, fun _ => holdsStatements⟩

def unnamedMember : UserType where
  schema := "bazaar"
  name := "part"
  kind := .composite
  members := [{ name := .absent, dataType := "int4", position := (1 : Int) }]

def unnamedTable : Table where
  schema := "bazaar"
  name := ""
  rowSecurity := true
  triggers := .ofPairs [("watch",
    { schema := "bazaar", table := "", name := "watch", events := [.insert], function := "watch" })]

def bazaar : Schema where
  name := "bazaar"
  types := .ofPairs [("part", unnamedMember)]
  tables := .ofPairs [("", unnamedTable),
    ("orders", { schema := "bazaar", name := "orders",
                 columns := [{ name := "id", position := (1 : Int), dataType := "int4" }] })]
  views := .ofPairs [("recent", { schema := "bazaar", name := "recent", definition := .absent })]

def bazaarPair : Pair where
  key := "bazaar"
  schema := bazaar
  old := none
  target := some "bazaar"

def bazaarScript : List Piece :=
  [{ tag := bazaarPair.tag .type "part", kind := .type, name := "part", schema := "-",
     text := "CREATE TYPE part AS (\n    None integer\n);" },
   { tag := bazaarPair.tag .table "orders", kind := .table, name := "orders", schema := "-",
     text := "CREATE TABLE orders (\n    id integer\n);" }]

/-- The table without a name and the view without a query are left out; the type is written with `None`
in it. -/
theorem bazaar_lacks_names :
    (pieces {} { schemas := .ofPairs [("bazaar", bazaar)] } (some "bazaar")).result = .ok bazaarScript ∧
    HoldsStatements {} { schemas := .ofPairs [("bazaar", bazaar)] } (some "bazaar") bazaarScript ∧
    (Subject.type unnamedMember).ddl (some "bazaar") ≠ "" := by
  have hscript : (pieces {} { schemas := .ofPairs [("bazaar", bazaar)] } (some "bazaar")).result =
      .ok bazaarScript := by decide +kernel
  obtain ⟨hlacking, -, hholds⟩ := @incomplete_left_out_iff
    { schemas := .ofPairs [("bazaar", bazaar)] } (by decide +kernel) {} (some "bazaar")
  obtain ⟨-, hempty, -⟩ := hlacking (.type unnamedMember) (by decide) (by decide)
  exact ⟨hscript, hholds bazaarScript hscript, fun h => absurd (hempty.mp h) (by decide)⟩

end Diff
end SchemaScript
