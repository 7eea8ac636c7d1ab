import SchemaScript.Proofs.Ddl.Checks
import SchemaScript.Proofs.Order.Sorting
import SchemaScript.Proofs.Script.Grounding
import SchemaScript.Proofs.Script.Heading

/-!
# What a catalog adds is a part of its dump

The script from an older catalog to a newer one consists of the pieces of the newer one's dump whose
objects the older one does not keep, in their order. Pass by pass: what is left out
before things are put in order is what would have been left out afterwards.
-/

namespace SchemaScript

/-- The object because of which the piece is written is not in the catalog. -/
def Catalog.lacks (catalog : Catalog) (x : Piece) : Bool :=
  !catalog.holds x.tag

namespace Diff

variable {p : Pair} {old new : Catalog} {ps : List Piece}

/-- The schema as if there were no older state. -/
def Pair.fresh (p : Pair) : Pair :=
  { p with old := none }

/-- The older state does not keep an object of the kind under the name. -/
def Pair.isNew (p : Pair) (kind : ObjectKind) (key : String) : Bool :=
  p.old.all fun s => !s.holds kind key

theorem Pair.added_eq {α : Type} {entries : Schema → Entries α} (p : Pair) (kind : ObjectKind)
    (h : ∀ s key, s.holds kind key = (entries s).contains key) :
    p.added entries = (p.fresh.added entries).filter fun entry => p.isNew kind entry.1 := by
  have hfresh : p.fresh.added entries = (entries p.schema).sorted :=
    List.filter_eq_self.mpr fun _ _ => rfl
  rw [hfresh, Pair.added]
  congr 1
  funext entry
  rcases hold : p.old with _ | s <;> simp [isNew, hold, h]

section

variable (hp : p.old = old.schemas.get? p.key)

include hp

theorem lacks_eq_isNew {kind : ObjectKind} {key : String} {x : Piece} (hx : x.tag = p.tag kind key) :
    old.lacks x = p.isNew kind key := by
  rw [Catalog.lacks, hx, Pair.tag, Catalog.holds, Pair.isNew, hp]
  rcases old.schemas.get? p.key with _ | s <;> rfl

/-- Leaving out the known objects of one kind beforehand leaves out their pieces. -/
theorem collect_lacking {α : Type} {kind : ObjectKind} {items : List (String × α)}
    {own : String × α → Logged (List Piece)} (h : (collect items own).result = .ok ps)
    (htag : ∀ entry, Yields (Tagged (p.tag kind entry.1)) (own entry)) :
    (collect (items.filter fun entry => p.isNew kind entry.1) own).result =
      .ok (ps.filter old.lacks) :=
  collect_filter h fun entry _ _ hown x hx =>
    lacks_eq_isNew hp (htag entry _ hown x hx).1

/-! ## Passes of one schema -/

omit hp in
theorem isSortable_sublist {names fewer : List (Field String)} (hsub : fewer.Sublist names)
    (h : isSortable names) : isSortable fewer := by
  simp only [isSortable, Bool.or_eq_true, List.all_eq_true, beq_iff_eq] at h ⊢
  rcases h with h | h
  · exact .inl (Json.areOrdered_sublist (hsub.map _) h)
  · -- all are the first one, so whatever stays first is that one as well
    rcases fewer with _ | ⟨first, rest⟩
    · simp
    · refine .inr fun name hname => ?_
      rw [h name (hsub.mem hname), ← h first (hsub.mem (by simp)), List.head?_cons]

omit hp in
theorem sortTypes_filter (keep : String × UserType → Bool) {types sorted : List (String × UserType)}
    (h : (sortTypes types).result = .ok sorted) :
    (sortTypes (types.filter keep)).result = .ok (sorted.filter keep) := by
  have hcomm (part : String × UserType → Bool) :
      (types.filter keep).filter part = (types.filter part).filter keep := by
    simp only [List.filter_filter, Bool.and_comm]
  have hfewer (l : List (String × UserType)) (hl : isSortable (l.map (·.2.name))) :
      isSortable ((l.filter keep).map (·.2.name)) :=
    isSortable_sublist (List.filter_sublist.map _) hl
  unfold sortTypes at h ⊢
  dsimp only at h ⊢
  rw [hcomm, hcomm]
  split at h
  · next hsortable =>
    obtain ⟨hplain, hdomains⟩ := Bool.and_eq_true_iff.mp hsortable
    obtain rfl : _ = sorted := by simpa using h
    rw [if_pos (Bool.and_eq_true_iff.mpr ⟨hfewer _ hplain, hfewer _ hdomains⟩)]
    have htrans := fun a b c : String × UserType =>
      Json.precedes_trans (a := a.2.name.stored) (b := b.2.name.stored) (c := c.2.name.stored)
    have htotal := fun a b : String × UserType =>
      Json.precedes_total a.2.name.stored b.2.name.stored
    rw [Logged.result_pure, List.filter_append, Order.filter_sort htrans htotal,
      Order.filter_sort htrans htotal]
  · simp at h

theorem types_lacking (h : (types p.fresh).result = .ok ps) :
    (types p).result = .ok (ps.filter old.lacks) := by
  obtain ⟨sorted, hsorted, h⟩ := Logged.result_bind_eq_ok.mp h
  have hfewer := sortTypes_filter (fun entry => p.isNew .type entry.1) hsorted
  rw [types, p.added_eq .type fun _ _ => rfl]
  refine Logged.result_bind_eq_ok.mpr ⟨_, hfewer, ?_⟩
  exact collect_lacking hp h fun entry =>
    yields_tagged (by simp [ObjectKind.pieceKinds]) (entry.2.isScript_ddl p.target)

theorem sequences_lacking (h : (sequences p.fresh).result = .ok ps) :
    (sequences p).result = .ok (ps.filter old.lacks) := by
  rw [sequences, p.added_eq .sequence fun _ _ => rfl]
  exact collect_lacking hp h fun entry => yields_sequence p entry.1 entry.2

theorem views_lacking (h : (views p.fresh).result = .ok ps) :
    (views p).result = .ok (ps.filter old.lacks) := by
  obtain ⟨sorted, hsorted, h⟩ := Logged.result_bind_eq_ok.mp h
  refine Logged.result_bind_eq_ok.mpr ⟨sorted, hsorted, ?_⟩
  have hall : sorted.filter (fun name => p.fresh.old.all fun old => !old.views.contains name) =
      sorted := List.filter_eq_self.mpr fun _ _ => rfl
  rw [hall] at h
  exact collect_filter h fun name _ _ hown x hx =>
    lacks_eq_isNew hp (yields_view p name _ hown x hx).1

theorem functions_lacking (h : (functions p.fresh).result = .ok ps) :
    (functions p).result = .ok (ps.filter old.lacks) := by
  rw [functions, p.added_eq .function fun _ _ => rfl]
  exact collect_lacking hp h fun entry =>
    yields_tagged (by simp [ObjectKind.pieceKinds]) (entry.2.isScript_ddl p.target)

theorem aggregates_lacking (h : (aggregates p.fresh).result = .ok ps) :
    (aggregates p).result = .ok (ps.filter old.lacks) := by
  rw [aggregates, p.added_eq .aggregate fun _ _ => rfl]
  exact collect_lacking hp h fun entry =>
    yields_tagged (by simp [ObjectKind.pieceKinds]) (entry.2.isScript_ddl p.target)

theorem procedures_lacking (h : (procedures p.fresh).result = .ok ps) :
    (procedures p).result = .ok (ps.filter old.lacks) := by
  rw [procedures, p.added_eq .procedure fun _ _ => rfl]
  exact collect_lacking hp h fun entry =>
    yields_tagged (by simp [ObjectKind.pieceKinds]) (entry.2.isScript_ddl p.target)

/-! ## Tables -/

/-- The walk with only the pieces of objects that are not known. -/
def Walk.lacking (old : Catalog) (walk : Walk) : Walk :=
  { walk with pieces := walk.pieces.filter old.lacks }

theorem tablePieces_lacking {ps : Partitions} {name : String} {t : Table} {parent : Option String}
    {own : List Piece} (h : (tablePieces p.fresh new ps name t parent).result = .ok own) :
    (tablePieces p new ps name t parent).result = .ok (own.filter old.lacks) := by
  have htags (x : Piece) (hx : x ∈ own) : old.lacks x = p.isNew .table name :=
    lacks_eq_isNew hp (yields_tablePieces (p := p.fresh) name t parent own h x hx).1
  have hcreated : isCreated p name t = (isCreated p.fresh name t && p.isNew .table name) := by
    simp only [isCreated, Pair.fresh, Option.all_none, Bool.and_true]
    rfl
  by_cases hnew : p.isNew .table name
  · -- the older state plays no other part in the table's pieces
    have hsame : tablePieces p new ps name t parent = tablePieces p.fresh new ps name t parent := by
      unfold tablePieces
      rw [hcreated, hnew, Bool.and_true]
      rfl
    rw [hsame, h, List.filter_eq_self.mpr fun x hx => (htags x hx).trans hnew]
  · have hnone : own.filter old.lacks = [] := List.filter_eq_nil_iff.mpr fun x hx => by
      rwa [htags x hx]
    rw [tablePieces_of_kept (by simp [hcreated, hnew]), hnone]
    rfl

omit hp in
theorem foldlM_lacking {step fewer : Walk → String → Logged Walk} {names : List String}
    {walk walk' : Walk} (h : (names.foldlM step walk).result = .ok walk')
    (hstep : ∀ name w w', (step w name).result = .ok w' →
      (fewer (w.lacking old) name).result = .ok (w'.lacking old)) :
    (names.foldlM fewer (walk.lacking old)).result = .ok (walk'.lacking old) := by
  induction names generalizing walk with
  | nil =>
    obtain rfl : walk = walk' := by simpa using h
    simp
  | cons name names ih =>
    rw [List.foldlM_cons] at h ⊢
    obtain ⟨next, hnext, h⟩ := Logged.result_bind_eq_ok.mp h
    exact Logged.result_bind_eq_ok.mpr ⟨_, hstep name walk next hnext, ih h⟩

theorem tableTree_lacking {ps : Partitions} {depth : Nat} {parent : Option String} {name : String}
    {walk walk' : Walk} (h : (tableTree p.fresh new ps depth parent walk name).result = .ok walk') :
    (tableTree p new ps depth parent (walk.lacking old) name).result = .ok (walk'.lacking old) := by
  induction depth generalizing parent walk walk' name with
  | zero =>
    obtain rfl : walk = walk' := by simpa [tableTree] using h
    rfl
  | succ depth ih =>
    rcases tableTree_cases h with ⟨hdone, hwalk⟩ | ⟨t, own, names, ht, hnew, hown, hnames, h⟩
    · subst hwalk
      have hsame : tableTree p new ps (depth + 1) parent (walk'.lacking old) name =
          pure (walk'.lacking old) := tableTree_of_done hdone
      rw [hsame]
      rfl
    · have hvisited : name ∉ (walk.lacking old).handled := hnew
      rw [tableTree_of_new (p := p) ht hvisited]
      refine Logged.result_bind_eq_ok.mpr ⟨_, tablePieces_lacking hp hown, ?_⟩
      refine Logged.result_bind_eq_ok.mpr ⟨names, hnames, ?_⟩
      have hvisit : (walk.lacking old).visit name (own.filter old.lacks) =
          (walk.visit name own).lacking old := by
        simp [Walk.visit, Walk.lacking]
      rw [hvisit]
      exact foldlM_lacking h fun child w w' hw => ih hw

theorem tables_lacking (h : (tables new p.fresh).result = .ok ps) :
    (tables new p).result = .ok (ps.filter old.lacks) := by
  obtain ⟨walk, hwalk, h⟩ := Logged.result_bind_eq_ok.mp h
  obtain ⟨rfl⟩ : Except.ok (ε := Fault) walk.pieces = .ok ps := h
  rw [result_walkTables] at hwalk
  have hfewer : (walkTables new p).result = .ok (walk.lacking old) := by
    rw [result_walkTables]
    exact foldlM_lacking hwalk fun name w w' hw => tableTree_lacking hp hw
  refine Logged.result_bind_eq_ok.mpr ⟨_, hfewer, ?_⟩
  rfl

end

/-! ## The whole script -/

variable {target : Option String}

/-- One pass over all schemas. -/
theorem walked_lacking {pass : Pair → Logged (List Piece)}
    (hpass : ∀ p ps, p.old = old.schemas.get? p.key → (pass p.fresh).result = .ok ps →
      (pass p).result = .ok (ps.filter old.lacks))
    (h : (collect (pairs {} new target) pass).result = .ok ps) :
    (collect (pairs old new target) pass).result = .ok (ps.filter old.lacks) := by
  have hpairs : pairs {} new target = (pairs old new target).map Pair.fresh := by
    rw [pairs, pairs, List.map_map]
    rfl
  rw [hpairs, collect_map] at h
  exact collect_keep h fun p hp own hown => hpass p own (Pair.get?_of_mem_pairs hp).2.1 hown

theorem schemas_lacking (h : (schemas {} new target).result = .ok ps) :
    (schemas old new target).result = .ok (ps.filter old.lacks) := by
  have hall : (new.schemas.sorted.filter fun entry =>
      !(({} : Catalog).schemas.contains entry.1) && some entry.1 != target) =
      new.schemas.sorted.filter fun entry => some entry.1 != target := rfl
  rw [schemas, hall] at h
  rw [schemas, ← List.filter_filter]
  refine collect_filter h fun entry _ own hown x hx => ?_
  have htag : x.tag = .schema entry.1 :=
    (yields_emit (P := fun x => x.tag = .schema entry.1) fun _ => rfl) own hown x hx
  rw [Catalog.lacks, htag, Catalog.holds]

theorem extensions_lacking (h : (extensions {} new).result = .ok ps) :
    (extensions old new).result = .ok (ps.filter old.lacks) := by
  have hall : (new.extensions.sorted.filter fun entry =>
      !(({} : Catalog).extensions.contains entry.1)) = new.extensions.sorted :=
    List.filter_eq_self.mpr fun _ _ => rfl
  unfold extensions at h ⊢
  rw [hall] at h
  obtain ⟨hchecked, h⟩ := Logged.result_check_bind_eq_ok.mp h
  obtain ⟨rfl⟩ := h
  refine Logged.result_check_bind_eq_ok.mpr ⟨?_, ?_⟩
  · exact forM_eq_ok.mpr fun entry hentry =>
      forM_eq_ok.mp hchecked entry (List.mem_of_mem_filter hentry)
  · rw [Logged.result_debug_bind, Logged.result_pure, List.filterMap_filter, List.filter_filterMap]
    congr 2
    funext entry
    by_cases hne : entry.2.ddl = ""
    · simp [hne]
    · simp [hne, Catalog.lacks, Catalog.holds, Option.filter]

/-- The pieces of a script are those of the dump whose objects the older catalog lacks. -/
theorem pieces_lacking (h : (pieces {} new target).result = .ok ps) :
    (pieces old new target).result = .ok (ps.filter old.lacks) := by
  obtain ⟨_, hextensions, h⟩ := Logged.result_bind_eq_ok.mp h
  obtain ⟨_, hschemas, h⟩ := Logged.result_bind_eq_ok.mp h
  obtain ⟨_, htypes, h⟩ := Logged.result_bind_eq_ok.mp h
  obtain ⟨_, hsequences, h⟩ := Logged.result_bind_eq_ok.mp h
  obtain ⟨_, htables, h⟩ := Logged.result_bind_eq_ok.mp h
  obtain ⟨_, hviews, h⟩ := Logged.result_bind_eq_ok.mp h
  obtain ⟨_, hfunctions, h⟩ := Logged.result_bind_eq_ok.mp h
  obtain ⟨_, haggregates, h⟩ := Logged.result_bind_eq_ok.mp h
  obtain ⟨_, hprocedures, h⟩ := Logged.result_bind_eq_ok.mp h
  obtain ⟨rfl⟩ := h
  simp only [List.filter_append]
  refine Logged.result_bind_eq_ok.mpr ⟨_, extensions_lacking hextensions, ?_⟩
  refine Logged.result_bind_eq_ok.mpr ⟨_, schemas_lacking hschemas, ?_⟩
  refine Logged.result_bind_eq_ok.mpr
    ⟨_, walked_lacking (fun _ _ hp => types_lacking hp) htypes, ?_⟩
  refine Logged.result_bind_eq_ok.mpr
    ⟨_, walked_lacking (fun _ _ hp => sequences_lacking hp) hsequences, ?_⟩
  refine Logged.result_bind_eq_ok.mpr
    ⟨_, walked_lacking (fun _ _ hp => tables_lacking hp) htables, ?_⟩
  refine Logged.result_bind_eq_ok.mpr
    ⟨_, walked_lacking (fun _ _ hp => views_lacking hp) hviews, ?_⟩
  refine Logged.result_bind_eq_ok.mpr
    ⟨_, walked_lacking (fun _ _ hp => functions_lacking hp) hfunctions, ?_⟩
  refine Logged.result_bind_eq_ok.mpr
    ⟨_, walked_lacking (fun _ _ hp => aggregates_lacking hp) haggregates, ?_⟩
  refine Logged.result_bind_eq_ok.mpr
    ⟨_, walked_lacking (fun _ _ hp => procedures_lacking hp) hprocedures, ?_⟩
  rfl

end Diff

namespace Catalog

open Diff

/-- A script that leads to a catalog is the catalog's dump without the pieces of the objects that the
older catalog keeps. So nothing else about the older one matters, and where it keeps every object
nothing is left. -/
theorem diff_eq_dump_lacking {new : Catalog} {target : Option String} {withHeadings : Bool}
    {script : String} (h : (new.dump target withHeadings).result = .ok script) :
    ∃ ps, (pieces {} new target).result = .ok ps ∧ (∀ x ∈ ps, new.Grounds x) ∧
      script = scriptText withHeadings new.metadata ps ∧
      (∀ old : Catalog, (old.diff new target withHeadings).result =
        .ok (scriptText withHeadings new.metadata (ps.filter old.lacks))) ∧
      (∀ old : Catalog, (∀ tag, new.holds tag → old.holds tag) →
        (old.diff new target withHeadings).result =
          .ok (if withHeadings then Sink.provenance new.metadata else "")) ∧
      ∀ old other : Catalog, (∀ tag, old.holds tag = other.holds tag) →
        (old.diff new target withHeadings).result = (other.diff new target withHeadings).result := by
  obtain ⟨ps, hps, hscript⟩ := Logged.result_bind_eq_ok.mp h
  have hgrounds : ∀ x ∈ ps, new.Grounds x := yields_pieces {} new target ps hps
  have hdiff (old : Catalog) : (old.diff new target withHeadings).result =
      .ok (scriptText withHeadings new.metadata (ps.filter old.lacks)) := by
    rw [← renderPieces_eq]
    exact Logged.result_bind_eq_ok.mpr ⟨_, pieces_lacking hps, rfl⟩
  refine ⟨ps, hps, hgrounds, ?_, hdiff, fun old hkept => ?_, fun old other hsame => ?_⟩
  · rw [← renderPieces_eq]
    simpa [eq_comm] using hscript
  · have hnone : ps.filter old.lacks = [] := List.filter_eq_nil_iff.mpr fun x hx => by
      simp [lacks, hkept x.tag (hgrounds x hx).holds]
    rw [hdiff, hnone, scriptText_nil]
  · have hlacks : old.lacks = other.lacks := funext fun x => by rw [lacks, lacks, hsame]
    rw [hdiff, hdiff, hlacks]

/-- An extension and a schema with one table. -/
def shop : Catalog where
  extensions := Entries.empty.put "citext" { name := "citext" }
  schemas := Entries.empty.put "shop"
    { name := "shop"
      tables := Entries.empty.put "orders"
        { schema := "shop"
          name := "orders"
          columns := [{ name := "id", position := (1 : Int), dataType := "integer" }] } }

def shopDump : String :=
  "CREATE EXTENSION IF NOT EXISTS citext;\n\nCREATE SCHEMA shop;\n\n" ++
    "CREATE TABLE shop.orders (\n    id integer\n);\n"

theorem shop_added :
    (({} : Catalog).diff shop none false).result = .ok shopDump ∧
      (shop.diff shop none false).result = .ok "" := by
  have hdump : (shop.dump none false).result = .ok shopDump := by decide +kernel
  obtain ⟨-, -, -, -, -, hkept, -⟩ := diff_eq_dump_lacking hdump
  exact ⟨hdump, hkept shop fun _ h => h⟩

end Catalog
end SchemaScript
