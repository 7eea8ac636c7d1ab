import SchemaScript.Proofs.Effect.Inheritance
import SchemaScript.Proofs.Effect.Additions

/-!
# Where objects come from

Every object of a catalog that a script describes was put there by one statement of the script, and has since
been changed by others in the few ways in which a statement changes an object that is there (`Alters`). A
partition may have its columns from another table. `comes_of_at?` traces an object back through all of this,
so that what holds of new objects and is kept by every change holds of all.
-/

namespace SchemaScript

/-- The object with another comment. -/
def Content.commented (text : Option String) : Content → Content
  | .schema owner => .schema owner
  | .extension e => .extension { e with comment := text }
  | .type t => .type { t with comment := text }
  | .sequence s => .sequence { s with comment := text }
  | .table t => .table { t with comment := text }
  | .view v => .view { v with comment := text }
  | .function f => .function { f with comment := text }
  | .aggregate a => .aggregate { a with comment := text }
  | .procedure p => .procedure { p with comment := text }

@[simp] theorem Content.kind?_commented (text : Option String) (x : Content) :
    (x.commented text).kind? = x.kind? := by
  cases x <;> rfl

namespace Effect

open Sql

variable {default : String} {s : Statement} {c c' : Catalog} {tag : Tag} {x : Content}

/-! ## Single steps -/

/-- By itself, the statement describes a catalog with the object. -/
def Creates (default : String) (s : Statement) (tag : Tag) (x : Content) : Prop :=
  ∃ c, effect default start s = .ok c ∧ c.at? tag = some x

/-- How a statement changes an object that is there. -/
inductive Alters (default : String) : Statement → Content → Content → Prop
  | unchanged {s : Statement} {x : Content} : Alters default s x x
  | index {definition t} : Alters default (.createIndex definition) (.table t) (.table (addIndex t definition))
  | trigger {definition t} :
    Alters default (.createTrigger definition) (.table t) (.table (addTrigger t definition))
  | policy {definition t} :
    Alters default (.createPolicy definition) (.table t) (.table (addPolicy t definition))
  | altered {relation commands t change}
      (h : (commands.foldlM (applyCommand default) { table := t }).result = .ok change) :
    Alters default (.alterTable relation commands) (.table t) (.table change.table)
  | comment {kind path} {text : Option String} {x : Content} : Alters default (.comment kind path text) x (x.commented text)
  | partComment {kind path t t'} {name : String} {text : Option String} (h : commentPart? t kind name text = some t') :
    Alters default (.comment kind path text) (.table t) (.table t')
  | indexComment {kind path t} {name : String} {text : Option String} {indexes : Entries Index}
      (h : changeNamed? t.indexes name (fun x => { x with comment := text }) = some indexes) :
    Alters default (.comment kind path text) (.table t) (.table { t with indexes })

/-- The second catalog has the objects of the first one, as the statement changes them. -/
def Steps (default : String) (s : Statement) (c c' : Catalog) : Prop :=
  ∀ tag, (∀ key, tag ≠ .schema key) → Option.Rel (Alters default s) (c.at? tag) (c'.at? tag)

theorem rel_alters_refl (x : Option Content) : Option.Rel (Alters default s) x x := by
  cases x with
  | none => exact .none
  | some x => exact .some .unchanged

theorem steps_refl (c : Catalog) : Steps default s c c :=
  fun tag _ => rel_alters_refl (c.at? tag)

theorem Steps.exists_before (h : Steps default s c c') (htag : ∀ key, tag ≠ .schema key)
    (hx : c'.at? tag = some x) : ∃ y, c.at? tag = some y ∧ Alters default s y x := by
  have hrel := h tag htag
  rw [hx] at hrel
  cases hbefore : c.at? tag with
  | none =>
    rw [hbefore] at hrel
    contradiction
  | some y =>
    rw [hbefore] at hrel
    obtain ⟨halters⟩ := hrel
    exact ⟨y, rfl, halters⟩

theorem steps_modifyTable {schema name : String} {t t' : Table} (found : c.findTable? schema name = some t)
    (h : Alters default s (.table t) (.table t')) :
    Steps default s c (c.modifyTable schema name fun _ => t') := by
  intro tag _
  rw [Catalog.at?_modifyTable]
  split
  · next htag =>
    rw [htag, Catalog.at?_table, found]
    exact .some h
  · exact rel_alters_refl _

theorem steps_put {schema name : String} {held : Schema} {kind : ObjectKind} {x x' : Content}
    (hheld : c.schemas.get? schema = some held) (hx : held.at? kind name = some x)
    (hkind : x'.kind? = some kind) (h : Alters default s x x') :
    Steps default s c { c with schemas := c.schemas.put schema (held.put name x') } := by
  intro tag htag
  cases tag with
  | schema key => exact absurd rfl (htag key)
  | extension key => exact rel_alters_refl _
  | object holder k key =>
    rw [Catalog.at?_object, Catalog.at?_object, Entries.get?_put]
    by_cases hholder : holder = schema
    · rw [if_pos hholder, hholder, hheld, Option.bind_some, Option.bind_some, Schema.at?_put]
      by_cases hsame : x'.kind? = some k ∧ key = name
      · obtain rfl := Option.some.inj (hkind.symm.trans hsame.1)
        rw [if_pos hsame, hsame.2, hx]
        exact .some h
      · rw [if_neg hsame]
        exact rel_alters_refl _
    · rw [if_neg hholder]
      exact rel_alters_refl _

/-! ## Statements that add to objects -/

theorem steps_withTable {relation : RelationName} {f : Table → Logged Table}
    (hf : ∀ t t', (f t).result = .ok t' → Alters default s (.table t) (.table t'))
    (h : (withTable default c relation f).result = .ok c') : Steps default s c c' := by
  unfold withTable at h
  dsimp only at h
  split at h
  · obtain rfl := Except.ok.inj h
    exact steps_refl c
  · next t ht =>
    obtain ⟨t', ht', h⟩ := Logged.result_bind_eq_ok.mp h
    obtain rfl := Except.ok.inj h
    exact steps_modifyTable ht (hf t t' ht')

theorem steps_alterTable {relation : RelationName} {commands : List AlterCommand}
    (h : (alterTable default c relation commands).result = .ok c') :
    Steps default (.alterTable relation commands) c c' := by
  unfold alterTable at h
  dsimp only at h
  split at h
  · refine steps_withTable (fun t t' ht => ?_) h
    obtain rfl := Except.ok.inj ht
    exact .unchanged
  · next t ht =>
    obtain ⟨change, hchange, h⟩ := Logged.result_bind_eq_ok.mp h
    obtain rfl := Except.ok.inj h
    exact steps_modifyTable ht (.altered hchange)

section

variable {kind : CommentKind} {path : List String} {name : String} {text : Option String}

theorem exists_of_changeNamed? {α : Type} {entries entries' : Entries α} {f : α → α}
    (h : changeNamed? entries name f = some entries') :
    ∃ a, entries.get? name = some a ∧ entries' = entries.put name (f a) := by
  obtain ⟨a, ha, rfl⟩ := Option.map_eq_some_iff.mp h
  exact ⟨a, ha, rfl⟩

/-- An object under a name of its schema gets the comment. -/
theorem steps_commented {schema : String} {held : Schema} {k : ObjectKind}
    (hheld : c.schemas.get? schema = some held) (hx : held.at? k name = some x) (hk : x.kind? = some k) :
    Steps default (.comment kind path text) c
      { c with schemas := c.schemas.put schema (held.put name (x.commented text)) } :=
  steps_put hheld hx ((Content.kind?_commented text x).trans hk) .comment

theorem steps_commentObject? {schema : String} {held held' : Schema}
    (hheld : c.schemas.get? schema = some held) (h : commentObject? held kind name text = some held') :
    Steps default (.comment kind path text) c { c with schemas := c.schemas.put schema held' } := by
  cases kind with
  | extension | column | constraint | trigger => contradiction
  | index =>
    obtain ⟨⟨key, t'⟩, hkey, rfl⟩ := Option.map_eq_some_iff.mp h
    obtain ⟨t, indexes, hmem, hindexes, rfl⟩ := exists_of_commentIndex? hkey
    have hx : held.at? .table key = some (.table t) :=
      congrArg (Option.map Content.table) (Entries.get?_eq_some_iff.mpr hmem)
    exact steps_put hheld hx rfl (.indexComment hindexes)
  | table =>
    obtain ⟨entries, hentries, rfl⟩ := Option.map_eq_some_iff.mp h
    obtain ⟨a, ha, rfl⟩ := exists_of_changeNamed? hentries
    exact steps_commented (k := .table) hheld (congrArg (Option.map Content.table) ha) rfl
  | view | materializedView =>
    obtain ⟨entries, hentries, rfl⟩ := Option.map_eq_some_iff.mp h
    obtain ⟨a, ha, rfl⟩ := exists_of_changeNamed? hentries
    exact steps_commented (k := .view) hheld (congrArg (Option.map Content.view) ha) rfl
  | sequence =>
    obtain ⟨entries, hentries, rfl⟩ := Option.map_eq_some_iff.mp h
    obtain ⟨a, ha, rfl⟩ := exists_of_changeNamed? hentries
    exact steps_commented (k := .sequence) hheld (congrArg (Option.map Content.sequence) ha) rfl
  | type | domain =>
    obtain ⟨entries, hentries, rfl⟩ := Option.map_eq_some_iff.mp h
    obtain ⟨a, ha, rfl⟩ := exists_of_changeNamed? hentries
    exact steps_commented (k := .type) hheld (congrArg (Option.map Content.type) ha) rfl
  | function =>
    obtain ⟨entries, hentries, rfl⟩ := Option.map_eq_some_iff.mp h
    obtain ⟨a, ha, rfl⟩ := exists_of_changeNamed? hentries
    exact steps_commented (k := .function) hheld (congrArg (Option.map Content.function) ha) rfl
  | procedure =>
    obtain ⟨entries, hentries, rfl⟩ := Option.map_eq_some_iff.mp h
    obtain ⟨a, ha, rfl⟩ := exists_of_changeNamed? hentries
    exact steps_commented (k := .procedure) hheld (congrArg (Option.map Content.procedure) ha) rfl
  | aggregate =>
    obtain ⟨entries, hentries, rfl⟩ := Option.map_eq_some_iff.mp h
    obtain ⟨a, ha, rfl⟩ := exists_of_changeNamed? hentries
    exact steps_commented (k := .aggregate) hheld (congrArg (Option.map Content.aggregate) ha) rfl

theorem steps_commentOnPart? (h : commentOnPart? default c kind path text = some c') :
    Steps default (.comment kind path text) c c' := by
  unfold commentOnPart? at h
  dsimp only at h
  split at h
  · contradiction
  · next t ht =>
    obtain ⟨t', hpart, rfl⟩ := Option.map_eq_some_iff.mp h
    exact steps_modifyTable ht (.partComment hpart)

theorem steps_commentOn? (h : commentOn? default c kind path text = some c') :
    Steps default (.comment kind path text) c c' := by
  unfold commentOn? at h
  split at h
  · obtain ⟨extensions, hextensions, rfl⟩ := Option.map_eq_some_iff.mp h
    obtain ⟨e, he, rfl⟩ := exists_of_changeNamed? hextensions
    intro tag htag
    cases tag with
    | schema key => exact absurd rfl (htag key)
    | object schema kind key => exact rel_alters_refl _
    | extension key =>
      rw [Catalog.at?_extension, Catalog.at?_extension, Entries.get?_put]
      split
      · next hkey =>
        rw [hkey, he]
        exact .some .comment
      · exact rel_alters_refl _
  · exact steps_commentOnPart? h
  · exact steps_commentOnPart? h
  · exact steps_commentOnPart? h
  · dsimp only at h
    split at h
    · contradiction
    · next held hheld =>
      obtain ⟨held', hobject, rfl⟩ := Option.map_eq_some_iff.mp h
      exact steps_commentObject? hheld hobject

theorem steps_comment (h : (comment default c kind path text).result = .ok c') :
    Steps default (.comment kind path text) c c' := by
  unfold comment at h
  split at h
  · contradiction
  · split at h
    · next c'' hc'' =>
      obtain rfl := Except.ok.inj h
      exact steps_commentOn? hc''
    · obtain rfl := Except.ok.inj h
      exact steps_refl c

end

theorem steps_of_isDependent (hs : s.isDependent) (h : effect default c s = .ok c') :
    Steps default s c c' := by
  cases s with
  | createIndex definition =>
    refine steps_withTable (fun t t' ht => ?_) h
    obtain rfl := Except.ok.inj ht
    exact .index
  | createTrigger definition =>
    refine steps_withTable (fun t t' ht => ?_) h
    obtain rfl := Except.ok.inj ht
    exact .trigger
  | createPolicy definition =>
    refine steps_withTable (fun t t' ht => ?_) h
    obtain rfl := Except.ok.inj ht
    exact .policy
  | alterTable relation commands => exact steps_alterTable h
  | alterIndex relation commands =>
    obtain ⟨found, -, h⟩ := Logged.result_bind_eq_ok.mp h
    obtain rfl := Except.ok.inj h
    exact steps_refl c
  | comment kind path text => exact steps_comment h
  | otherComment label =>
    obtain rfl := Except.ok.inj h
    exact steps_refl c
  | _ => contradiction

/-! ## Statements that create objects -/

/-- Whatever is there, such a statement puts over it what it puts into the first catalog. -/
theorem exists_effect_start (hs : s.isDependent = false) (hc : c.Writable) (h : effect default c s = .ok c')
    (htag : ∀ key, tag ≠ .schema key) :
    ∃ first, effect default start s = .ok first ∧ c'.at? tag = (first.at? tag).or (c.at? tag) := by
  obtain ⟨a, ha⟩ := exists_adds default hs
  have hfresh : a.fresh tag = none := by
    cases tag with
    | schema key => exact absurd rfl (htag key)
    | extension key => rfl
    | object schema kind key => rfl
  have hstart : start.at? tag = none := by
    cases tag <;> rfl
  obtain ⟨first, hfirst⟩ : ∃ first, effect default start s = .ok first := by
    -- whether a statement is refused does not depend on the catalog
    have houtcome := effect_outcome default hc s
    have hoften := effect_outcome default writable_start s
    rw [h] at houtcome
    cases hrefusal : refusal? default s with
    | none =>
      rw [hrefusal] at hoften
      exact hoften.imp fun _ => And.left
    | some fault =>
      rw [hrefusal] at houtcome
      contradiction
  refine ⟨first, hfirst, ?_⟩
  rw [(ha.turns c c' h).contents, (ha.turns start first hfirst).contents, hfresh, hstart]
  simp only [Option.or_none]

/-- What such a statement has put into one catalog it puts into the first one as well. -/
theorem creates_or_of_effect (hs : s.isDependent = false) (hc : c.Writable)
    (h : effect default c s = .ok c') (htag : ∀ key, tag ≠ .schema key) (hx : c'.at? tag = some x) :
    Creates default s tag x ∨ c.at? tag = some x := by
  obtain ⟨first, hfirst, hafter⟩ := exists_effect_start hs hc h htag
  rw [hafter] at hx
  exact (Option.or_eq_some_iff.mp hx).imp (⟨first, hfirst, ·⟩) And.right

/-- A statement creates what it defines. -/
theorem mem_definitions_of_creates (htag : ∀ key, tag ≠ .schema key) (h : Creates default s tag x) :
    tag ∈ definitions default s := by
  obtain ⟨c, hc, hx⟩ := h
  have hstart : start.at? tag = none := by
    cases tag <;> rfl
  by_cases hs : s.isDependent
  · obtain ⟨before, hbefore, -⟩ := (steps_of_isDependent hs hc).exists_before htag hx
    rw [hstart] at hbefore
    contradiction
  · obtain ⟨a, ha⟩ := exists_adds default (Bool.eq_false_of_not_eq_true hs)
    have hfresh : a.fresh tag = none := by
      cases tag with
      | schema key => exact absurd rfl (htag key)
      | extension key => rfl
      | object schema kind key => rfl
    rw [(ha.turns start c hc).contents, hstart, hfresh, Option.or_none, Option.or_none] at hx
    exact ha.defined tag x hx

/-- What a first statement puts into a schema is all that the catalog has. -/
theorem of_at?_putAll {schema holder key : String} {kind : ObjectKind} (objects : List (String × Content))
    (h : (start.updateSchema schema (·.putAll objects)).at? (.object holder kind key) = some x) :
    holder = schema ∧ (key, x) ∈ objects ∧ x.kind? = some kind := by
  rw [Catalog.at?_updateSchema] at h
  dsimp only at h
  by_cases hholder : holder = schema
  · rw [if_pos hholder, Schema.at?_putAll, Catalog.at?_schemaOrNew_object] at h
    have hstart : start.at? (.object schema kind key) = none := rfl
    rw [hstart, Option.or_none] at h
    exact ⟨hholder, mem_of_written h⟩
  · rw [if_neg hholder] at h
    contradiction

theorem of_at?_put {schema holder name key : String} {kind : ObjectKind} {y : Content}
    (h : (start.updateSchema schema fun s => s.put name y).at? (.object holder kind key) = some x) :
    holder = schema ∧ key = name ∧ x = y := by
  obtain ⟨hholder, hmem, -⟩ := of_at?_putAll [(name, y)] h
  obtain ⟨rfl, rfl⟩ := Prod.mk.inj (List.mem_singleton.mp hmem)
  exact ⟨hholder, rfl, rfl⟩

section

variable {schema name : String}

theorem objects_of_createTable {definition : TableDefinition} {kind : ObjectKind}
    (h : Creates default (.createTable definition) (.object schema kind name) x) :
    ∃ d, (draftOf default definition).result = .ok d ∧ schema = schemaOf default definition.relation ∧
      (name, x) ∈ objectsOf d definition.relation.name ∧ x.kind? = some kind := by
  obtain ⟨c, hc, hx⟩ := h
  have hdraft : ∃ d, (draftOf default definition).result = .ok d := by
    obtain ⟨d, hd, -⟩ := Logged.result_bind_eq_ok.mp hc
    exact ⟨d, hd⟩
  obtain ⟨d, hd⟩ := hdraft
  rw [eq_of_createTable hd hc] at hx
  obtain ⟨hschema, hmem, hkind⟩ := of_at?_putAll (objectsOf d definition.relation.name) hx
  exact ⟨d, hd, hschema, hmem, hkind⟩

/-- Only a table's definition creates it. -/
theorem exists_draft_of_creates (h : Creates default s (.object schema .table name) x) :
    ∃ definition d, s = .createTable definition ∧ (draftOf default definition).result = .ok d ∧
      schema = schemaOf default definition.relation ∧ name = definition.relation.name ∧
      x = .table d.table := by
  obtain ⟨definition, rfl⟩ := exists_definition_of_mem (mem_definitions_of_creates (by simp) h)
  obtain ⟨d, hd, hschema, hmem, hkind⟩ := objects_of_createTable h
  rcases objectsOf_cases hmem with ⟨q, -, -, rfl⟩ | ⟨hname, hx⟩
  · exact absurd (Option.some.inj hkind : ObjectKind.sequence = .table) (by decide)
  · exact ⟨definition, d, rfl, hd, hschema, hname, hx⟩

/-- A sequence comes from a serial column or from a definition of its own. -/
theorem sequence_of_creates (h : Creates default s (.object schema .sequence name) x) :
    (∃ definition d q, s = .createTable definition ∧ (draftOf default definition).result = .ok d ∧
      q ∈ d.sequences ∧ schema = schemaOf default definition.relation ∧ name = q.name.spelled ∧
      x = .sequence q) ∨
    ∃ relation options q, s = .createSequence relation options ∧
      options.foldlM sequenceOption { schema := schemaOf default relation, name := relation.name } = .ok q ∧
      schema = schemaOf default relation ∧ name = relation.name ∧ x = .sequence q := by
  have hdefined := mem_definitions_of_creates (by simp) h
  cases s with
  | createTable definition =>
    obtain ⟨d, hd, hschema, hmem, hkind⟩ := objects_of_createTable h
    rcases objectsOf_cases hmem with ⟨q, hq, hname, rfl⟩ | ⟨hname, rfl⟩
    · exact .inl ⟨definition, d, q, rfl, hd, hq, hschema, hname, rfl⟩
    · exact absurd (Option.some.inj hkind : ObjectKind.table = .sequence) (by decide)
  | createSequence relation options =>
    obtain ⟨c, hc, hx⟩ := h
    obtain ⟨q, hq, hc⟩ := exists_of_bind_eq_ok (show (options.foldlM sequenceOption _ >>= _) = .ok c from hc)
    obtain rfl := Except.ok.inj hc
    obtain ⟨hschema, hname, rfl⟩ := of_at?_put (y := .sequence q) hx
    exact .inr ⟨relation, options, q, rfl, hq, hschema, hname, rfl⟩
  | createRoutine definition =>
    cases hprocedure : definition.isProcedure <;> simp [definitions, hprocedure] at hdefined
  | createSchema holder owner => cases holder <;> simp [definitions] at hdefined
  | _ => simp [definitions] at hdefined

end

/-! ## Nothing goes -/

theorem isSome_of_effect (htag : ∀ key, tag ≠ .schema key) (h : effect default c s = .ok c')
    (hx : (c.at? tag).isSome) : (c'.at? tag).isSome := by
  by_cases hs : s.isDependent
  · have hrel := steps_of_isDependent hs h tag htag
    cases hafter : c'.at? tag with
    | some x => rfl
    | none =>
      rw [hafter] at hrel
      cases hbefore : c.at? tag with
      | none => rwa [hbefore] at hx
      | some y =>
        rw [hbefore] at hrel
        contradiction
  · obtain ⟨a, ha⟩ := exists_adds default (Bool.eq_false_of_not_eq_true hs)
    rw [(ha.turns c c' h).contents, Option.isSome_or, Option.isSome_or, hx, Bool.true_or, Bool.or_true]

theorem isSome_of_effects {all : List Statement} (htag : ∀ key, tag ≠ .schema key)
    (h : all.foldlM (effect default) c = .ok c') (hx : (c.at? tag).isSome) : (c'.at? tag).isSome :=
  keeps_foldlM (Q := fun c : Catalog => (c.at? tag).isSome)
    (fun _ _ _ _ hsofar hstep => isSome_of_effect htag hstep hsofar) hx h

/-! ## Whole scripts -/

/-- How the script comes to the object under the tag; partitions may have been attached to tables. -/
inductive Comes (default : String) (all : List Statement) (attached : List PartitionAttachment) :
    Tag → Content → Prop
  | created {s : Statement} {tag : Tag} {x : Content} (said : s ∈ all) (creates : Creates default s tag x) :
    Comes default all attached tag x
  | altered {s : Statement} {tag : Tag} {x x' : Content} (said : s ∈ all) (before : Comes default all attached tag x)
      (alters : Alters default s x x') : Comes default all attached tag x'
  /-- A partition without columns of its own gets those of its parent. -/
  | filled {schema name parentSchema parentTable : String} {t parent}
      (child : Comes default all attached (.object schema .table name) (.table t)) (bare : t.columns = [])
      (place : ∃ a ∈ attached, a.child = ((schema : Field String), (name : Field String)) ∧
        (a.parentSchema, a.parentTable) = ((parentSchema : Field String), (parentTable : Field String)))
      (above : Comes default all attached (.object parentSchema .table parentTable) (.table parent)) :
    Comes default all attached (.object schema .table name) (.table { t with columns := parent.columns })

variable {all : List Statement} {attached : List PartitionAttachment}

theorem comes_effects (hall : ∀ s ∈ all, s ∈ all') (h : all.foldlM (effect default) c = .ok c')
    (hc : c.Writable)
    (hfirst : ∀ tag x, (∀ key, tag ≠ .schema key) → c.at? tag = some x → Comes default all' attached tag x) :
    ∀ tag x, (∀ key, tag ≠ .schema key) → c'.at? tag = some x → Comes default all' attached tag x := by
  refine (keeps_foldlM (Q := fun c : Catalog => c.Writable ∧
    ∀ tag x, (∀ key, tag ≠ .schema key) → c.at? tag = some x → Comes default all' attached tag x)
    (fun s hs c c' hsofar hstep => ?_) ⟨hc, hfirst⟩ h).2
  obtain ⟨hwritable, hcomes⟩ := hsofar
  refine ⟨writable_effect hwritable hstep, fun tag x htag hx => ?_⟩
  by_cases hdependent : s.isDependent
  · obtain ⟨before, hbefore, halters⟩ := (steps_of_isDependent hdependent hstep).exists_before htag hx
    exact .altered (hall s hs) (hcomes tag before htag hbefore) halters
  · rcases creates_or_of_effect (Bool.eq_false_of_not_eq_true hdependent) hwritable hstep htag hx with
      hcreates | hbefore
    · exact .created (hall s hs) hcreates
    · exact hcomes tag x htag hbefore

theorem comes_inheritColumns {a : PartitionAttachment} (ha : a ∈ attached) (hnamed : a.Named)
    (h : ∀ tag x, (∀ key, tag ≠ .schema key) → c.at? tag = some x → Comes default all attached tag x) :
    ∀ tag x, (∀ key, tag ≠ .schema key) → (inheritColumns c a).at? tag = some x →
      Comes default all attached tag x := by
  obtain ⟨parentSchema, parentTable, childSchema, childTable, hps, hpt, hcs, hct⟩ := hnamed
  intro tag x htag hx
  unfold inheritColumns at hx
  rw [hps, hpt, hcs, hct] at hx
  simp only [Field.text?_text] at hx
  split at hx
  · exact h tag x htag hx
  · next parent hparent =>
    rw [Catalog.at?_modifyTable] at hx
    split at hx
    · next hchild =>
      obtain ⟨t, ht, rfl⟩ := Option.map_eq_some_iff.mp hx
      have hfound {schema name : String} {t : Table} (ht : c.findTable? schema name = some t) :
          Comes default all attached (.object schema .table name) (.table t) :=
        h _ _ (by simp) (by rw [Catalog.at?_table, ht, Option.map_some])
      rw [hchild]
      by_cases hbare : t.columns.isEmpty
      · rw [if_pos hbare]
        exact .filled (hfound ht) (List.isEmpty_iff.mp hbare)
          ⟨a, ha, Prod.ext hcs hct, Prod.ext hps hpt⟩ (hfound hparent)
      · rw [if_neg hbare]
        exact hfound ht
    · exact h tag x htag hx

/-- Every object of a catalog that a script describes is there because of the script's statements. -/
theorem comes_of_at? (h : (catalogOf default all).result = .ok c) (htag : ∀ key, tag ≠ .schema key)
    (hx : c.at? tag = some x) : Comes default all c.partitions tag x := by
  obtain ⟨⟨progress, hrun, rfl⟩, -⟩ := exists_run h
  have heffects := effects_of_run hrun
  have hpartitions : (inheritAll progress.catalog).partitions = progress.catalog.partitions :=
    (inherit_same progress.catalog progress.catalog.partitions).2.1
  have hnamed := (filed_effects filed_start heffects).partitions
  rw [hpartitions]
  have hrows (attachments : List PartitionAttachment)
      (hattachments : ∀ a ∈ attachments, a ∈ progress.catalog.partitions) (c : Catalog)
      (hc : ∀ tag x, (∀ key, tag ≠ .schema key) → c.at? tag = some x →
        Comes default all progress.catalog.partitions tag x) :
      ∀ tag x, (∀ key, tag ≠ .schema key) → (attachments.foldl inheritColumns c).at? tag = some x →
        Comes default all progress.catalog.partitions tag x := by
    induction attachments generalizing c with
    | nil => exact hc
    | cons a attachments ih =>
      have ha := hattachments a (List.mem_cons_self ..)
      exact ih (fun b hb => hattachments b (List.mem_cons_of_mem a hb)) _
        (comes_inheritColumns ha (hnamed a ha) hc)
  refine hrows _ (fun a ha => ha) _ (comes_effects (fun s hs => mem_inOrder.mp hs) heffects writable_start
    fun tag x htag hx => ?_) tag x htag hx
  cases tag with
  | schema key => exact absurd rfl (htag key)
  | extension key => contradiction
  | object schema kind key => contradiction

end Effect
end SchemaScript
