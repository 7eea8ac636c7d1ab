import SchemaScript.Proofs.Effect.Statements
import SchemaScript.Proofs.Script.Totality

/-!
# What becomes of a script that is read

A script is refused for its text or for a number in it, or it describes a catalog that can be written in
every way. Two kinds of statements without a name derail it instead (`ofSql_derails_iff`).
-/

namespace SchemaScript

namespace Effect

open Sql

variable {default : String} {c : Catalog} {progress : Progress} {all : List Statement}

/-! ## One statement after another -/

theorem writable_createSchema (h : progress.catalog.Writable) (name owner : Option String) :
    (createSchema progress name owner).catalog.Writable := by
  cases name with
  | none => exact h
  | some name =>
    simp only [createSchema]
    refine h.updateSchema name fun s hs => ?_
    split
    · exact { hs with owner := rfl }
    · exact hs

/-- Statements have taken effect; a schema without a name among them is on record. -/
structure Progress.Goes (progress : Progress) (all : List Statement) (next : Progress) : Prop where
  writable : next.catalog.Writable
  nameless : next.namelessFirst.isSome = (progress.namelessFirst.isSome || all.any isNamelessSchema)

/-- Only the declaration of a schema touches more than the catalog. -/
theorem result_apply {s : Statement} (h : ¬ ∃ name owner, s = .createSchema name owner) :
    (apply default progress s).result =
      (applyTo default progress.catalog s).result >>= fun c => .ok { progress with catalog := c } := by
  cases s with
  | createSchema name owner => exact absurd ⟨name, owner, rfl⟩ h
  | _ => exact Logged.result_bind _ _

theorem apply_outcome (default : String) (h : progress.catalog.Writable) (s : Statement) :
    Outcome (progress.Goes [s]) (refusal? default s) (apply default progress s).result := by
  by_cases hschema : ∃ name owner, s = .createSchema name owner
  · obtain ⟨name, owner, rfl⟩ := hschema
    refine ⟨_, rfl, writable_createSchema h name owner, ?_⟩
    cases name <;> simp [createSchema, isNamelessSchema]
  · have hnamed : isNamelessSchema s = false := by
      cases s with
      | createSchema name owner => exact absurd ⟨name, owner, rfl⟩ hschema
      | _ => rfl
    have houtcome := applyTo_outcome default h s
    rw [result_apply hschema]
    rcases hrefusal : refusal? default s with _ | fault
    · rw [hrefusal] at houtcome
      obtain ⟨c, hc, hwritable⟩ := houtcome
      rw [hc]
      exact ⟨_, rfl, hwritable, by simp [hnamed]⟩
    · rw [hrefusal] at houtcome
      rw [show _ = Except.error fault from houtcome]
      rfl

/-- The first statement that is refused decides. -/
theorem run_outcome (default : String) (h : progress.catalog.Writable) (all : List Statement) :
    Outcome (progress.Goes all) (all.findSome? (refusal? default))
      (all.foldlM (apply default) progress).result := by
  induction all generalizing progress with
  | nil => exact ⟨progress, rfl, h, by simp⟩
  | cons s all ih =>
    have hstep := apply_outcome default h s
    rw [List.foldlM_cons, Logged.result_bind, List.findSome?_cons]
    rcases hrefusal : refusal? default s with _ | fault
    · rw [hrefusal] at hstep
      obtain ⟨next, hnext, hgoes⟩ := hstep
      rw [hnext]
      have hrest := ih hgoes.writable
      dsimp only
      rcases hrefused : all.findSome? (refusal? default) with _ | fault
      · rw [hrefused] at hrest
        obtain ⟨last, hlast, hwritable, hnameless⟩ := hrest
        refine ⟨last, hlast, hwritable, ?_⟩
        rw [hnameless, hgoes.nameless]
        simp [Bool.or_assoc]
      · rw [hrefused] at hrest
        exact hrest
    · rw [hrefusal] at hstep
      rw [show _ = Except.error fault from hstep]
      rfl

/-! ## The catalog alone -/

/-- What a statement does to a catalog. -/
def effect (default : String) (c : Catalog) : Statement → Except Fault Catalog
  | .createSchema name owner => .ok (createSchema { catalog := c } name owner).catalog
  | s => (applyTo default c s).result

theorem effect_eq_applyTo {s : Statement} (h : ¬ ∃ name owner, s = .createSchema name owner)
    (c : Catalog) : effect default c s = (applyTo default c s).result := by
  cases s with
  | createSchema name owner => exact absurd ⟨name, owner, rfl⟩ h
  | _ => rfl

theorem effect_of_apply {next : Progress} {s : Statement}
    (h : (apply default progress s).result = .ok next) :
    effect default progress.catalog s = .ok next.catalog := by
  by_cases hschema : ∃ name owner, s = .createSchema name owner
  · obtain ⟨name, owner, rfl⟩ := hschema
    obtain rfl := Except.ok.inj h
    cases name <;> rfl
  · rw [result_apply hschema] at h
    obtain ⟨c, hc, h⟩ := exists_of_bind_eq_ok h
    obtain rfl := Except.ok.inj h
    rw [effect_eq_applyTo hschema, hc]

theorem effects_of_run {last : Progress} (h : (all.foldlM (apply default) progress).result = .ok last) :
    all.foldlM (effect default) progress.catalog = .ok last.catalog := by
  induction all generalizing progress with
  | nil =>
    obtain rfl := Except.ok.inj h
    rfl
  | cons s all ih =>
    rw [List.foldlM_cons] at h
    obtain ⟨next, hnext, hrest⟩ := Logged.result_bind_eq_ok.mp h
    rw [List.foldlM_cons, effect_of_apply hnext]
    exact ih hrest

theorem effect_outcome (default : String) (h : c.Writable) (s : Statement) :
    Outcome Catalog.Writable (refusal? default s) (effect default c s) := by
  by_cases hschema : ∃ name owner, s = .createSchema name owner
  · obtain ⟨name, owner, rfl⟩ := hschema
    have hwritable : (createSchema { catalog := c } name owner).catalog.Writable :=
      writable_createSchema h name owner
    exact ⟨_, rfl, hwritable⟩
  · rw [effect_eq_applyTo hschema]
    exact applyTo_outcome default h s

theorem writable_effect {d : Catalog} (h : c.Writable) {s : Statement}
    (hd : effect default c s = .ok d) : d.Writable := by
  have houtcome := effect_outcome default h s
  rw [hd] at houtcome
  cases hrefusal : refusal? default s with
  | some fault =>
    rw [hrefusal] at houtcome
    contradiction
  | none =>
    rw [hrefusal] at houtcome
    obtain ⟨d', hd', hwritable⟩ := houtcome
    exact Except.ok.inj hd' ▸ hwritable

/-- Statements of which none is refused take effect one after another. -/
theorem exists_effects (h : c.Writable) (hall : ∀ s ∈ all, refusal? default s = none) :
    ∃ d, all.foldlM (effect default) c = .ok d := by
  induction all generalizing c with
  | nil => exact ⟨c, rfl⟩
  | cons s all ih =>
    rw [List.forall_mem_cons] at hall
    have hstep := effect_outcome default h s
    rw [hall.1] at hstep
    obtain ⟨next, hnext, hwritable⟩ := hstep
    obtain ⟨last, hlast⟩ := ih hwritable hall.2
    refine ⟨last, ?_⟩
    rw [List.foldlM_cons, hnext]
    exact hlast

theorem writable_inheritAll (h : c.Writable) : (inheritAll c).Writable := by
  have hone {c : Catalog} (h : c.Writable) (a : PartitionAttachment) : (inheritColumns c a).Writable := by
    unfold inheritColumns
    split
    · split
      · exact h
      · next parent hparent =>
        refine h.modifyTable (fun child hchild => ?_) _ _
        have hparent := h.findTable? hparent
        split
        · simp_all [Table.isTyped]
        · exact hchild
    · exact h
  have hall {c : Catalog} (h : c.Writable) (attachments : List PartitionAttachment) :
      (attachments.foldl inheritColumns c).Writable := by
    induction attachments generalizing c with
    | nil => exact h
    | cons a attachments ih => exact ih (hone h a)
  exact hall h c.partitions

/-! ## Scripts -/

/-- A comment on a column without a table is what the statements come to first, or none of them is refused
and a schema without a name is among them. -/
def Derails (default : String) (all : List Statement) : Prop :=
  (∃ before s after, inOrder all = before ++ s :: after ∧ isLooseColumn s ∧
    ∀ t ∈ before, refusal? default t = none) ∨
  ((∀ s ∈ all, refusal? default s = none) ∧ ∃ s ∈ all, isNamelessSchema s)

theorem mem_inOrder {s : Statement} : s ∈ inOrder all ↔ s ∈ all := by
  unfold inOrder
  simp only [List.mem_append, List.mem_filter]
  cases s.isDependent <;> simp

theorem writable_start : Catalog.Writable start := by
  constructor <;> simp [start]

/-- The three ends of a script: it is refused, it names no schema where it should, or it describes a
catalog. -/
theorem catalogOf_cases (default : String) (all : List Statement) :
    (∃ fault, (inOrder all).findSome? (refusal? default) = some fault ∧
      (catalogOf default all).result = .error fault) ∨
    ((∀ s ∈ all, refusal? default s = none) ∧ (∃ s ∈ all, isNamelessSchema s) ∧
      ∃ first, (catalogOf default all).result = .error (.namelessSchema first)) ∨
    ((∀ s ∈ all, refusal? default s = none) ∧ (¬ ∃ s ∈ all, isNamelessSchema s) ∧
      ∃ c, (catalogOf default all).result = .ok c ∧ c.Writable) := by
  have hrun : Outcome (Progress.Goes { catalog := start } (inOrder all)) _ _ :=
    run_outcome default writable_start (inOrder all)
  have hcatalogOf : (catalogOf default all).result = _ := Logged.result_bind _ _
  rw [hcatalogOf]
  rcases hrefused : (inOrder all).findSome? (refusal? default) with _ | fault
  · rw [hrefused] at hrun
    obtain ⟨next, hnext, hwritable, hnameless⟩ := hrun
    have hnone : ∀ s ∈ all, refusal? default s = none := fun s hs =>
      List.findSome?_eq_none_iff.mp hrefused s (mem_inOrder.mpr hs)
    have hany : (inOrder all).any isNamelessSchema ↔ ∃ s ∈ all, isNamelessSchema s := by
      simp [List.any_eq_true, mem_inOrder]
    rw [Option.isSome_none, Bool.false_or] at hnameless
    rw [hnext]
    -- the whole run took effect, and a schema without a name shows at its end only
    right
    rcases hfirst : next.namelessFirst with _ | first
    · rw [hfirst] at hnameless
      refine .inr ⟨hnone, fun h => ?_, inheritAll next.catalog, ?_, writable_inheritAll hwritable⟩
      · exact Bool.false_ne_true (hnameless.trans (hany.mpr h))
      · dsimp only [bind, Except.bind]
        rw [hfirst]
        rfl
    · rw [hfirst] at hnameless
      refine .inl ⟨hnone, hany.mp hnameless.symm, ?_⟩
      refine ⟨if (inheritAll next.catalog).schemas.isEmpty then none else some first, ?_⟩
      dsimp only [bind, Except.bind]
      rw [hfirst]
      rfl
  · rw [hrefused] at hrun
    rw [show _ = Except.error fault from hrun]
    exact .inl ⟨fault, rfl, rfl⟩

theorem catalogOf_derails_iff : (catalogOf default all).Derails ↔ Derails default all := by
  rcases catalogOf_cases default all with
    ⟨fault, hrefused, hresult⟩ | ⟨hnone, hnameless, first, hresult⟩ | ⟨hnone, hnamed, c, hresult, -⟩
  · obtain ⟨before, s, after, hall, hs, hbefore⟩ := List.findSome?_eq_some_iff.mp hrefused
    constructor
    · rintro ⟨fault', hresult', hinput⟩
      obtain rfl := Except.error.inj (hresult.symm.trans hresult')
      obtain hfault | ⟨-, hloose⟩ := refusal?_cases hs
      · exact absurd (hfault.symm.trans hinput) Bool.true_eq_false_eq_False
      · exact .inl ⟨before, s, after, hall, hloose, hbefore⟩
    · rintro (⟨before', s', after', hall', hloose, hbefore'⟩ | ⟨hnone, -⟩)
      · have hfirst : (inOrder all).findSome? (refusal? default) = some .columnWithoutTable :=
          List.findSome?_eq_some_iff.mpr
            ⟨before', s', after', hall', refusal?_of_isLooseColumn hloose, hbefore'⟩
        obtain rfl := Option.some.inj (hrefused.symm.trans hfirst)
        exact ⟨_, hresult, rfl⟩
      · have hmem : s ∈ all := mem_inOrder.mp (hall ▸ List.mem_append_cons_self)
        simpa [hs] using hnone s hmem
  · exact iff_of_true ⟨_, hresult, rfl⟩ (.inr ⟨hnone, hnameless⟩)
  · refine iff_of_false ?_ ?_
    · rintro ⟨fault, hfault, -⟩
      rw [hresult] at hfault
      contradiction
    · rintro (⟨before, s, after, hall, hloose, -⟩ | ⟨-, hnameless⟩)
      · have hmem : s ∈ all := mem_inOrder.mp (hall ▸ List.mem_append_cons_self)
        simpa [refusal?_of_isLooseColumn hloose] using hnone s hmem
      · exact hnamed hnameless

/-- A script that can be read, but whose statements derail it. -/
def TextDerails (default sql : String) : Prop :=
  ∃ all, Sql.statements sql = .ok all ∧ Derails default all

theorem ofSql_derails_iff {sql : String} :
    (Catalog.ofSql sql default).Derails ↔ TextDerails default sql := by
  rcases hsql : Sql.statements sql with flaw | all
  · rw [Catalog.ofSql_of_error hsql, TextDerails]
    refine iff_of_false ?_ ?_
    · rintro ⟨fault, hfault, hinput⟩
      obtain rfl := Except.error.inj hfault
      contradiction
    · rintro ⟨all, hall, -⟩
      rw [hsql] at hall
      contradiction
  · rw [Catalog.ofSql_of_ok hsql, catalogOf_derails_iff, TextDerails]
    simp [hsql]

theorem writable_ofSql {sql : String} (h : (Catalog.ofSql sql default).result = .ok c) :
    c.Writable := by
  rcases hsql : Sql.statements sql with flaw | all
  · rw [Catalog.ofSql_of_error hsql] at h
    contradiction
  · rw [Catalog.ofSql_of_ok hsql] at h
    rcases catalogOf_cases default all with
      ⟨fault, -, hresult⟩ | ⟨-, -, first, hresult⟩ | ⟨-, -, c', hresult, hwritable⟩
    · simp [hresult] at h
    · simp [hresult] at h
    · obtain rfl := Except.ok.inj (hresult.symm.trans h)
      exact hwritable

end Effect

/-! ## Writing -/

namespace Catalog

/-- Every type of the catalog has a text for its name, so the types can be put in order. -/
theorem Writable.ends_diff {new : Catalog} (h : new.Writable) (old : Catalog) (target : Option String)
    (withHeadings : Bool) : (old.diff new target withHeadings).Ends := by
  refine Logged.Ends.bind ((Diff.pieces_ends_iff h.isTyped).mpr fun p hp => ?_) fun _ _ => ⟨_, rfl⟩
  have hschema := h.get? (Diff.Pair.get?_of_mem_pairs hp).1
  have hsortable (keep : String × UserType → Bool) :
      Diff.isSortable (((p.added (·.types)).filter keep).map (·.2.name)) := by
    have hall : ((((p.added (·.types)).filter keep).map (·.2.name)).map (·.stored)).all Json.isText := by
      simp only [List.all_map, List.all_eq_true]
      intro entry he
      have hadded := List.mem_of_mem_filter he
      exact Entries.all_sorted hschema.typeNames entry (List.mem_of_mem_filter hadded)
    rw [Diff.isSortable, Json.areOrdered, hall, Bool.or_true, Bool.true_or]
  exact Bool.and_eq_true_iff.mpr ⟨hsortable _, hsortable _⟩

theorem Writable.ends_dump {c : Catalog} (h : c.Writable) (target : Option String)
    (withHeadings : Bool) : (c.dump target withHeadings).Ends :=
  h.ends_diff {} target withHeadings

end Catalog
end SchemaScript
