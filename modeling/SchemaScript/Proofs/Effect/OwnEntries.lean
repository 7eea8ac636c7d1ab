import SchemaScript.Proofs.Effect.KeyPlaces

/-!
# Entries of constraints without a name

A constraint without a name gets the first candidate that is free, found after no more passes than there are names
(`isFirstFree_freeName`), and is what it would be if that name were given (`constraintOf_unnamed`). So behind a column,
by itself or in a change, each such constraint has an entry of its own behind those that are there (`GainsEntries`), and
none of them stops what declares it (`unnamed_gain_entries`).
-/

namespace SchemaScript.Effect

open Sql

variable {default base : String} {names more : List String} {clause : ConstraintClause}
  {clauses later : List ConstraintClause} {t t' t'' : Table}

/-! ## The name that is found -/

/-- The name is the first candidate that is free, and is reached after no more passes than there are names. -/
def IsFirstFree (names : List String) (base name : String) : Prop :=
  ∃ n ≤ names.length, name = candidate base n ∧ name ∉ names ∧ ∀ m < n, candidate base m ∈ names

/-- The first free candidate is found, however many more passes are allowed. -/
theorem isFirstFree_freeName (entries : Entries Constraint) (base : String) {limit : Nat}
    (hlimit : entries.size ≤ limit) : IsFirstFree entries.names base (freeName entries.contains base limit) := by
  have hnames : ∀ s, entries.contains s → s ∈ entries.names := fun _ => Entries.contains_iff_mem_names.mp
  have hfree {s : String} (h : entries.contains s = false) : s ∉ entries.names := by
    intro hmem
    rw [Entries.contains_iff_mem_names.mpr hmem] at h
    contradiction
  have hlength : entries.names.length ≤ limit := by rwa [Entries.names, List.length_map]
  rcases freeName_cases base hnames hlength with ⟨hname, hbase⟩ | ⟨n, hn, hname, hlast, hbase, hbefore⟩
  · refine ⟨0, Nat.zero_le _, hname, hname.symm ▸ hfree hbase, ?_⟩
    intro m hm
    omega
  · obtain ⟨n, rfl⟩ := Nat.exists_eq_succ_of_ne_zero (Nat.ne_zero_of_lt hn)
    have htaken : ∀ m < n + 1, candidate base m ∈ entries.names := by
      intro m hm
      exact hnames _ (taken_candidate hbase hbefore hm)
    exact ⟨n + 1, le_length_of_candidates htaken, hname, hname.symm ▸ hfree hlast, htaken⟩

/-! ## The constraint under its name -/

/-- The text in front of the numbers: the table, the columns that count for the kind of the constraint, and the kind. -/
def baseText (table : String) (columns : List String) (kind : String) : String :=
  "_".intercalate (table :: columns ++ [kind])

/-- The base of the name that a constraint gets; none, if a catalog does not keep its kind. -/
def baseName? (table : String) (clause : ConstraintClause) : Option String :=
  match clause.rule with
  | .primaryKey => some (baseText table [] "pkey")
  | .unique => some (baseText table clause.columns "key")
  | .check _ => some (baseText table clause.column.toList "check")
  | .exclusion => some (baseText table [] "excl")
  | .references .. => some (baseText table (clause.columns.take 1) "fkey")
  | .other _ => none

theorem baseText_ne_empty (table : String) (columns : List String) (kind : String) :
    baseText table columns kind ≠ "" := by
  have hmem : '_' ∈ (baseText table columns kind).toList := by
    rw [baseText, List.cons_append, toList_intercalate_cons]
    simp
  rintro hempty
  rw [hempty] at hmem
  contradiction

theorem baseName?_ne_empty {table : String} (h : baseName? table clause = some base) : base ≠ "" := by
  unfold baseName? at h
  split at h
  case h_6 => contradiction
  all_goals exact Option.some.inj h ▸ baseText_ne_empty _ _ _

theorem candidate_ne_empty (h : base ≠ "") (n : Nat) : candidate base n ≠ "" := by
  cases n with
  | zero => exact h
  | succ n =>
    intro hempty
    exact h (String.append_eq_empty_iff.mp hempty).1

theorem constraintOf_eq_none_iff {table : String} :
    constraintOf default t clause = none ↔ baseName? table clause = none := by
  unfold constraintOf baseName?
  cases clause.rule <;> simp

theorem constraintName_unnamed {given : Option String} (hgiven : Text.given given = none) (t : Table)
    (columns : List String) (kind : String) :
    constraintName t given columns kind =
      freeName t.constraints.contains (baseText t.name.spelled columns kind) t.constraints.size := by
  unfold constraintName
  rw [hgiven]
  rfl

theorem constraintName_named {name : String} (hne : name ≠ "") (t : Table) (columns : List String) (kind : String) :
    constraintName t (some name) columns kind = name := by
  unfold constraintName
  rw [Text.given_eq_some_iff.mpr ⟨rfl, hne⟩]

/-- A constraint without a name acts as if it had been given the name that is found. -/
theorem constraintOf_unnamed (hunnamed : Text.given clause.name = none)
    (hbase : baseName? t.name.spelled clause = some base) :
    constraintOf default t clause = constraintOf default t
      { clause with name := some (freeName t.constraints.contains base t.constraints.size) } := by
  have hne : freeName t.constraints.contains base t.constraints.size ≠ "" := by
    obtain ⟨n, -, hname, -⟩ := isFirstFree_freeName t.constraints base (Nat.le_refl _)
    exact hname ▸ candidate_ne_empty (baseName?_ne_empty hbase) n
  unfold constraintOf
  unfold baseName? at hbase
  cases hrule : clause.rule with
  | other label => rfl
  | check | exclusion =>
    rw [hrule] at hbase
    obtain rfl := Option.some.inj hbase
    dsimp only
    rw [constraintName_unnamed hunnamed, constraintName_named hne]
  | primaryKey | unique | references =>
    rw [hrule] at hbase
    obtain rfl := Option.some.inj hbase
    dsimp only
    rw [constraintName_unnamed hunnamed, constraintName_named hne]
    rfl

/-- Under a given name a constraint does not depend on the others of its table. -/
theorem constraintOf_named_congr {name : String} (hne : name ≠ "") (hschema : t'.schema = t.schema)
    (htable : t'.name = t.name) :
    constraintOf default t' { clause with name := some name } =
      constraintOf default t { clause with name := some name } := by
  unfold constraintOf
  simp only [constraintName_named hne, hschema, htable]

theorem name_of_constraintOf_named {name : String} (hne : name ≠ "") {c : Constraint}
    (h : constraintOf default t { clause with name := some name } = some c) : c.name.spelled = name := by
  unfold constraintOf at h
  split at h
  case h_6 => contradiction
  all_goals
    obtain rfl := Option.some.inj h
    exact congrArg Text.spelled (congrArg some (constraintName_named hne t _ _))

/-! ## What a table gains -/

/-- The entries of clauses that are taken one after another, beside those of the names that are there: each that a
catalog keeps has the first free name, and the constraint is the one of the clause under that name. -/
inductive Brings (default : String) (t : Table) :
    List String → List ConstraintClause → List (String × Constraint) → Prop
  | nil (names : List String) : Brings default t names [] []
  | skip {names clause clauses entries} (notKept : baseName? t.name.spelled clause = none)
      (rest : Brings default t names clauses entries) : Brings default t names (clause :: clauses) entries
  | own {names clause clauses entries base name c} (kept : baseName? t.name.spelled clause = some base)
      (free : IsFirstFree names base name)
      (constraint : constraintOf default t { clause with name := some name } = some c)
      (rest : Brings default t (names ++ [name]) clauses entries) :
      Brings default t names (clause :: clauses) ((name, c) :: entries)

/-- Behind the entries that were there, a table has those of the clauses. -/
structure GainsEntries (default : String) (clauses : List ConstraintClause) (t t' : Table) : Prop where
  schema : t'.schema = t.schema
  name : t'.name = t.name
  entries : ∃ entries, Brings default t t.constraints.names clauses entries ∧
    t'.constraints.pairs = t.constraints.pairs ++ entries

variable {entries : List (String × Constraint)}

theorem IsFirstFree.ne_empty {name : String} (h : IsFirstFree names base name) (hbase : base ≠ "") : name ≠ "" := by
  obtain ⟨n, -, rfl, -⟩ := h
  exact candidate_ne_empty hbase n

/-- Two tables of one name take the same entries. -/
theorem Brings.congr (h : Brings default t' names clauses entries) (hschema : t'.schema = t.schema)
    (htable : t'.name = t.name) : Brings default t names clauses entries := by
  induction h with
  | nil names => exact .nil names
  | skip notKept _ ih => exact .skip (htable ▸ notKept) ih
  | own kept free constraint _ ih =>
    rw [constraintOf_named_congr (free.ne_empty (baseName?_ne_empty kept)) hschema htable] at constraint
    exact .own (htable ▸ kept) free constraint ih

theorem Brings.append {further : List (String × Constraint)} (h : Brings default t names clauses entries)
    (hlater : Brings default t (names ++ entries.map (·.1)) later further) :
    Brings default t names (clauses ++ later) (entries ++ further) := by
  induction h with
  | nil names => simpa using hlater
  | skip notKept _ ih => exact .skip notKept (ih hlater)
  | own kept free constraint _ ih => exact .own kept free constraint (ih (by simpa using hlater))

theorem Brings.length_eq (h : Brings default t names clauses entries) :
    entries.length = clauses.countP fun clause => (baseName? t.name.spelled clause).isSome := by
  induction h with
  | nil names => rfl
  | skip notKept _ ih => rw [List.countP_cons_of_neg (by simp [notKept]), ih]
  | own kept _ _ _ ih => rw [List.countP_cons_of_pos (by simp [kept]), List.length_cons, ih]

namespace GainsEntries

/-- What touches no constraint brings no entries. -/
theorem of_constraints_eq (hschema : t'.schema = t.schema) (hname : t'.name = t.name)
    (hconstraints : t'.constraints = t.constraints) : GainsEntries default [] t t' :=
  ⟨hschema, hname, [], .nil _, by rw [hconstraints, List.append_nil]⟩

theorem refl (default : String) (t : Table) : GainsEntries default [] t t :=
  of_constraints_eq rfl rfl rfl

theorem trans (h : GainsEntries default clauses t t') (hlater : GainsEntries default later t' t'') :
    GainsEntries default (clauses ++ later) t t'' := by
  obtain ⟨entries, hbrings, hpairs⟩ := h.entries
  obtain ⟨further, hfurther, hmore⟩ := hlater.entries
  have hnames : t'.constraints.names = t.constraints.names ++ entries.map (·.1) := by
    rw [Entries.names, hpairs, List.map_append]
    rfl
  rw [hnames] at hfurther
  refine ⟨hlater.schema.trans h.schema, hlater.name.trans h.name, entries ++ further, ?_, ?_⟩
  · exact hbrings.append (hfurther.congr h.schema h.name)
  · rw [hmore, hpairs, List.append_assoc]

theorem get?_eq {name : String} {c : Constraint} (h : GainsEntries default clauses t t')
    (hc : t.constraints.get? name = some c) : t'.constraints.get? name = some c := by
  obtain ⟨entries, -, hpairs⟩ := h.entries
  rw [Entries.get?_eq_some_iff] at hc ⊢
  rw [hpairs]
  exact List.mem_append_left _ hc

theorem size_eq (h : GainsEntries default clauses t t') :
    t'.constraints.size =
      t.constraints.size + clauses.countP fun clause => (baseName? t.name.spelled clause).isSome := by
  obtain ⟨entries, hbrings, hpairs⟩ := h.entries
  rw [Entries.size, hpairs, List.length_append, hbrings.length_eq]
  rfl

end GainsEntries

/-! ## One clause -/

theorem gains_putConstraint {c : Constraint} (hunnamed : Text.given clause.name = none)
    (hc : constraintOf default t clause = some c) : GainsEntries default [clause] t (putConstraint t c) := by
  obtain ⟨base, hbase⟩ : ∃ base, baseName? t.name.spelled clause = some base := by
    rw [← Option.isSome_iff_exists, ← Option.ne_none_iff_isSome]
    intro hnone
    rw [constraintOf_eq_none_iff.mpr hnone] at hc
    contradiction
  have hfree := isFirstFree_freeName t.constraints base (Nat.le_refl _)
  rw [constraintOf_unnamed hunnamed hbase] at hc
  have hname := name_of_constraintOf_named (hfree.ne_empty (baseName?_ne_empty hbase)) hc
  refine ⟨rfl, rfl, _, .own hbase hfree hc (.nil _), ?_⟩
  obtain ⟨-, -, -, hfresh, -⟩ := hfree
  unfold putConstraint
  rw [hname]
  exact Entries.putPair_fresh hfresh

theorem gains_added (hunnamed : Text.given clause.name = none) (t : Table) :
    GainsEntries default [clause] t (added default clause t) := by
  unfold added
  cases hc : constraintOf default t clause with
  | none => exact ⟨rfl, rfl, [], .skip (constraintOf_eq_none_iff.mp hc) (.nil _), (List.append_nil _).symm⟩
  | some c =>
    have hput := gains_putConstraint hunnamed hc
    dsimp only
    split
    · rw [withoutNulls_eq]
      exact hput.trans (.of_constraints_eq rfl rfl rfl)
    · exact hput

/-! ## Many clauses -/

/-- None of the clauses names its constraint. -/
def Unnamed (clauses : List ConstraintClause) : Prop :=
  ∀ clause ∈ clauses, Text.given clause.name = none

theorem unnamed_append : Unnamed (clauses ++ later) ↔ Unnamed clauses ∧ Unnamed later :=
  List.forall_mem_append

theorem gains_foldl_added (h : Unnamed clauses) (t : Table) :
    GainsEntries default clauses t (clauses.foldl (fun t clause => added default clause t) t) := by
  induction clauses generalizing t with
  | nil => exact .refl default t
  | cons clause clauses ih =>
    obtain ⟨hclause, hclauses⟩ := List.forall_mem_cons.mp h
    exact (gains_added hclause t).trans (ih hclauses _)

theorem result_addConstraints (default : String) (clauses : List ConstraintClause) (t : Table) :
    (clauses.foldlM (addConstraint default) t).result =
      .ok (clauses.foldl (fun t clause => added default clause t) t) := by
  induction clauses generalizing t with
  | nil => rfl
  | cons clause clauses ih =>
    rw [List.foldlM_cons, Logged.result_bind, result_addConstraint]
    exact ih _

/-! ## What declares the clauses -/

section

variable {α β γ δ : Type} {P : β → Prop} {Q : δ → Prop}

/-- A computation stops just where another does, or ends with a value that has the property. -/
def EndsAlike (plain : Except Fault α) (P : β → Prop) (full : Except Fault β) : Prop :=
  match plain with
  | .error fault => full = .error fault
  | .ok _ => ∃ b, full = .ok b ∧ P b

theorem EndsAlike.mono {P' : β → Prop} {plain : Except Fault α} {full : Except Fault β} (h : EndsAlike plain P full)
    (himp : ∀ b, P b → P' b) : EndsAlike plain P' full := by
  cases plain with
  | error fault => exact h
  | ok a =>
    obtain ⟨b, hb, hP⟩ := h
    exact ⟨b, hb, himp b hP⟩

theorem EndsAlike.refl (r : Except Fault β) : EndsAlike r (fun b => r = .ok b) r := by
  cases r with
  | error fault => rfl
  | ok b => exact ⟨b, rfl, rfl⟩

theorem EndsAlike.bind {plain : Except Fault α} {full : Except Fault β} {f : α → Except Fault γ}
    {g : β → Except Fault δ} (h : EndsAlike plain P full) (hrest : ∀ a b, P b → EndsAlike (f a) Q (g b)) :
    EndsAlike (plain >>= f) Q (full >>= g) := by
  cases plain with
  | error fault =>
    rw [show full = .error fault from h]
    rfl
  | ok a =>
    obtain ⟨b, rfl, hP⟩ := h
    exact hrest a b hP

end

/-- The clause that a rule of a column declares. -/
def ruleClause? : ColumnRule → Option ConstraintClause
  | .constraint clause => some clause
  | _ => none

theorem clausesOf_column (definition : ColumnDefinition) :
    clausesOf (.column definition) = definition.rules.filterMap ruleClause? := by
  apply congrArg (definition.rules.filterMap ·)
  funext rule
  cases rule <;> rfl

/-- Whether a type can stand in a table does not depend on the table. -/
theorem endsAlike_typedColumn (t t' : Table) (name : String) (position position' : Int) (type : WrittenType) :
    EndsAlike (typedColumn t name position type) (fun _ => True) (typedColumn t' name position' type) := by
  have hpure (c c' : Column) : EndsAlike (pure c) (fun _ => True) (pure c') := ⟨c', rfl, trivial⟩
  unfold typedColumn
  dsimp only
  split
  · exact hpure _ _
  split
  · split <;> exact hpure _ _
  · split
    · apply (EndsAlike.refl _).bind
      rintro length - -
      exact hpure _ _
    · split
      · apply (EndsAlike.refl _).bind
        rintro precision - -
        split
        · exact hpure _ _
        · apply (EndsAlike.refl _).bind
          rintro scale - -
          exact hpure _ _
      · exact hpure _ _

theorem endsAlike_addColumn (default : String) (d d' : Draft) (definition : ColumnDefinition) :
    EndsAlike (addColumn default d definition) (fun next => GainsEntries default [] d'.table next.table)
      (addColumn default d' definition) := by
  unfold addColumn
  dsimp only
  split
  · exact ⟨_, rfl, .of_constraints_eq rfl rfl rfl⟩
  · apply (endsAlike_typedColumn d.table d'.table _ _ _ _).bind
    rintro c c' -
    exact ⟨_, rfl, .of_constraints_eq rfl rfl rfl⟩

theorem endsAlike_applyRule {rule : ColumnRule} (hrule : isConstraint rule = false) (t t' : Table) :
    EndsAlike (applyRule default t rule).result (GainsEntries default [] t') (applyRule default t' rule).result := by
  have hchange (f g : Column → Column) :
      EndsAlike (.ok (changeLast t f)) (GainsEntries default [] t') (.ok (changeLast t' g)) :=
    ⟨_, rfl, .of_constraints_eq rfl rfl rfl⟩
  cases rule with
  | notNull | null | default value => exact hchange _ _
  | identity always options =>
    unfold applyRule
    rw [Logged.result_bind, Logged.result_bind]
    apply (EndsAlike.refl _).bind
    rintro identity - -
    exact hchange _ _
  | constraint clause => contradiction

theorem endsAlike_applyRules {rules : List ColumnRule} (h : Unnamed (rules.filterMap ruleClause?)) (t t' : Table) :
    EndsAlike ((rules.filter fun rule => !isConstraint rule).foldlM (applyRule default) t).result
      (GainsEntries default (rules.filterMap ruleClause?) t') (rules.foldlM (applyRule default) t').result := by
  induction rules generalizing t t' with
  | nil => exact ⟨t', rfl, .refl default t'⟩
  | cons rule rules ih =>
    rw [List.foldlM_cons, Logged.result_bind]
    by_cases hrule : isConstraint rule
    · obtain ⟨clause, rfl⟩ : ∃ clause, rule = .constraint clause := by
        cases rule with
        | constraint clause => exact ⟨clause, rfl⟩
        | _ => contradiction
      obtain ⟨hclause, hclauses⟩ := List.forall_mem_cons.mp h
      rw [List.filter_cons_of_neg (by simp [hrule]), applyRule, result_addConstraint]
      apply (ih hclauses t _).mono
      intro last hlater
      exact (gains_added hclause t').trans hlater
    · have hrule := Bool.eq_false_of_not_eq_true hrule
      have hclauses : (rule :: rules).filterMap ruleClause? = rules.filterMap ruleClause? := by
        cases rule with
        | constraint clause => contradiction
        | _ => rfl
      rw [hclauses] at h ⊢
      rw [List.filter_cons_of_pos (by simp [hrule]), List.foldlM_cons, Logged.result_bind]
      apply (endsAlike_applyRule hrule t t').bind
      intro next next' hnext
      apply (ih h next next').mono
      intro last hlater
      exact hnext.trans hlater

/-- The element without the constraints that it declares; nothing is left of a constraint by itself. -/
def withoutConstraints? : TableElement → Option TableElement
  | .column definition =>
    some (.column { definition with rules := definition.rules.filter fun rule => !isConstraint rule })
  | .constraint _ => none
  | .other label => some (.other label)

theorem endsAlike_addElements {elements : List TableElement} (h : Unnamed (elements.flatMap clausesOf)) (d d' : Draft) :
    EndsAlike ((elements.filterMap withoutConstraints?).foldlM (addElement default) d).result
      (fun next => GainsEntries default (elements.flatMap clausesOf) d'.table next.table)
      (elements.foldlM (addElement default) d').result := by
  induction elements generalizing d d' with
  | nil => exact ⟨d', rfl, .refl default d'.table⟩
  | cons element elements ih =>
    rw [List.flatMap_cons] at h ⊢
    rw [List.filterMap_cons]
    obtain ⟨helement, helements⟩ := unnamed_append.mp h
    rw [List.foldlM_cons, Logged.result_bind]
    have hrest {next' : Draft} (h : GainsEntries default (clausesOf element) d'.table next'.table) (next : Draft) :=
      (ih helements next next').mono fun _ hlater => h.trans hlater
    cases element with
    | column definition =>
      dsimp only [withoutConstraints?]
      rw [List.foldlM_cons, Logged.result_bind]
      refine EndsAlike.bind ?_ fun next next' hnext => hrest hnext next
      unfold addElement
      rw [clausesOf_column] at helement ⊢
      rw [Logged.result_bind, Logged.result_bind]
      apply (endsAlike_addColumn default d d' _).bind
      intro next next' hcolumn
      rw [Logged.result_bind, Logged.result_bind]
      apply (endsAlike_applyRules helement next.table next'.table).bind
      intro t t' hrules
      exact ⟨_, rfl, hcolumn.trans hrules⟩
    | constraint clause =>
      unfold addElement
      rw [Logged.result_bind, result_addConstraint]
      exact hrest (gains_added (helement clause List.mem_cons_self) d'.table) d
    | other label =>
      dsimp only [withoutConstraints?]
      rw [List.foldlM_cons, Logged.result_bind]
      exact hrest (.refl default d'.table) d

/-- The clause that a change declares. -/
def commandClause? : AlterCommand → Option ConstraintClause
  | .addConstraint clause => some clause
  | _ => none

theorem exists_gains_applyCommand {command : AlterCommand} (h : Unnamed (commandClause? command).toList)
    (change : Change) : ∃ change', (applyCommand default change command).result = .ok change' ∧
      GainsEntries default (commandClause? command).toList change.table change'.table := by
  cases command with
  | addConstraint clause =>
    refine ⟨{ change with table := added default clause change.table }, ?_, ?_⟩
    · unfold applyCommand
      rw [Logged.result_bind, result_addConstraint]
      rfl
    · exact gains_added (h clause List.mem_cons_self) change.table
  | rowSecurity enabled | attachPartition child bound | other label =>
    exact ⟨_, rfl, .of_constraints_eq rfl rfl rfl⟩

theorem exists_gains_applyCommands {commands : List AlterCommand} (h : Unnamed (commands.filterMap commandClause?))
    (change : Change) : ∃ change', (commands.foldlM (applyCommand default) change).result = .ok change' ∧
      GainsEntries default (commands.filterMap commandClause?) change.table change'.table := by
  induction commands generalizing change with
  | nil => exact ⟨change, rfl, .refl default change.table⟩
  | cons command commands ih =>
    have hclauses : (command :: commands).filterMap commandClause? =
        (commandClause? command).toList ++ commands.filterMap commandClause? := by
      rw [List.filterMap_cons]
      cases commandClause? command <;> rfl
    rw [hclauses] at h ⊢
    obtain ⟨hcommand, hcommands⟩ := unnamed_append.mp h
    obtain ⟨next, hnext, hgains⟩ := exists_gains_applyCommand hcommand change
    obtain ⟨last, hlast, hlater⟩ := ih hcommands next
    refine ⟨last, ?_, hgains.trans hlater⟩
    rw [List.foldlM_cons, Logged.result_bind, hnext]
    exact hlast

/-- The first free candidate is found after no more passes than there are entries, however many are allowed. Clauses
without a name are all taken, behind columns, among the elements of a table or in changes: each that a catalog keeps has
an entry of its own under that candidate, and the entries that were there are as before. -/
theorem unnamed_gain_entries (default : String) :
    (∀ (entries : Entries Constraint) (base : String) (limit : Nat), entries.size ≤ limit →
      IsFirstFree entries.names base (freeName entries.contains base limit)) ∧
    (∀ (t : Table) (clauses : List ConstraintClause), Unnamed clauses →
      ∃ t', (clauses.foldlM (addConstraint default) t).result = .ok t' ∧ GainsEntries default clauses t t') ∧
    (∀ (d : Draft) (elements : List TableElement), Unnamed (elements.flatMap clausesOf) →
      EndsAlike ((elements.filterMap withoutConstraints?).foldlM (addElement default) d).result
        (fun d' => GainsEntries default (elements.flatMap clausesOf) d.table d'.table)
        (elements.foldlM (addElement default) d).result) ∧
    (∀ (change : Change) (commands : List AlterCommand), Unnamed (commands.filterMap commandClause?) →
      ∃ change', (commands.foldlM (applyCommand default) change).result = .ok change' ∧
        GainsEntries default (commands.filterMap commandClause?) change.table change'.table) ∧
    ∀ (t t' : Table) (clauses : List ConstraintClause), GainsEntries default clauses t t' →
      t'.constraints.size =
        t.constraints.size + clauses.countP (fun clause => (baseName? t.name.spelled clause).isSome) ∧
      ∀ name c, t.constraints.get? name = some c → t'.constraints.get? name = some c := by
  refine ⟨?_, ?_, ?_, ?_, ?_⟩
  · intro entries base limit hlimit
    exact isFirstFree_freeName entries base hlimit
  · intro t clauses h
    exact ⟨_, result_addConstraints default clauses t, gains_foldl_added h t⟩
  · intro d elements h
    exact endsAlike_addElements h d d
  · intro change commands h
    exact exists_gains_applyCommands h change
  · intro t t' clauses h
    refine ⟨h.size_eq, ?_⟩
    intro name c hc
    exact h.get?_eq hc

/-- A table with two checks under names that are made for checks. -/
def checkedTable : Table :=
  let check (name : String) : String × Constraint := (name, { schema := "s", table := "t", name, kind := .check })
  { schema := "s", name := "t", constraints := .ofPairs [check "t_check", check "t_check2"] }

/-- Two checks and a primary key, none of them with a name. -/
def unnamedClauses : List ConstraintClause :=
  [{ rule := .check "a" }, { listed := ["c"], rule := .primaryKey }, { rule := .check "b" }]

/-- The numbers that the names in the table leave out are taken first. -/
theorem unnamed_between_checks : Unnamed unnamedClauses ∧
    ∃ t', (unnamedClauses.foldlM (addConstraint "public") checkedTable).result = .ok t' ∧
      t'.constraints.names = ["t_check", "t_check2", "t_check1", "t_pkey", "t_check3"] ∧
      t'.constraints.get? "t_check2" = checkedTable.constraints.get? "t_check2" := by
  have hunnamed : Unnamed unnamedClauses := by simp [Unnamed, unnamedClauses]
  obtain ⟨-, hclauses, -, -, hgains⟩ := unnamed_gain_entries "public"
  obtain ⟨t', ht', h⟩ := hclauses checkedTable _ hunnamed
  have hnames : (unnamedClauses.foldlM (addConstraint "public") checkedTable).result.map (·.constraints.names) =
      .ok ["t_check", "t_check2", "t_check1", "t_pkey", "t_check3"] := by decide +kernel
  rw [ht'] at hnames
  refine ⟨hunnamed, t', ht', Except.ok.inj hnames, ?_⟩
  cases hc : checkedTable.constraints.get? "t_check2" with
  | none => exact absurd hc (by decide +kernel)
  | some c => exact (hgains _ _ _ h).2 _ _ hc

end SchemaScript.Effect
