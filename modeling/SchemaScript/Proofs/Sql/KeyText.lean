import SchemaScript.Proofs.Sql.SequenceText

/-!
# Keys in statements

A key of a table is written behind a column or by itself, with its properties after it. Both readers give what is
written (`columnRules_key`, `tableConstraint_key`).
-/

namespace SchemaScript.Sql

/-! ## Words -/

/-- Names between parentheses; without a name there are no parentheses either. -/
def listTokens : List String → List Token
  | [] => []
  | name :: names =>
    .symbol "(" :: nameToken name :: ((names.flatMap fun n => [.symbol ",", nameToken n]) ++ [.symbol ")"])

def ReferentialAction.words : ReferentialAction → List String
  | noAction => ["no", "action"]
  | restrict => ["restrict"]
  | cascade => ["cascade"]
  | setNull => ["set", "null"]
  | setDefault => ["set", "default"]

/-- What to do on an update or a deletion, which is not said if it is nothing. -/
def ReferentialAction.tokens (event : String) (action : ReferentialAction) : List Token :=
  if action = .noAction then [] else .word "on" :: .word event :: action.words.map Token.word

def RelationName.path (relation : RelationName) : List String :=
  relation.schema.toList ++ [relation.name]

def Reference.tokens (reference : Reference) : List Token :=
  .word "references" :: (pathTokens reference.table.path ++ (listTokens reference.columns ++
    (reference.onUpdate.tokens "update" ++ reference.onDelete.tokens "delete")))

namespace Reader

def Property.words : Property → List String
  | .deferrable => ["deferrable"]
  | .notDeferrable => ["not", "deferrable"]
  | .deferred => ["initially", "deferred"]
  | .immediate => ["initially", "immediate"]
  | .enforced => ["enforced"]
  | .notEnforced => ["not", "enforced"]
  | .notValid => ["not", "valid"]
  | .noInherit => ["no", "inherit"]

def Property.tokens (p : Property) : List Token :=
  p.words.map Token.word

/-- What can stand behind a key: the rest of its statement, or a property of it. -/
def followers : List (Option Token) :=
  [none, some (.symbol ","), some (.symbol ")"), some (.symbol ";"), some (.word "deferrable"), some (.word "not"),
    some (.word "initially"), some (.word "enforced"), some (.word "no")]

/-- The key ends, or a property of it follows. -/
def Follows (rest : List Token) : Prop :=
  rest.head? ∈ followers

/-- The key ends with its properties. -/
def EndsKey (rest : List Token) : Prop :=
  rest.head? ∈ [none, some (.symbol ","), some (.symbol ")"), some (.symbol ";")]

section

variable {r : Rules} {names : List String} {rest more : List Token} {places : Nat → Nat × String}

theorem Follows.ne (h : Follows rest) {token : Token} (hother : some token ∉ followers) : rest.head? ≠ some token := by
  rintro heq
  exact hother (heq ▸ h)

theorem EndsKey.follows (h : EndsKey more) : Follows more := by
  unfold EndsKey at h
  unfold Follows followers
  simp only [List.mem_cons, List.not_mem_nil, or_false] at h ⊢
  tauto

theorem follows_properties (properties : List Property) (h : EndsKey more) :
    Follows (properties.flatMap Property.tokens ++ more) := by
  cases properties with
  | nil => exact h.follows
  | cons p properties => cases p <;> simp [Follows, followers, Property.tokens, Property.words]

/-! ## Lists of columns -/

theorem columnName_token {name : String} (h : name ≠ "") (places : Nat → Nat × String) (rest : List Token) :
    columnName (lexemesAt places (nameToken name :: rest)) = .ok (name, lexemesAt (fun i => places (i + 1)) rest) :=
  nameWith_token (nameOf?_nameToken h isColumnName_of_not_isReserved) places rest

/-- The names of a list, up to the parenthesis that closes it. -/
theorem list_names {name : String} (hname : name ≠ "") (hnames : ∀ n ∈ names, n ≠ "") (places : Nat → Nat × String)
    (rest : List Token) :
    ∃ places', list columnName (lexemesAt places
        (nameToken name :: ((names.flatMap fun n => [.symbol ",", nameToken n]) ++ .symbol ")" :: rest))) =
      .ok (name :: names, lexemesAt places' (.symbol ")" :: rest)) := by
  have hall : ∀ n ∈ name :: names, n ≠ "" := List.forall_mem_cons.mpr ⟨hname, hnames⟩
  have hitems : ∀ n ∈ name :: names, ReadsInList columnName [nameToken n] n := fun n hn next _ places more =>
    ⟨_, columnName_token (hall n hn) places (next :: more)⟩
  obtain ⟨places', hlist⟩ := list_items id hitems places rest
  rw [List.map_id] at hlist
  exact ⟨places', hlist⟩

theorem listTokens_cons (name : String) (names : List String) (rest : List Token) :
    listTokens (name :: names) ++ rest = .symbol "(" :: nameToken name ::
      ((names.flatMap fun n => [.symbol ",", nameToken n]) ++ .symbol ")" :: rest) := by
  simp [listTokens]

theorem list_tokens (hnonempty : names ≠ []) (hnames : ∀ n ∈ names, n ≠ "") (places : Nat → Nat × String)
    (rest : List Token) :
    ∃ places', parenthesized (list columnName) (lexemesAt places (listTokens names ++ rest)) =
      .ok (names, lexemesAt places' rest) := by
  obtain ⟨name, names, rfl⟩ := List.exists_cons_of_ne_nil hnonempty
  obtain ⟨hname, hnames⟩ := List.forall_mem_cons.mp hnames
  obtain ⟨places', hlist⟩ := list_names hname hnames (fun i => places (i + 1)) rest
  rw [listTokens_cons]
  exact ⟨_, bind_ok (a := ()) rfl (bind_ok hlist rfl)⟩

theorem keyColumns_tokens (hnonempty : names ≠ []) (hnames : ∀ n ∈ names, n ≠ "") (places : Nat → Nat × String)
    (rest : List Token) :
    ∃ places', keyColumns (lexemesAt places (listTokens names ++ rest)) = .ok (names, lexemesAt places' rest) := by
  obtain ⟨name, names, rfl⟩ := List.exists_cons_of_ne_nil hnonempty
  obtain ⟨hname, hnames⟩ := List.forall_mem_cons.mp hnames
  obtain ⟨places', hlist⟩ := list_names hname hnames (fun i => places (i + 1)) rest
  rw [listTokens_cons]
  exact ⟨_, bind_ok (a := ()) rfl (bind_ok (bind_ok hlist rfl) rfl)⟩

/-- The next column of a key that may have one for a period at its end. -/
def nextPeriodColumn (found : List String × Bool) : Reader (Option (List String × Bool)) := do
  let (columns, isClosed) := found
  if isClosed then return none
  unless ← acceptSymbol "," do return none
  if (← atWord "period") && (← isColumnNameAhead 1) then
    skip
    return some ((← columnName) :: columns, true)
  return some ((← columnName) :: columns, false)

theorem nextPeriodColumn_some {name : String} (hname : name ≠ "") (columns : List String) {more : List Token}
    (hmore : ∃ s rest, more = .symbol s :: rest) (places : Nat → Nat × String) :
    nextPeriodColumn (columns, false) (lexemesAt places (.symbol "," :: nameToken name :: more)) =
      .ok (some (name :: columns, false), lexemesAt (fun i => places (i + 2)) more) := by
  obtain ⟨s, rest, rfl⟩ := hmore
  have hahead (places : Nat → Nat × String) :
      isColumnNameAhead 1 (lexemesAt places (nameToken name :: .symbol s :: rest)) =
      .ok (false, lexemesAt places (nameToken name :: .symbol s :: rest)) := rfl
  have hcolumn := columnName_token hname (fun i => places (i + 1)) (.symbol s :: rest)
  obtain ⟨b, hword⟩ : ∃ b, atWord "period" (lexemesAt (fun i => places (i + 1)) (nameToken name :: .symbol s :: rest)) =
      .ok (b, lexemesAt (fun i => places (i + 1)) (nameToken name :: .symbol s :: rest)) := ⟨_, rfl⟩
  refine bind_ok (a := true) rfl (bind_ok hword (bind_ok (hahead _) ?_))
  rw [Bool.and_false]
  exact bind_ok hcolumn rfl

theorem exists_symbol_behind (names : List String) (rest : List Token) :
    ∃ s more, (names.flatMap fun n => [.symbol ",", nameToken n]) ++ .symbol ")" :: rest = .symbol s :: more := by
  cases names with
  | nil => exact ⟨_, _, rfl⟩
  | cons => exact ⟨_, _, rfl⟩

theorem repeatUpTo_period (rest : List Token) (hnames : ∀ n ∈ names, n ≠ "") {limit : Nat}
    (hlimit : names.length < limit)
    (places : Nat → Nat × String) (columns : List String) :
    ∃ places', repeatUpTo nextPeriodColumn limit (columns, false)
        (lexemesAt places ((names.flatMap fun n => [.symbol ",", nameToken n]) ++ .symbol ")" :: rest)) =
      .ok ((names.reverse ++ columns, false), lexemesAt places' (.symbol ")" :: rest)) := by
  induction names generalizing limit places columns with
  | nil =>
    obtain ⟨limit, rfl⟩ := Nat.exists_eq_add_one_of_ne_zero (Nat.ne_zero_of_lt hlimit)
    exact ⟨places, rfl⟩
  | cons name names ih =>
    obtain ⟨limit, rfl⟩ := Nat.exists_eq_add_one_of_ne_zero (Nat.ne_zero_of_lt hlimit)
    obtain ⟨hname, hnames⟩ := List.forall_mem_cons.mp hnames
    have hnext := nextPeriodColumn_some hname columns (exists_symbol_behind names rest) places
    obtain ⟨places', hlater⟩ := ih hnames (Nat.lt_of_succ_lt_succ hlimit) (fun i => places (i + 2)) (name :: columns)
    refine ⟨places', ?_⟩
    rw [List.reverse_cons, List.append_assoc, List.singleton_append]
    exact repeatUpTo_some hnext hlater

/-- Columns without a period are read as in any other list. -/
theorem periodColumns_tokens (hnonempty : names ≠ []) (hnames : ∀ n ∈ names, n ≠ "") (places : Nat → Nat × String)
    (rest : List Token) :
    ∃ places', periodColumns (lexemesAt places (listTokens names ++ rest)) = .ok (names, lexemesAt places' rest) := by
  obtain ⟨name, names, rfl⟩ := List.exists_cons_of_ne_nil hnonempty
  obtain ⟨hname, hnames⟩ := List.forall_mem_cons.mp hnames
  have hlimit : names.length < (lexemesAt (fun i => places (i + 2))
      ((names.flatMap fun n => [.symbol ",", nameToken n]) ++ .symbol ")" :: rest)).length + 1 := by
    have hshort : names.length ≤ (names.flatMap fun n => [.symbol ",", nameToken n]).length :=
      length_le_length_flatMap fun _ _ => List.cons_ne_nil _ _
    rw [length_lexemesAt, List.length_append]
    omega
  obtain ⟨places', hmore⟩ := repeatUpTo_period rest hnames hlimit (fun i => places (i + 2)) [name]
  have hcolumns := columnName_token hname (fun i => places (i + 1))
    ((names.flatMap fun n => [.symbol ",", nameToken n]) ++ .symbol ")" :: rest)
  have hall : names.reverse ++ [name] = (name :: names).reverse := List.reverse_cons.symm
  have hinOrder : (Except.ok ((name :: names).reverse.reverse, lexemesAt places' (.symbol ")" :: rest)) :
      Except Flaw (List String × List Lexeme)) = .ok (name :: names, lexemesAt places' (.symbol ")" :: rest)) :=
    congrArg (fun names => Except.ok (names, _)) (List.reverse_reverse (name :: names))
  rw [hall] at hmore
  rw [listTokens_cons]
  exact ⟨_, bind_ok (a := ()) rfl (bind_ok (bind_ok hcolumns (bind_ok hmore hinOrder)) rfl)⟩

/-! ## References -/

/-- Words are not there if the first of them is not. -/
theorem acceptWords_other {w : String} (h : rest.head? ≠ some (.word w)) (ws : List String) :
    acceptWords (w :: ws) (lexemesAt places rest) = .ok (false, lexemesAt places rest) := by
  have hat : atWords (w :: ws) (lexemesAt places rest) = .ok (false, lexemesAt places rest) := by
    refine congrArg (fun b => Except.ok (b, _)) ?_
    cases rest with
    | nil => rfl
    | cons token rest =>
      rw [beq_eq_false_iff_ne]
      intro heq
      have hfirst := (List.cons.inj heq).1
      exact h (congrArg some hfirst)
  exact test_false hat rfl

theorem referentialAction_tokens (action : ReferentialAction) (places : Nat → Nat × String) (rest : List Token) :
    ∃ places', referentialAction (lexemesAt places (action.words.map Token.word ++ rest)) =
      .ok (action, lexemesAt places' rest) := by
  cases action <;> exact ⟨_, rfl⟩

/-- The columns that an action is limited to are not there without a parenthesis. -/
theorem actionColumns_none (h : rest.head? ≠ some (.symbol "(")) (action : ReferentialAction) :
    actionColumns action (lexemesAt places rest) = .ok (none, lexemesAt places rest) := by
  cases action with
  | setNull | setDefault => exact test_false (isAt_other h places) rfl
  | _ => rfl

/-- The next action on an update or a deletion, if there is one. -/
def nextAction (state : Reference × Bool × Bool) : Reader (Option (Reference × Bool × Bool)) := do
  let (reference, hasUpdate, hasDelete) := state
  let at? ← place
  if ← both (!hasUpdate) (acceptWords ["on", "update"]) then
    let action ← referentialAction
    if (← actionColumns action).isSome then
      breach ("a column list with " ++ action.text ++
        " is only supported for ON DELETE actions") at?
    return some ({ reference with onUpdate := action }, true, hasDelete)
  if ← both (!hasDelete) (acceptWords ["on", "delete"]) then
    let action ← referentialAction
    let _ ← actionColumns action
    return some ({ reference with onDelete := action }, hasUpdate, true)
  if ← both (!(hasUpdate && hasDelete)) (acceptWord "on") then refuse
  return none

theorem both_false {b : Bool} {test : Reader Bool} {s : List Lexeme} (h : test s = .ok (false, s)) :
    both b test s = .ok (false, s) := by
  cases b with
  | false => rfl
  | true => exact h

theorem nextAction_update (h : rest.head? ≠ some (.symbol "(")) (action : ReferentialAction) (reference : Reference)
    (hasDelete : Bool) (places : Nat → Nat × String) :
    ∃ places', nextAction (reference, false, hasDelete)
        (lexemesAt places (.word "on" :: .word "update" :: (action.words.map Token.word ++ rest))) =
      .ok (some ({ reference with onUpdate := action }, true, hasDelete), lexemesAt places' rest) := by
  obtain ⟨places', haction⟩ := referentialAction_tokens action (fun i => places (i + 2)) rest
  exact ⟨places', bind_ok rfl (bind_ok (a := true) rfl (bind_ok haction (bind_ok (actionColumns_none h action) rfl)))⟩

theorem nextAction_delete (h : rest.head? ≠ some (.symbol "(")) (action : ReferentialAction) (reference : Reference)
    (hasUpdate : Bool) (places : Nat → Nat × String) :
    ∃ places', nextAction (reference, hasUpdate, false)
        (lexemesAt places (.word "on" :: .word "delete" :: (action.words.map Token.word ++ rest))) =
      .ok (some ({ reference with onDelete := action }, hasUpdate, true), lexemesAt places' rest) := by
  obtain ⟨places', haction⟩ := referentialAction_tokens action (fun i => places (i + 2)) rest
  have hupdate : both (!hasUpdate) (acceptWords ["on", "update"])
      (lexemesAt places (.word "on" :: .word "delete" :: (action.words.map Token.word ++ rest))) =
        .ok (false, lexemesAt places (.word "on" :: .word "delete" :: (action.words.map Token.word ++ rest))) :=
    both_false rfl
  exact ⟨places', bind_ok rfl (test_false hupdate (bind_ok (a := true) rfl
    (bind_ok haction (bind_ok (actionColumns_none h action) rfl))))⟩

theorem nextAction_none (h : rest.head? ≠ some (.word "on")) (state : Reference × Bool × Bool)
    (places : Nat → Nat × String) : nextAction state (lexemesAt places rest) = .ok (none, lexemesAt places rest) :=
  bind_ok rfl (test_false (both_false (acceptWords_other h _)) (test_false (both_false (acceptWords_other h _))
    (test_false (both_false (accept_other h places)) rfl)))

theorem repeatUpTo_delete (hrest : Follows rest) (reference : Reference) (hnothing : reference.onDelete = .noAction)
    (action : ReferentialAction) (hasUpdate : Bool) {limit : Nat} (hlimit : (action.tokens "delete").length < limit)
    (places : Nat → Nat × String) :
    ∃ hasDelete places', repeatUpTo nextAction limit (reference, hasUpdate, false)
        (lexemesAt places (action.tokens "delete" ++ rest)) =
      .ok (({ reference with onDelete := action }, hasUpdate, hasDelete), lexemesAt places' rest) := by
  have hend (state : Reference × Bool × Bool) (places : Nat → Nat × String) :=
    nextAction_none (hrest.ne (by decide)) state places
  unfold ReferentialAction.tokens at hlimit ⊢
  split
  · next hnone =>
    obtain ⟨limit, rfl⟩ := Nat.exists_eq_add_one_of_ne_zero (Nat.ne_zero_of_lt hlimit)
    refine ⟨false, places, bind_ok (hend _ places) ?_⟩
    rw [hnone, ← hnothing]
    rfl
  · next hsome =>
    obtain ⟨limit, rfl⟩ : ∃ more, limit = more + 2 := by
      rw [if_neg hsome, List.length_cons, List.length_cons] at hlimit
      exact ⟨limit - 2, by omega⟩
    obtain ⟨places', hread⟩ := nextAction_delete (hrest.ne (by decide)) action reference hasUpdate places
    exact ⟨true, places', repeatUpTo_some hread (bind_ok (hend _ places') rfl)⟩

/-- The actions behind a reference are read, whichever of them are said. -/
theorem referentialActions_tokens (hrest : Follows rest) (reference : Reference) (places : Nat → Nat × String) :
    ∃ places', referentialActions { table := reference.table, columns := reference.columns }
        (lexemesAt places (reference.onUpdate.tokens "update" ++ (reference.onDelete.tokens "delete" ++ rest))) =
      .ok (reference, lexemesAt places' rest) := by
  have hdelete : (reference.onDelete.tokens "delete" ++ rest).head? ≠ some (.symbol "(") := by
    unfold ReferentialAction.tokens
    split
    · exact hrest.ne (by decide)
    · simp
  have hboth : ∃ state places', repeated nextAction
      ({ table := reference.table, columns := reference.columns }, false, false)
      (lexemesAt places (reference.onUpdate.tokens "update" ++ (reference.onDelete.tokens "delete" ++ rest))) =
        .ok ((reference, state), lexemesAt places' rest) := by
    by_cases hupdate : reference.onUpdate = .noAction
    · have hnone : reference.onUpdate.tokens "update" = [] := if_pos hupdate
      rw [hnone, List.nil_append]
      have hlimit : (reference.onDelete.tokens "delete").length <
          (lexemesAt places (reference.onDelete.tokens "delete" ++ rest)).length + 1 := by
        rw [length_lexemesAt, List.length_append]
        omega
      obtain ⟨hasDelete, places', hread⟩ := repeatUpTo_delete hrest
        { table := reference.table, columns := reference.columns } rfl reference.onDelete false hlimit places
      have hsame :
          ({ table := reference.table, columns := reference.columns, onDelete := reference.onDelete } : Reference) =
            reference := by
        rw [← hupdate]
      rw [hsame] at hread
      exact ⟨_, places', hread⟩
    · have hsome : reference.onUpdate.tokens "update" =
          .word "on" :: .word "update" :: reference.onUpdate.words.map Token.word := if_neg hupdate
      rw [hsome]
      obtain ⟨places', hread⟩ := nextAction_update hdelete reference.onUpdate
        { table := reference.table, columns := reference.columns } false places
      have hlimit : (reference.onDelete.tokens "delete").length < (lexemesAt places (.word "on" :: .word "update" ::
          (reference.onUpdate.words.map Token.word ++ (reference.onDelete.tokens "delete" ++ rest)))).length := by
        rw [length_lexemesAt, List.length_cons, List.length_cons, List.length_append, List.length_append]
        omega
      obtain ⟨hasDelete, places'', hlater⟩ := repeatUpTo_delete hrest
        { table := reference.table, columns := reference.columns, onUpdate := reference.onUpdate } rfl
        reference.onDelete true hlimit places'
      exact ⟨_, places'', repeatUpTo_some hread hlater⟩
  obtain ⟨state, places', hread⟩ := hboth
  exact ⟨places', bind_ok hread rfl⟩

/-- The names of a reference are not empty. -/
structure IsNamed (reference : Reference) : Prop where
  table : ∀ n ∈ reference.table.path, n ≠ ""
  columns : ∀ n ∈ reference.columns, n ≠ ""

theorem ofPath_path (relation : RelationName) : RelationName.ofPath relation.path = relation := by
  cases relation with
  | mk schema name => cases schema <;> rfl

/-- Behind a reference's columns come its actions, or the key's properties. -/
theorem actions_ne (hrest : Follows rest) (reference : Reference) {token : Token} (hon : token ≠ .word "on")
    (hother : some token ∉ followers) :
    (reference.onUpdate.tokens "update" ++ (reference.onDelete.tokens "delete" ++ rest)).head? ≠ some token := by
  unfold ReferentialAction.tokens
  split
  · split
    · exact hrest.ne hother
    · simpa using Ne.symm hon
  · simpa using Ne.symm hon

/-- A reference is read, with either way to read its columns. -/
theorem reference_tokens (r : Rules) {columns : Reader (List String)}
    (hcolumns : ∀ names : List String, names ≠ [] → (∀ n ∈ names, n ≠ "") → ∀ places rest, ∃ places',
      columns (lexemesAt places (listTokens names ++ rest)) = .ok (names, lexemesAt places' rest))
    {reference : Reference} (hnamed : IsNamed reference) (hrest : Follows rest) (places : Nat → Nat × String) :
    ∃ places', Reader.reference r columns (lexemesAt places (reference.tokens ++ rest)) =
      .ok (reference, lexemesAt places' rest) := by
  have hactions (token : Token) (hon : token ≠ .word "on") (hother : some token ∉ followers) :=
    actions_ne hrest reference hon hother
  have hbehind : EndsParts (listTokens reference.columns ++
      (reference.onUpdate.tokens "update" ++ (reference.onDelete.tokens "delete" ++ rest))) := by
    cases reference.columns with
    | nil => exact ⟨hactions _ (by decide) (by decide), hactions _ (by decide) (by decide)⟩
    | cons name names => constructor <;> simp [listTokens]
  have hlength : reference.table.path.length ≤ 3 := by
    unfold RelationName.path
    cases reference.table.schema <;> simp
  obtain ⟨places₁, htable⟩ := relationName_tokens (r := r) (by simp [RelationName.path]) hnamed.table hlength hbehind
    fun i => places (i + 1)
  rw [ofPath_path] at htable
  have hmatch := hactions (.word "match") (by decide) (by decide)
  unfold Reference.tokens
  rw [List.cons_append, List.append_assoc, List.append_assoc, List.append_assoc]
  by_cases hnone : reference.columns = []
  · rw [hnone] at htable ⊢
    have hopen := hactions (.symbol "(") (by decide) (by decide)
    obtain ⟨places₂, hdone⟩ := referentialActions_tokens hrest reference places₁
    rw [hnone] at hdone
    exact ⟨places₂, bind_ok (a := ()) rfl (bind_ok htable (test_false (isAt_other hopen places₁)
      (bind_ok rfl (bind_ok rfl (test_false (accept_other hmatch places₁) hdone)))))⟩
  · obtain ⟨places₂, hread⟩ := hcolumns _ hnone hnamed.columns places₁
      (reference.onUpdate.tokens "update" ++ (reference.onDelete.tokens "delete" ++ rest))
    obtain ⟨places₃, hdone⟩ := referentialActions_tokens hrest reference places₂
    have hopen : atSymbol "(" (lexemesAt places₁ (listTokens reference.columns ++
        (reference.onUpdate.tokens "update" ++ (reference.onDelete.tokens "delete" ++ rest)))) =
        .ok (true, lexemesAt places₁ (listTokens reference.columns ++
          (reference.onUpdate.tokens "update" ++ (reference.onDelete.tokens "delete" ++ rest)))) := by
      obtain ⟨name, names, hcons⟩ := List.exists_cons_of_ne_nil hnone
      rw [hcons]
      rfl
    exact ⟨places₃, bind_ok (a := ()) rfl (bind_ok htable (bind_ok hopen
      (bind_ok hread (bind_ok rfl (test_false (accept_other hmatch places₂) hdone)))))⟩

/-! ## Properties -/

theorem property_tokens (p : Property) : ReadsItem property p.tokens p := fun places rest => by
  cases p <;> exact ⟨_, rfl⟩

/-- Behind a column a property can be read that a table's constraint can have too. -/
def Property.isColumns : Property → Bool
  | .notValid | .noInherit => false
  | _ => true

theorem EndsKey.ne (h : EndsKey more) {w : String} : more.head? ≠ some (.word w) := by
  rintro heq
  unfold EndsKey at h
  rw [heq] at h
  simp at h

theorem columnProperty_none (h : EndsKey more) : EndsItems columnProperty more := fun places =>
  test_false (accept_other h.ne places) (test_false (accept_other h.ne places) (test_false (accept_other h.ne places)
    (test_false (acceptWords_other h.ne _) (test_false (acceptWords_other h.ne _) rfl))))

theorem property_none (h : EndsKey more) : EndsItems property more := fun places =>
  bind_ok (columnProperty_none h places)
    (test_false (accept_other h.ne places) (test_false (accept_other h.ne places) rfl))

theorem conflict?_eq_none_iff {all : List Property} : Property.conflict? all = none ↔
    ¬ (.notDeferrable ∈ all ∧ .deferred ∈ all) ∧ ¬ (.notDeferrable ∈ all ∧ .deferrable ∈ all) ∧
      ¬ (.immediate ∈ all ∧ .deferred ∈ all) ∧ ¬ (.enforced ∈ all ∧ .notEnforced ∈ all) := by
  simp only [Property.conflict?, ← List.contains_iff_mem, ← Bool.and_eq_true]
  split
  · simp_all
  · split
    · simp_all
      tauto
    · simp_all

/-- Fewer properties contradict each other less. -/
theorem conflict?_of_subset {fewer all : List Property} (hsubset : fewer ⊆ all) (h : Property.conflict? all = none) :
    Property.conflict? fewer = none := by
  rw [conflict?_eq_none_iff] at h ⊢
  have hboth {a b : Property} (hall : ¬ (a ∈ all ∧ b ∈ all)) : ¬ (a ∈ fewer ∧ b ∈ fewer) :=
    fun hfewer => hall ⟨hsubset hfewer.1, hsubset hfewer.2⟩
  exact ⟨hboth h.1, hboth h.2.1, hboth h.2.2.1, hboth h.2.2.2⟩

/-- The next property, which may not contradict those before it. -/
def nextProperty (found : List Property) : Reader (Option (List Property)) := do
  let at? ← place
  let some p ← property | return none
  let found := p :: found
  match Property.conflict? found with
  | some text => breach text at?
  | none => return some found

theorem repeatUpTo_properties (hmore : EndsKey more) {all found : List Property}
    (hcompatible : Property.conflict? (all.reverse ++ found) = none) {limit : Nat} (hlimit : all.length < limit)
    (places : Nat → Nat × String) :
    ∃ places', repeatUpTo nextProperty limit found (lexemesAt places (all.flatMap Property.tokens ++ more)) =
      .ok (all.reverse ++ found, lexemesAt places' more) := by
  induction all generalizing limit found places with
  | nil =>
    obtain ⟨limit, rfl⟩ := Nat.exists_eq_add_one_of_ne_zero (Nat.ne_zero_of_lt hlimit)
    exact ⟨places, bind_ok (bind_ok rfl (bind_ok (property_none hmore places) rfl)) rfl⟩
  | cons p all ih =>
    obtain ⟨limit, rfl⟩ := Nat.exists_eq_add_one_of_ne_zero (Nat.ne_zero_of_lt hlimit)
    rw [List.reverse_cons, List.append_assoc, List.singleton_append] at hcompatible ⊢
    obtain ⟨places', hread⟩ := property_tokens p places (all.flatMap Property.tokens ++ more)
    obtain ⟨places'', hlater⟩ := ih hcompatible (Nat.lt_of_succ_lt_succ hlimit) places'
    have hfound : Property.conflict? (p :: found) = none :=
      conflict?_of_subset (List.subset_append_right _ _) hcompatible
    have hnext : nextProperty found (lexemesAt places (p.tokens ++ (all.flatMap Property.tokens ++ more))) =
        .ok (some (p :: found), lexemesAt places' (all.flatMap Property.tokens ++ more)) := by
      refine bind_ok rfl (bind_ok hread ?_)
      dsimp only
      rw [hfound]
      rfl
    rw [List.flatMap_cons, List.append_assoc]
    exact ⟨places'', repeatUpTo_some hnext hlater⟩

theorem properties_tokens (hmore : EndsKey more) {all : List Property} (hcompatible : Property.conflict? all = none)
    (places : Nat → Nat × String) :
    ∃ places', properties (lexemesAt places (all.flatMap Property.tokens ++ more)) =
      .ok (all.reverse, lexemesAt places' more) := by
  have hlimit : all.length < (lexemesAt places (all.flatMap Property.tokens ++ more)).length + 1 := by
    have hshort : all.length ≤ (all.flatMap Property.tokens).length :=
      length_le_length_flatMap fun p _ => by cases p <;> exact List.cons_ne_nil _ _
    rw [length_lexemesAt, List.length_append]
    omega
  have hreversed : Property.conflict? (all.reverse ++ []) = none :=
    conflict?_of_subset (by simp) hcompatible
  obtain ⟨places', hread⟩ := repeatUpTo_properties hmore hreversed hlimit places
  rw [List.append_nil] at hread
  exact ⟨places', hread⟩

/-- Properties are read that a constraint of this kind can have. -/
theorem propertiesOf_tokens (hmore : EndsKey more) {kind : String} {allowed all : List Property}
    (hcompatible : Property.conflict? all = none) (hallowed : Property.fault? kind allowed all.reverse = none)
    (places : Nat → Nat × String) :
    ∃ places', propertiesOf kind allowed (lexemesAt places (all.flatMap Property.tokens ++ more)) =
      .ok (all.reverse, lexemesAt places' more) := by
  obtain ⟨places', hread⟩ := properties_tokens hmore hcompatible places
  refine ⟨places', bind_ok rfl (bind_ok hread ?_)⟩
  have hcheck : checkProperties kind allowed all.reverse ((lexemesAt places
      (all.flatMap Property.tokens ++ more)).head?.map (·.offset)) (lexemesAt places' more) =
        .ok ((), lexemesAt places' more) := by
    unfold checkProperties
    rw [hallowed]
    rfl
  exact bind_ok hcheck rfl

end

end Reader

/-! ## Keys -/

/-- What kind of key a key is. -/
inductive KeyKind
  | primaryKey
  | unique
  | references (reference : Reference)
  deriving DecidableEq

/-- A key as it is written, apart from its columns. -/
structure ColumnKey where
  name : Option String := none
  kind : KeyKind
  /-- When it is checked, among others. -/
  properties : List Reader.Property := []

def KeyKind.rule (deferrable initiallyDeferred : Bool) : KeyKind → ConstraintRule
  | .primaryKey => .primaryKey
  | .unique => .unique
  | .references reference => .references reference deferrable initiallyDeferred

namespace ColumnKey

/-- The rules that a key makes behind a column. Each property is a rule of its own. -/
def behind (key : ColumnKey) (column : String) : List ColumnRule :=
  .constraint { name := key.name, column := some column, rule := key.kind.rule false false } ::
    key.properties.map fun p => .constraint { column := some column, rule := .other (Reader.propertyLabel p) }

/-- The constraint that a key makes by itself. -/
def byItself (key : ColumnKey) (column : String) : ConstraintClause where
  name := key.name
  listed := [column]
  rule := key.kind.rule (Reader.isDeferrable key.properties) (key.properties.contains .deferred)

/-- The constraint that a key of several columns makes by itself. -/
def listing (key : ColumnKey) (columns : List String) : ConstraintClause :=
  { key.byItself "" with listed := columns }

def nameTokens (key : ColumnKey) : List Token :=
  (key.name.map fun name => [.word "constraint", nameToken name]).getD []

def propertyTokens (key : ColumnKey) : List Token :=
  key.properties.flatMap Reader.Property.tokens

end ColumnKey

/-- The words of a key behind its column. -/
def KeyKind.behindTokens : KeyKind → List Token
  | .primaryKey => [.word "primary", .word "key"]
  | .unique => [.word "unique"]
  | .references reference => reference.tokens

/-- The words of a key that stands by itself. -/
def KeyKind.ownTokens (columns : List String) : KeyKind → List Token
  | .primaryKey => [.word "primary", .word "key"] ++ listTokens columns
  | .unique => .word "unique" :: listTokens columns
  | .references reference => [.word "foreign", .word "key"] ++ (listTokens columns ++ reference.tokens)

/-- The names of the key are not empty. -/
structure ColumnKey.IsNamed (key : ColumnKey) : Prop where
  name : ∀ n ∈ key.name, n ≠ ""
  reference : ∀ reference, key.kind = .references reference → Reader.IsNamed reference

namespace Reader

section

variable {r : Rules} {key : ColumnKey} {column : String} {columns : List String} {rest more : List Token}

theorem keyStorage_none (h : Follows rest) (places : Nat → Nat × String) :
    keyStorage r (lexemesAt places rest) = .ok ((), lexemesAt places rest) := by
  have htablespace : indexTablespace (lexemesAt places rest) = .ok ((), lexemesAt places rest) :=
    test_false (test_false (accept_other (h.ne (by decide)) places) rfl) rfl
  exact test_false (accept_other (h.ne (by decide)) places) htablespace

theorem namedRule_tokens (r : Rules) (name : Option String) (column : String) {kind : KeyKind}
    (hnamed : ∀ reference, kind = .references reference → IsNamed reference) (h : Follows rest)
    (places : Nat → Nat × String) :
    ∃ places', namedRule r name column (lexemesAt places (kind.behindTokens ++ rest)) =
      .ok (some (.constraint { name, column := some column, rule := kind.rule false false }),
        lexemesAt places' rest) := by
  cases kind with
  | primaryKey =>
    exact ⟨_, bind_ok (a := false) rfl (bind_ok (a := some "primary") rfl (bind_ok (a := ()) rfl
      (bind_ok (keyStorage_none h _) rfl)))⟩
  | unique =>
    have hnulls (places : Nat → Nat × String) :
        nullsDistinct (lexemesAt places rest) = .ok ((), lexemesAt places rest) :=
      test_false (accept_other (h.ne (by decide)) places) rfl
    exact ⟨_, bind_ok (a := false) rfl (bind_ok (a := some "unique") rfl (bind_ok (hnulls _)
      (bind_ok (keyStorage_none h _) rfl)))⟩
  | references reference =>
    obtain ⟨places', hread⟩ := reference_tokens r (fun _ => list_tokens) (hnamed reference rfl) h places
    exact ⟨places', bind_ok (a := false) rfl (bind_ok (a := none) rfl (bind_ok (a := true) rfl (bind_ok hread rfl)))⟩

/-- The key itself is what is read first behind its column. -/
theorem columnClause_key (r : Rules) (column : String) (hnamed : key.IsNamed) (h : Follows rest)
    (places : Nat → Nat × String) :
    ∃ places', columnClause r column (lexemesAt places (key.nameTokens ++ (key.kind.behindTokens ++ rest))) =
      .ok (some (.rule (.constraint { name := key.name, column := some column, rule := key.kind.rule false false })),
        lexemesAt places' rest) := by
  unfold ColumnKey.nameTokens
  cases hname : key.name with
  | some name =>
    have hcolumn := columnName_token (hnamed.name name hname) (fun i => places (i + 1)) (key.kind.behindTokens ++ rest)
    obtain ⟨places', hread⟩ := namedRule_tokens r (some name) column hnamed.reference h fun i => places (i + 2)
    exact ⟨places', bind_ok (a := true) rfl (bind_ok hcolumn (bind_ok hread rfl))⟩
  | none =>
    obtain ⟨places', hread⟩ := namedRule_tokens r none column hnamed.reference h places
    have hfirst {w : String} (hw : w ∉ ["primary", "unique", "references"]) :
        (key.kind.behindTokens ++ rest).head? ≠ some (.word w) := by
      simp only [List.mem_cons, List.not_mem_nil, or_false, not_or] at hw
      cases key.kind <;> simp [KeyKind.behindTokens, Reference.tokens, Ne.symm hw.1, Ne.symm hw.2.1, Ne.symm hw.2.2]
    exact ⟨places', test_false (accept_other (hfirst (by decide)) places) (bind_ok rfl
      (test_false (accept_other (hfirst (by decide)) places) (bind_ok hread rfl)))⟩

theorem columnClause_property (r : Rules) (column : String) {p : Property} (h : p.isColumns) :
    ReadsItem (columnClause r column) p.tokens
      (.rule (.constraint { column := some column, rule := .other (propertyLabel p) })) := fun places rest => by
  cases p with
  | notValid | noInherit => contradiction
  | _ => exact ⟨_, rfl⟩

theorem acceptAny_none (h : EndsKey more) (ws : List String) (places : Nat → Nat × String) :
    acceptAny ws (lexemesAt places more) = .ok (none, lexemesAt places more) := by
  induction ws with
  | nil => rfl
  | cons w ws ih => exact test_false (accept_other h.ne places) ih

theorem columnClause_none (r : Rules) (column : String) (h : EndsKey more) : EndsItems (columnClause r column) more :=
    fun places => by
  have hword (w : String) (places : Nat → Nat × String) :
      acceptWord w (lexemesAt places more) = .ok (false, lexemesAt places more) := accept_other h.ne places
  have hrule : namedRule r none column (lexemesAt places more) = .ok (none, lexemesAt places more) :=
    test_false (acceptWords_other h.ne _) (bind_ok (acceptAny_none h _ places)
      (test_false (isAt_other h.ne places) rfl))
  exact test_false (hword _ places) (bind_ok rfl (test_false (hword _ places) (bind_ok hrule
    (bind_ok (columnProperty_none h places) (test_false (hword _ places) rfl)))))

theorem rulesOf_rules (rules : List ColumnRule) (s : List Lexeme) :
    rulesOf (rules.map ColumnClause.rule) s = .ok (rules, s) := by
  unfold rulesOf
  simp only [List.filterMap_map, Function.comp_def, List.filterMap_none, List.filterMap_some]
  rfl

/-- A key behind a column is read as the rules that it makes there. -/
theorem columnRules_key (r : Rules) (column : String) (hnamed : key.IsNamed)
    (hproperties : ∀ p ∈ key.properties, p.isColumns) (hmore : EndsKey more) (places : Nat → Nat × String) :
    ∃ places', columnRules r column (lexemesAt places
        (key.nameTokens ++ (key.kind.behindTokens ++ (key.propertyTokens ++ more)))) =
      .ok (key.behind column, lexemesAt places' more) := by
  have hfollows : Follows (key.propertyTokens ++ more) := follows_properties key.properties hmore
  obtain ⟨places₁, hkey⟩ := columnClause_key r column hnamed hfollows places
  have hlimit : key.properties.length < (lexemesAt places
      (key.nameTokens ++ (key.kind.behindTokens ++ (key.propertyTokens ++ more)))).length := by
    have hshort : key.properties.length ≤ key.propertyTokens.length :=
      length_le_length_flatMap fun p _ => by cases p <;> exact List.cons_ne_nil _ _
    have hkind : 0 < key.kind.behindTokens.length := by
      cases key.kind <;> simp [KeyKind.behindTokens, Reference.tokens]
    rw [length_lexemesAt, List.length_append, List.length_append, List.length_append]
    omega
  obtain ⟨places₂, hproperties⟩ := repeatUpTo_tokens
    (fun p hp => columnClause_property r column (hproperties p hp)) (columnClause_none r column hmore) hlimit places₁
    [.rule (.constraint { name := key.name, column := some column, rule := key.kind.rule false false })]
  have hclauses := repeatUpTo_some (bind_ok hkey rfl) hproperties
  refine ⟨places₂, bind_ok (bind_ok hclauses rfl) ?_⟩
  rw [List.reverse_append, List.reverse_reverse]
  refine Eq.trans (congrArg (fun clauses => rulesOf clauses _) ?_) (rulesOf_rules (key.behind column) _)
  simp [ColumnKey.behind, Function.comp_def]

/-! ### Keys by themselves -/

/-- The kinds of properties that a key of this kind can have by itself. -/
def ownProperties : KeyKind → List Property
  | .primaryKey | .unique => [.deferrable]
  | .references _ => [.deferrable, .notValid, .enforced, .notEnforced]

/-- How a key of this kind is called where it cannot have a property. -/
def ownLabel : KeyKind → String
  | .primaryKey => "PRIMARY KEY"
  | .unique => "UNIQUE"
  | .references _ => "FOREIGN KEY"

/-- The properties can stand behind a key by itself. -/
structure Fits (key : ColumnKey) : Prop where
  compatible : Property.conflict? key.properties = none
  allowed : Property.fault? (ownLabel key.kind) (ownProperties key.kind) key.properties.reverse = none

theorem isDeferrable_reverse (all : List Property) : isDeferrable all.reverse = isDeferrable all := by
  simp [isDeferrable]

theorem keyOrIndex_tokens (r : Rules) {names : List String} (hnonempty : names ≠ []) (hnames : ∀ n ∈ names, n ≠ "")
    (h : Follows rest) (places : Nat → Nat × String) :
    ∃ places', keyOrIndex r (lexemesAt places (listTokens names ++ rest)) = .ok (names, lexemesAt places' rest) := by
  obtain ⟨places', hread⟩ := keyColumns_tokens hnonempty hnames places rest
  have hincluded : includedColumns (lexemesAt places' rest) = .ok ((), lexemesAt places' rest) :=
    test_false (accept_other (h.ne (by decide)) places') rfl
  have husing : acceptPhrase ["using", "index"] (lexemesAt places (listTokens names ++ rest)) =
      .ok (false, lexemesAt places (listTokens names ++ rest)) := by
    obtain ⟨name, names, rfl⟩ := List.exists_cons_of_ne_nil hnonempty
    rfl
  exact ⟨places', test_false husing (bind_ok hread (bind_ok hincluded (bind_ok (keyStorage_none h places') rfl)))⟩

theorem constraintBody_key (r : Rules) (hnamed : key.IsNamed) (hnonempty : columns ≠ [])
    (hcolumns : ∀ n ∈ columns, n ≠ "") (hfits : Fits key) (hmore : EndsKey more) (places : Nat → Nat × String) :
    ∃ places', constraintBody r key.name
        (lexemesAt places (key.kind.ownTokens columns ++ (key.propertyTokens ++ more))) =
      .ok (key.listing columns, lexemesAt places' more) := by
  have hfollows : Follows (key.propertyTokens ++ more) := follows_properties key.properties hmore
  have hallowed := hfits.allowed
  unfold ColumnKey.listing ColumnKey.byItself
  cases hkind : key.kind with
  | primaryKey =>
    obtain ⟨places₁, hlist⟩ := keyOrIndex_tokens r hnonempty hcolumns hfollows fun i => places (i + 2)
    rw [hkind] at hallowed
    obtain ⟨places₂, hproperties⟩ := propertiesOf_tokens hmore hfits.compatible hallowed places₁
    exact ⟨places₂, bind_ok (a := false) rfl (bind_ok (a := false) rfl (bind_ok (a := false) rfl
      (bind_ok (a := true) rfl (bind_ok (a := ()) rfl (bind_ok hlist (bind_ok hproperties rfl))))))⟩
  | unique =>
    obtain ⟨places₁, hlist⟩ := keyOrIndex_tokens r hnonempty hcolumns hfollows fun i => places (i + 1)
    rw [hkind] at hallowed
    obtain ⟨places₂, hproperties⟩ := propertiesOf_tokens hmore hfits.compatible hallowed places₁
    obtain ⟨name, names, rfl⟩ := List.exists_cons_of_ne_nil hnonempty
    exact ⟨places₂, bind_ok (a := false) rfl (bind_ok (a := false) rfl (bind_ok (a := true) rfl
      (bind_ok (a := false) rfl (bind_ok (a := ()) rfl (bind_ok (a := true) rfl
        (bind_ok hlist (bind_ok hproperties rfl)))))))⟩
  | references reference =>
    obtain ⟨places₁, hlist⟩ := periodColumns_tokens hnonempty hcolumns (fun i => places (i + 2))
      (reference.tokens ++ (key.propertyTokens ++ more))
    obtain ⟨places₂, hreference⟩ :=
      reference_tokens r (fun _ => periodColumns_tokens) (hnamed.reference reference hkind)
      hfollows places₁
    rw [hkind] at hallowed
    obtain ⟨places₃, hproperties⟩ := propertiesOf_tokens hmore hfits.compatible hallowed places₂
    have hdeferred : key.properties.reverse.contains Property.deferred = key.properties.contains .deferred := by simp
    rw [KeyKind.ownTokens, List.append_assoc, List.append_assoc]
    refine ⟨places₃, bind_ok (a := false) rfl (bind_ok (a := false) rfl (bind_ok (a := false) rfl
      (bind_ok (a := false) rfl (bind_ok (a := false) rfl (bind_ok (a := ()) rfl (bind_ok (a := ()) rfl
        (bind_ok hlist (bind_ok hreference (bind_ok hproperties ?_)))))))))⟩
    rw [isDeferrable_reverse, hdeferred]
    rfl

/-- A key by itself is read as the constraint that it makes. -/
theorem tableConstraint_key (r : Rules) (hnamed : key.IsNamed) (hnonempty : columns ≠ [])
    (hcolumns : ∀ n ∈ columns, n ≠ "") (hfits : Fits key) (hmore : EndsKey more) (places : Nat → Nat × String) :
    ∃ places', tableConstraint r (lexemesAt places
        (key.nameTokens ++ (key.kind.ownTokens columns ++ (key.propertyTokens ++ more)))) =
      .ok (key.listing columns, lexemesAt places' more) := by
  unfold ColumnKey.nameTokens
  cases hname : key.name with
  | some name =>
    have hname' := columnName_token (hnamed.name name hname) (fun i => places (i + 1))
      (key.kind.ownTokens columns ++ (key.propertyTokens ++ more))
    obtain ⟨places', hread⟩ := constraintBody_key r hnamed hnonempty hcolumns hfits hmore fun i => places (i + 2)
    rw [hname] at hread
    exact ⟨places', bind_ok (bind_ok (a := true) rfl (bind_ok hname' rfl)) hread⟩
  | none =>
    obtain ⟨places', hread⟩ := constraintBody_key r hnamed hnonempty hcolumns hfits hmore places
    rw [hname] at hread
    have hnone : afterWord "constraint" columnName (lexemesAt places
        (key.kind.ownTokens columns ++ (key.propertyTokens ++ more))) =
          .ok (none, lexemesAt places (key.kind.ownTokens columns ++ (key.propertyTokens ++ more))) := by
      cases key.kind <;> rfl
    exact ⟨places', bind_ok hnone hread⟩

end

end Reader
end SchemaScript.Sql
