import SchemaScript.Proofs.Ddl.Needs
import SchemaScript.Proofs.Script.Coverage
import SchemaScript.Proofs.Script.KeyPlacement

/-!
# Objects that other objects need

Passes decide which of two objects of different kinds comes first. So a statement comes after the objects that it
needs unless its own pass is the earlier one, which is so for four kinds of references (`needed_first_iff`): an
extension's schema, the rows of tables and views as types, and the function of a trigger.
-/

namespace SchemaScript

/-- The place of the pass in which the statement is written. -/
def Subject.rank : Subject → Nat
  | extension _ => 0
  | schema _ => 1
  | type _ => ObjectKind.type.rank
  | sequence _ => ObjectKind.sequence.rank
  | table _ | rowSecurity _ | constraint _ | index _ | trigger _ | policy _ => ObjectKind.table.rank
  | view _ => ObjectKind.view.rank
  | function _ => ObjectKind.function.rank
  | aggregate _ => ObjectKind.aggregate.rank
  | procedure _ => ObjectKind.procedure.rank

namespace Diff

variable {p : Pair} {old new : Catalog} {target : Option String} {kind : ObjectKind} {s : Subject}
  {x y : Piece} {ps : List Piece}

/-! ## Statements in the order of passes -/

theorem InSchema.rank_eq (h : InSchema p new kind s x) : s.rank = kind.rank := by
  cases h with
  | table _ part =>
    cases part with
    | self => rfl
    | owned _ owned => cases owned <;> rfl
  | type | sequence | view | function | aggregate | procedure => rfl

theorem Covers.rank_tag (h : Covers old new target s x) : x.tag.rank = s.rank := by
  cases h with
  | extension => rfl
  | schema => rfl
  | inSchema hp hheld =>
    obtain ⟨key, htag⟩ := hheld.exists_tag
    rw [htag, Pair.rank_tag, hheld.rank_eq]

/-- Of two statements of different passes the one of the earlier pass comes first. -/
theorem lt_iff_rank_lt (h : (pieces old new target).result = .ok ps) {i j : Nat}
    (hi : ps[i]? = some x) (hj : ps[j]? = some y) (hne : x.tag.rank ≠ y.tag.rank) :
    i < j ↔ x.tag.rank < y.tag.rank := by
  have hranked := pieces_ranked h
  constructor
  · intro hlt
    have hle := rel_of_lt hranked hi hj hlt
    omega
  · intro hlt
    refine lt_of_pairwise hranked hi hj (fun he => hne (by rw [he])) fun hback => ?_
    omega

/-- Whatever is written because of a table comes after the statement that creates it. -/
theorem created_first (h : (pieces old new target).result = .ok ps) {i j : Nat} (hi : ps[i]? = some x)
    (hj : ps[j]? = some y) (hcreates : x.createsTable) (htag : x.tag = y.tag) (hne : x ≠ y) : i < j := by
  have hkind : x.kind = .table := by
    unfold Piece.createsTable at hcreates
    exact eq_of_beq (Bool.and_eq_true_iff.mp hcreates).1
  have hmem := List.mem_of_getElem? hi
  have hbrings := (yields_pieces old new target ps h x hmem).wellFormed.kind
  have hattachment : x.isAttachment = false := by simp [Piece.isAttachment, hkind]
  obtain ⟨-, s, hcovers⟩ := (mem_pieces_iff h hattachment).mp hmem
  cases hcovers with
  | extension => simp [extensionPiece] at hkind
  | schema => simp [schemaPiece] at hkind
  | @inSchema p kind s x hp hheld =>
    obtain ⟨name, hname⟩ := hheld.exists_tag
    have htable : kind = .table := by
      rw [hkind, hname, Pair.pieceKinds_tag] at hbrings
      revert hbrings
      cases kind <;> decide
    subst htable
    have hfirst : ps.Pairwise (InOrder p (· ≠ ·)) := by
      refine pieces_inOrder_of hp h fun walk hwalk => ?_
      exact (walkTables_completed hwalk).sane.nodup
    refine lt_of_pairwise hfirst hi hj hne fun hback => ?_
    rcases hback name name (htag.symm.trans hname) hname with hself | ⟨-, hother⟩
    · exact hself rfl
    · simp [hcreates] at hother

/-! ## What a statement needs -/

/-- What is ahead of a needed object is so because of its kind alone. -/
theorem rank_lt_iff_isAhead {tag : Tag} (hneeds : s.Needs tag) (hne : tag.rank ≠ s.rank) :
    tag.rank < s.rank ↔ s.isAhead tag = false := by
  cases hneeds with
  | schema named =>
    cases s with
    | schema => exact absurd rfl hne
    | extension => simp [Subject.isAhead, Subject.rank]
    | _ => simp [Subject.isAhead, Subject.rank, Tag.rank, ObjectKind.rank]
  | @type schema kind key text hasRows field named =>
    have hrank : (Tag.object schema kind key).rank = kind.rank := rfl
    rw [hrank] at hne ⊢
    clear hrank
    cases s with
    | type | table | function | aggregate =>
      dsimp only [Subject.rank, Subject.isAhead] at hne ⊢
      revert hasRows hne
      clear field named
      cases kind <;> decide
    | _ => exact absurd field List.not_mem_nil
  | @function schema key text field named =>
    cases s with
    | trigger | aggregate => simp [Subject.isAhead, Subject.rank, Tag.rank]; decide
    | _ => exact absurd field List.not_mem_nil

/-- A statement comes after an object of another kind that it needs unless it is ahead of all objects of that kind;
and whatever is written because of a table comes after the table's creation. -/
theorem needed_first_iff (h : (pieces old new target).result = .ok ps) {i j : Nat}
    (hi : ps[i]? = some x) (hj : ps[j]? = some y) :
    (∀ s, Covers old new target s y → s.Needs x.tag → x.tag.rank ≠ y.tag.rank →
      (i < j ↔ s.isAhead x.tag = false)) ∧
    (x.createsTable → x.tag = y.tag → x ≠ y → i < j) := by
  refine ⟨fun s hcovers hneeds hne => ?_, created_first h hi hj⟩
  rw [lt_iff_rank_lt h hi hj hne]
  rw [hcovers.rank_tag] at hne ⊢
  exact rank_lt_iff_isAhead hneeds hne

/-- The function of this trigger is created by the same script. -/
def stamped : Trigger where
  schema := "workshop"
  table := "tools"
  name := "stamped"
  timing := .before
  events := [.insert]
  function := "stamp()"

def tools : Table where
  schema := "workshop"
  name := "tools"
  columns := [{ name := "state", position := (1 : Int), dataType := "grade" }]
  triggers := .ofPairs [("stamped", stamped)]

def workshop : Schema where
  name := "workshop"
  types := .ofPairs [("grade", { schema := "workshop", name := "grade", labels := ["fine"] })]
  tables := .ofPairs [("tools", tools)]
  functions := .ofPairs [("stamp",
    { schema := "workshop", name := "stamp", returnType := "trigger", language := "plpgsql",
      definition := "begin return new; end" })]

def workshopPair : Pair where
  key := "workshop"
  schema := workshop
  old := none
  target := some "workshop"

def workshopScript : List Piece :=
  [{ tag := workshopPair.tag .type "grade", kind := .type, name := "grade", schema := "-",
     text := "CREATE TYPE grade AS ENUM (\n    'fine'\n);" },
   { tag := workshopPair.tag .table "tools", kind := .table, name := "tools", schema := "-",
     text := "CREATE TABLE tools (\n    state grade\n);" },
   { tag := workshopPair.tag .table "tools", kind := .trigger, name := "stamped", schema := "-",
     text := "CREATE TRIGGER stamped BEFORE INSERT ON tools FOR EACH ROW EXECUTE FUNCTION stamp();" },
   { tag := workshopPair.tag .function "stamp", kind := .function, name := "stamp()", schema := "-",
     text := "CREATE OR REPLACE FUNCTION stamp()\nRETURNS trigger\nLANGUAGE plpgsql\n" ++
       "AS $$begin return new; end$$;" }]

/-- The table comes after the type of its column and before its trigger, which comes before its function. -/
theorem workshop_function_late :
    (pieces {} { schemas := .ofPairs [("workshop", workshop)] } (some "workshop")).result =
        .ok workshopScript ∧
      (Subject.table tools).Needs workshopScript[0].tag ∧
      (Subject.trigger stamped).Needs workshopScript[3].tag ∧
      (Subject.table tools).isAhead workshopScript[0].tag = false ∧
      (Subject.trigger stamped).isAhead workshopScript[3].tag ≠ false := by
  have hscript : (pieces {} { schemas := .ofPairs [("workshop", workshop)] } (some "workshop")).result =
      .ok workshopScript := by decide +kernel
  have hp : workshopPair ∈ pairs {} { schemas := .ofPairs [("workshop", workshop)] } (some "workshop") := by
    decide +kernel
  have hvisited : Visits workshopPair { schemas := .ofPairs [("workshop", workshop)] } "tools" tools :=
    ⟨by decide +kernel, .root (by decide +kernel) (by decide +kernel), by decide +kernel⟩
  have htable : Covers {} { schemas := .ofPairs [("workshop", workshop)] } (some "workshop")
      (.table tools) workshopScript[1] := .inSchema hp (.table hvisited .self)
  have htrigger : Covers {} { schemas := .ofPairs [("workshop", workshop)] } (some "workshop")
      (.trigger stamped) workshopScript[2] :=
    .inSchema hp (.table hvisited (.owned (by decide +kernel) (.trigger (by decide +kernel))))
  have htype : (Subject.table tools).Needs workshopScript[0].tag :=
    .type (by decide) (by decide +kernel) (.element (.bare (.inl rfl)))
  have hcall : Sql.NamesFunction "workshop" "stamp" ("stamp" ++ "(" ++ "" ++ ")") :=
    .call (.bare (.inl rfl))
  have hfunction : (Subject.trigger stamped).Needs workshopScript[3].tag :=
    .function (by decide +kernel) hcall
  obtain ⟨htype_first, -⟩ := needed_first_iff hscript (i := 0) (j := 1) rfl rfl
  obtain ⟨hfunction_late, -⟩ := needed_first_iff hscript (i := 3) (j := 2) rfl rfl
  refine ⟨hscript, htype, hfunction, (htype_first _ htable htype (by decide)).mp (by decide), fun hnot => ?_⟩
  exact absurd ((hfunction_late _ htrigger hfunction (by decide)).mpr hnot) (by decide)

end Diff
end SchemaScript
