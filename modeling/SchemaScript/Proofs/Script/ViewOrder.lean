import SchemaScript.Proofs.Script.Coverage
import SchemaScript.Proofs.Script.KeyPlacement
import SchemaScript.Proofs.Text.Basic
import Mathlib.Data.List.SplitBy

/-!
# The order of views

A view comes after the views whose names occur somewhere in its query. That is more than the views it uses, whose names
stand there as whole identifiers. So if nothing is mentioned in a circle, all views that are used come first, and
otherwise only the order of names is left, whether or not views use each other in a circle (`views_in_order`).
-/

namespace SchemaScript

/-! ## Identifiers in a text -/

namespace Text

/-- A letter, a digit, an underscore or a dollar sign. -/
def isIdentifierChar (c : Char) : Bool :=
  isWordChar c || c == '$'

/-- The longest runs of characters of identifiers. -/
def identifiers (s : String) : List String :=
  ((s.toList.splitBy fun a b => isIdentifierChar a == isIdentifierChar b).filter
    (·.all isIdentifierChar)).map String.ofList

theorem infix_of_mem_identifiers {s word : String} (h : word ∈ identifiers s) :
    word.toList <:+: s.toList := by
  obtain ⟨run, hrun, rfl⟩ := List.mem_map.mp h
  have hinfix := List.infix_of_mem_flatten (List.mem_of_mem_filter hrun)
  rwa [List.flatten_splitBy, ← String.toList_ofList (l := run)] at hinfix

theorem lower_infix {s part : String} (hs : 'Σ' ∉ s.toList) (h : part.toList <:+: s.toList) :
    (lower part).toList <:+: (lower s).toList := by
  have hpart : 'Σ' ∉ part.toList := fun hmem => hs (h.subset hmem)
  rw [toList_lower hs, toList_lower hpart]
  obtain ⟨front, rest, hs⟩ := h
  exact ⟨front.flatMap lowerChar, rest.flatMap lowerChar, by simp only [← hs, List.flatMap_append]⟩

end Text

/-! ## Views that are used and views that are mentioned -/

namespace Schema

variable {s : Schema} {names : List String} {name other : String}

/-- The name of another view of the schema stands in the query of the view `name` as an identifier, in any letter
case. -/
def Uses (s : Schema) (name other : String) : Prop :=
  other ≠ name ∧ s.views.contains other ∧ ∃ v, s.views.get? name = some v ∧
    ∃ word ∈ Text.identifiers (v.definition.givenOr ""), Text.lower word = Text.lower other

/-- No query has a capital sigma, of which the lower case depends on what stands around it. -/
def IsPlain (s : Schema) : Prop :=
  ∀ name v, s.views.get? name = some v → 'Σ' ∉ (v.definition.givenOr "").toList

theorem Uses.mentions (h : s.Uses name other) (hplain : s.IsPlain) : s.Mentions name other := by
  obtain ⟨hne, hcontains, v, hv, word, hword, hlower⟩ := h
  refine ⟨hne, hcontains, v, hv, ?_⟩
  rw [← hlower]
  exact Text.lower_infix (hplain name v hv) (Text.infix_of_mem_identifiers hword)

/-- Views can be sorted if their queries can be searched. -/
theorem sortViews_ends_iff :
    s.sortViews.Ends ↔ ∀ v ∈ s.views.sortedValues, v.definition.needText = .ok () := by
  rw [← forM_eq_ok]
  constructor
  · rintro ⟨names, h⟩
    exact (Logged.result_check_bind_eq_ok.mp h).1
  · intro h
    exact ⟨_, Logged.result_check_bind_eq_ok.mpr ⟨h, rfl⟩⟩

theorem names_of_sortViews (h : s.sortViews.result = .ok names) :
    names = (Order.topological s.views.names s.viewEdges).names := by
  obtain ⟨-, h⟩ := Logged.result_check_bind_eq_ok.mp h
  exact (Except.ok.inj h).symm

theorem effective_viewEdges_iff :
    Order.Effective s.views.names s.viewEdges other name ↔ s.Mentions name other := by
  constructor
  · exact fun h => mem_viewEdges_iff.mp h.2.2.2
  · intro h
    have hedge := mem_viewEdges_iff.mpr h
    obtain ⟨hne, hcontains, v, hv, -⟩ := h
    exact ⟨Entries.contains_iff_mem_names.mp hcontains,
      Entries.contains_iff_mem_names.mp (Entries.contains_of_get? hv), hne, hedge⟩

/-- No query mentions its own view, directly or through the queries of others. -/
def MentionsNoCircle (s : Schema) : Prop :=
  ∀ name, ¬ Relation.TransGen s.Mentions name name

theorem acyclic_viewEdges_iff :
    Order.Acyclic s.views.names s.viewEdges ↔ s.MentionsNoCircle := by
  have hswap : Order.Effective s.views.names s.viewEdges = Function.swap s.Mentions := by
    funext a b
    exact propext effective_viewEdges_iff
  unfold Order.Acyclic MentionsNoCircle
  simp only [hswap, Relation.transGen_swap]

/-- What is said about the order of the views' names. -/
structure OrdersViews (s : Schema) (names : List String) : Prop where
  once : names.Nodup
  all : ∀ name, name ∈ names ↔ s.views.contains name
  mentionedFirst : s.MentionsNoCircle → ∀ a b, s.Mentions a b → [b, a].Sublist names
  usedFirst : s.MentionsNoCircle → s.IsPlain → ∀ a b, s.Uses a b → [b, a].Sublist names
  byName : ¬ s.MentionsNoCircle → names.Pairwise (· < ·)

theorem ordersViews (h : s.sortViews.result = .ok names) : s.OrdersViews names := by
  have hall (name : String) : name ∈ names ↔ s.views.contains name := mem_sortViews h
  obtain rfl := names_of_sortViews h
  have hmentioned (hcircle : s.MentionsNoCircle) (a b : String) (hab : s.Mentions a b) :
      [b, a].Sublist (Order.topological s.views.names s.viewEdges).names := by
    have horder := Order.topological_pairwise (acyclic_viewEdges_iff.mpr hcircle)
    have hedge := effective_viewEdges_iff.mpr hab
    have hmem {n : String} (hn : n ∈ s.views.names) :
        n ∈ (Order.topological s.views.names s.viewEdges).names := Order.mem_topological.mpr hn
    rcases Diff.sublist_or_sublist (hmem hedge.1) (hmem hedge.2.1) hedge.2.2.1 with hsub | hsub
    · exact hsub
    · exact absurd hedge.2.2.2 (List.pairwise_iff_forall_sublist.mp horder hsub)
  refine ⟨?_, hall, hmentioned, fun hcircle hplain a b hab => ?_, fun hcircle => ?_⟩
  · exact (Order.topological_perm _ _).nodup_iff.mpr (Order.nodup_sortedSet _)
  · exact hmentioned hcircle a b (hab.mentions hplain)
  · rw [Order.topological_of_cyclic (mt acyclic_viewEdges_iff.mp hcircle)]
    exact Order.pairwise_lt_sortedSet _

end Schema

namespace Diff

variable {p : Pair} {old new : Catalog} {target : Option String} {x y : Piece} {own ps : List Piece}
  {names : List String} {a b : String}

/-! ## In a whole script -/

/-- The views of the two pieces stand in this order among the names. -/
def InViewOrder (p : Pair) (names : List String) (x y : Piece) : Prop :=
  ∀ a b, x.tag = p.tag .view a → y.tag = p.tag .view b → [a, b].Sublist names

theorem pairwise_views (hnames : p.schema.sortViews.result = .ok names)
    (h : (views p).result = .ok own) : own.Pairwise (InViewOrder p names) := by
  obtain ⟨sorted, hsorted, h⟩ := Logged.result_bind_eq_ok.mp h
  obtain rfl := Except.ok.inj (hnames.symm.trans hsorted)
  have hself : names.Pairwise fun a b => [a, b].Sublist names :=
    List.pairwise_iff_forall_sublist.mpr fun hsub => hsub
  have htag {name n : String} {own : List Piece} (hown : (view p name).result = .ok own) {x : Piece}
      (hx : x ∈ own) (hn : x.tag = p.tag .view n) : n = name :=
    (Tag.object.inj (hn.symm.trans (yields_view p name own hown x hx).1)).2.2
  refine pairwise_collect (hself.sublist List.filter_sublist) h (fun name _ own hown => ?_) ?_
  · unfold view at hown
    split at hown
    · obtain ⟨rfl⟩ := hown
      exact List.Pairwise.nil
    · obtain ⟨-, rfl⟩ := emit_eq_ok.mp hown
      split
      · exact List.Pairwise.nil
      · exact List.pairwise_singleton _ _
  · intro m n hmn own other hown hother x hx y hy a b ha hb
    rw [htag hown hx ha, htag hother hy hb]
    exact hmn

theorem pieces_inViewOrder (hp : p ∈ pairs old new (Text.given target))
    (hnames : p.schema.sortViews.result = .ok names) (h : (pieces old new target).result = .ok ps) :
    ps.Pairwise (InViewOrder p names) := by
  obtain ⟨own, before, after, hown, rfl, hothers⟩ := exists_passScript .view hp h
  refine pairwise_between (pairwise_views hnames hown) hothers ?_
  intro x y hxy a b ha hb
  rcases hxy with hx | hy
  · exact absurd ha (hx a)
  · exact absurd hb (hy b)

/-- The statements of two views stand in the order in which their names do. -/
def FollowsNames (p : Pair) (names : List String) (ps : List Piece) : Prop :=
  ∀ (i j : Nat) (x y : Piece) (a b : String), ps[i]? = some x → ps[j]? = some y →
    x.tag = p.tag .view a → y.tag = p.tag .view b → (i < j ↔ [a, b].Sublist names)

theorem followsNames (hp : p ∈ pairs old new (Text.given target))
    (hnames : p.schema.sortViews.result = .ok names) (h : (pieces old new target).result = .ok ps) :
    FollowsNames p names ps := by
  intro i j x y a b hi hj ha hb
  have horder := pieces_inViewOrder hp hnames h
  have honce := (Schema.ordersViews hnames).once
  constructor
  · exact fun hlt => rel_of_lt horder hi hj hlt a b ha hb
  · intro hsub
    refine lt_of_pairwise horder hi hj ?_ fun hback => ?_
    · rintro rfl
      obtain rfl : a = b := (Tag.object.inj (ha.symm.trans hb)).2.2
      exact not_swapped honce hsub hsub
    · exact not_swapped honce hsub (hback b a hb ha)

/-- Views are sorted whenever their queries are texts. All views that are mentioned, and so all that are used, come
first if no view is mentioned in a circle, and otherwise the names alone decide; a script keeps to that order. -/
theorem views_in_order (s : Schema) :
    (s.sortViews.Ends ↔ ∀ v ∈ s.views.sortedValues, v.definition.needText = .ok ()) ∧
    (∀ names, s.sortViews.result = .ok names → s.OrdersViews names) ∧
    ∀ old new target, ∀ p ∈ pairs old new (Text.given target), p.schema = s →
      ∀ ps, (pieces old new target).result = .ok ps →
        ∃ names, s.sortViews.result = .ok names ∧ FollowsNames p names ps := by
  refine ⟨Schema.sortViews_ends_iff, fun names => Schema.ordersViews, ?_⟩
  rintro old new target p hp rfl ps h
  obtain ⟨own, -, -, hown, -, -⟩ := exists_passScript .view hp h
  obtain ⟨names, hnames, -⟩ := Logged.result_bind_eq_ok.mp hown
  exact ⟨names, hnames, followsNames hp hnames h⟩

/-- The digest takes its rows from the issues. -/
def press : Schema where
  name := "press"
  views := .ofPairs
    [("digest", { schema := "press", name := "digest", definition := "SELECT title FROM Issues" }),
     ("issues", { schema := "press", name := "issues", definition := "SELECT 'First' AS title" })]

def pressPair : Pair where
  key := "press"
  schema := press
  old := none
  target := some "press"

def pressScript : List Piece :=
  [{ tag := pressPair.tag .view "issues", kind := .view, name := "issues", schema := "-",
     text := "CREATE VIEW issues AS\nSELECT 'First' AS title;" },
   { tag := pressPair.tag .view "digest", kind := .view, name := "digest", schema := "-",
     text := "CREATE VIEW digest AS\nSELECT title FROM Issues;" }]

theorem press_mentions {name other : String} (h : press.Mentions name other) :
    name = "digest" ∧ other = "issues" := by
  have hedges : press.viewEdges = [⟨"issues", "digest"⟩] := by decide +kernel
  have hedge := Schema.mem_viewEdges_iff.mpr h
  rw [hedges, List.mem_singleton, Order.Edge.mk.injEq] at hedge
  exact hedge.symm

theorem press_issues_first :
    (pieces {} { schemas := .ofPairs [("press", press)] } (some "press")).result = .ok pressScript ∧
      press.Uses "digest" "issues" ∧
      ∃ names, press.sortViews.result = .ok names ∧ ["issues", "digest"].Sublist names ∧
        FollowsNames pressPair names pressScript := by
  have hp : pressPair ∈ pairs {} { schemas := .ofPairs [("press", press)] } (some "press") := by
    decide +kernel
  have hscript : (pieces {} { schemas := .ofPairs [("press", press)] } (some "press")).result =
      .ok pressScript := by decide +kernel
  have huses : press.Uses "digest" "issues" :=
    ⟨by decide, by decide +kernel, _, rfl, "Issues", by decide +kernel, by decide +kernel⟩
  have hqueries : ∀ entry ∈ press.views.pairs, 'Σ' ∉ (entry.2.definition.givenOr "").toList := by
    decide +kernel
  have hplain : press.IsPlain := fun name v hv =>
    hqueries (name, v) (Entries.get?_eq_some_iff.mp hv)
  have hcircle : press.MentionsNoCircle := Order.acyclic_of_single (by decide) fun _ _ => press_mentions
  obtain ⟨-, hsorted, hpieces⟩ := views_in_order press
  obtain ⟨names, hnames, hfollows⟩ := hpieces _ _ _ _ hp rfl _ hscript
  exact ⟨hscript, huses, names, hnames, (hsorted _ hnames).usedFirst hcircle hplain _ _ huses, hfollows⟩

/-- The topics come from the backlog, whose name has that of the log in it. -/
def newsroom : Schema where
  name := "newsroom"
  views := .ofPairs
    [("log", { schema := "newsroom", name := "log", definition := "SELECT * FROM topics" }),
     ("topics", { schema := "newsroom", name := "topics", definition := "SELECT id FROM backlog" })]

theorem newsroom_uses {name other : String} (h : newsroom.Uses name other) :
    name = "log" ∧ other = "topics" := by
  have hall : ∀ entry ∈ newsroom.views.pairs, ∀ other ∈ newsroom.views.names, other ≠ entry.1 →
      (∃ word ∈ Text.identifiers (entry.2.definition.givenOr ""), Text.lower word = Text.lower other) →
      entry.1 = "log" ∧ other = "topics" := by decide +kernel
  obtain ⟨hne, hcontains, v, hv, hword⟩ := h
  exact hall (name, v) (Entries.get?_eq_some_iff.mp hv) other (Entries.contains_iff_mem_names.mp hcontains)
    hne hword

/-- That nothing is used in a circle is not enough: the log comes before the topics that it uses. -/
theorem newsroom_log_first :
    ¬ ∀ s : Schema, (∀ a, ¬ Relation.TransGen s.Uses a a) → ∀ names, s.sortViews.result = .ok names →
      ∀ a b, s.Uses a b → [b, a].Sublist names := by
  intro hclaim
  have hnames : newsroom.sortViews.result = .ok ["log", "topics"] := by decide +kernel
  have huses : newsroom.Uses "log" "topics" :=
    ⟨by decide, by decide +kernel, _, rfl, "topics", by decide +kernel, by decide +kernel⟩
  have hfirst := hclaim newsroom (Order.acyclic_of_single (by decide) fun _ _ => newsroom_uses) _ hnames _ _ huses
  exact absurd hfirst (by decide)

end Diff
end SchemaScript
