import SchemaScript.Ddl.Routine
import SchemaScript.Proofs.Ddl.Incomplete
import SchemaScript.Proofs.Text.Basic
import Mathlib.Data.List.Induction

/-!
# Parentheses around an expression

A parenthesis that stands in quotes opens and closes nothing (`Nesting`). Whether one pair is around an expression
already is judged by the count of all parentheses, those in quotes with them (`isWrapped_iff`). So a balanced
expression ends up between one pair unless it only looks as if it stood there (`isEnclosed_wrapped_iff`); with no
parenthesis in quotes it always does.
-/

namespace SchemaScript.Ddl

/-! ## Quotes and open parentheses -/

/-- The quotes in which a place of an expression stands. -/
inductive Quoting
  | outside
  | text
  | name
  deriving DecidableEq

/-- Behind one more character. Quotes that are closed and opened again stand for one inside. -/
def Quoting.behind (q : Quoting) (c : Char) : Quoting :=
  match q with
  | outside => if c = '\'' then text else if c = '"' then name else outside
  | text => if c = '\'' then outside else text
  | name => if c = '"' then outside else name

/-- How many parentheses are open at a place, and in which quotes it stands. -/
structure Nesting where
  depth : Nat := 0
  quoting : Quoting := .outside
  deriving DecidableEq

namespace Nesting

/-- Behind one more character, unless it closes what is not open. -/
def behind? (n : Nesting) (c : Char) : Option Nesting :=
  if n.quoting = .outside ∧ c = '(' then some { n with depth := n.depth + 1 }
  else if n.quoting = .outside ∧ c = ')' then
    if n.depth = 0 then none else some { n with depth := n.depth - 1 }
  else some { n with quoting := n.quoting.behind c }

/-- Behind a whole text. -/
def after? : Nesting → List Char → Option Nesting
  | n, [] => some n
  | n, c :: r => (n.behind? c).bind fun m => m.after? r

/-- What stands behind the parenthesis that closes the last one that is open. -/
def partner? : Nesting → List Char → Option (List Char)
  | _, [] => none
  | n, c :: r => (n.behind? c).bind fun m => if m.depth = 0 then some r else m.partner? r

/-- Within one more pair of parentheses. -/
def deeper (n : Nesting) : Nesting :=
  { n with depth := n.depth + 1 }

end Nesting

/-- Outside of quotes the parentheses are balanced, and all quotes are closed. -/
def isBalanced (s : List Char) : Bool :=
  Nesting.after? {} s == some {}

/-- The first character is a parenthesis, and the one that closes it is the last character. -/
def isEnclosed : List Char → Bool
  | '(' :: r => Nesting.partner? { depth := 1 } r == some []
  | _ => false

section

variable {n m : Nesting} {s t r rest : List Char} {c : Char}

namespace Nesting

@[simp] theorem depth_deeper (n : Nesting) : n.deeper.depth = n.depth + 1 := rfl

/-- One pair further in, the same happens but where the pair itself is closed. -/
theorem behind?_deeper (n : Nesting) (c : Char) : n.deeper.behind? c =
    if n = {} ∧ c = ')' then some {} else (n.behind? c).map deeper := by
  obtain ⟨depth, quoting⟩ := n
  unfold behind? deeper
  by_cases hopen : quoting = .outside ∧ c = '('
  · obtain ⟨rfl, rfl⟩ := hopen
    simp
  · by_cases hclose : quoting = .outside ∧ c = ')'
    · obtain ⟨rfl, rfl⟩ := hclose
      rcases depth with _ | depth <;> simp
    · have houter : ¬ ((⟨depth, quoting⟩ : Nesting) = {} ∧ c = ')') := by
        rintro ⟨hn, hc⟩
        exact hclose ⟨congrArg Nesting.quoting hn, hc⟩
      rw [if_neg houter, if_neg hopen, if_neg hclose, if_neg hopen, if_neg hclose]
      rfl

theorem after?_append (n : Nesting) (s t : List Char) :
    n.after? (s ++ t) = (n.after? s).bind fun m => m.after? t := by
  induction s generalizing n with
  | nil => rfl
  | cons c s ih =>
    rw [List.cons_append, after?, after?, Option.bind_assoc]
    exact congrArg _ (funext ih)

theorem after?_deeper (h : n.after? s = some m) : n.deeper.after? s = some m.deeper := by
  induction s generalizing n with
  | nil =>
    obtain rfl := Option.some.inj h
    rfl
  | cons c s ih =>
    obtain ⟨k, hk, h⟩ := Option.bind_eq_some_iff.mp h
    have hinside : ¬ (n = {} ∧ c = ')') := by
      rintro ⟨rfl, rfl⟩
      contradiction
    rw [after?, behind?_deeper, if_neg hinside, hk, Option.map_some, Option.bind_some, ih h]

/-- Up to the parenthesis that closes a pair, the text is balanced by itself. -/
theorem partner?_deeper_iff : n.deeper.partner? s = some rest ↔
    ∃ body, s = body ++ ')' :: rest ∧ n.after? body = some {} := by
  induction s generalizing n with
  | nil => simp [partner?]
  | cons c s ih =>
    rw [partner?, behind?_deeper]
    by_cases hclose : n = {} ∧ c = ')'
    · obtain ⟨rfl, rfl⟩ := hclose
      rw [if_pos ⟨rfl, rfl⟩, Option.bind_some, if_pos rfl, Option.some.injEq]
      constructor
      · rintro rfl
        exact ⟨[], rfl, rfl⟩
      · rintro ⟨body, htext, hbody⟩
        rcases body with _ | ⟨b, body⟩
        · exact (List.cons.inj htext).2
        · obtain ⟨rfl, -⟩ := List.cons.inj htext
          contradiction
    · rw [if_neg hclose]
      constructor
      · intro h
        obtain ⟨inner, hinner, h⟩ := Option.bind_eq_some_iff.mp h
        obtain ⟨m, hbehind, rfl⟩ := Option.map_eq_some_iff.mp hinner
        rw [depth_deeper, if_neg (Nat.succ_ne_zero _)] at h
        obtain ⟨body, rfl, hbody⟩ := ih.mp h
        exact ⟨c :: body, rfl, by rw [after?, hbehind, Option.bind_some, hbody]⟩
      · rintro ⟨body, htext, hbody⟩
        rcases body with _ | ⟨b, body⟩
        · exact absurd ⟨Option.some.inj hbody, (List.cons.inj htext).1⟩ hclose
        · obtain ⟨rfl, rfl⟩ := List.cons.inj htext
          obtain ⟨m, hm, hbody⟩ := Option.bind_eq_some_iff.mp hbody
          rw [hm, Option.map_some, Option.bind_some, depth_deeper, if_neg (Nat.succ_ne_zero _)]
          exact ih.mpr ⟨body, rfl, hbody⟩

end Nesting

theorem isEnclosed_iff : isEnclosed s ↔ ∃ body, s = '(' :: (body ++ [')']) ∧ isBalanced body := by
  have hinner (r : List Char) : Nesting.partner? { depth := 1 } r = some [] ↔
      ∃ body, r = body ++ [')'] ∧ Nesting.after? {} body = some {} :=
    Nesting.partner?_deeper_iff (n := {})
  unfold isEnclosed
  split
  · next r => simp [hinner, isBalanced]
  · next hother =>
    refine ⟨fun h => absurd h (by simp), ?_⟩
    rintro ⟨body, rfl, -⟩
    exact (hother _ rfl).elim

theorem isBalanced_of_isEnclosed (h : isEnclosed s) : isBalanced s := by
  obtain ⟨body, rfl, hbody⟩ := isEnclosed_iff.mp h
  have hinner : Nesting.after? { depth := 1 } body = some { depth := 1 } :=
    Nesting.after?_deeper (beq_iff_eq.mp hbody)
  have houter : Nesting.after? {} ('(' :: (body ++ [')'])) = Nesting.after? { depth := 1 } (body ++ [')']) := rfl
  rw [isBalanced, houter, Nesting.after?_append, hinner]
  rfl

/-! ## Blanks around an expression -/

theorem not_blank_of_mark (h : Text.isBlank c) : c ≠ '(' ∧ c ≠ ')' ∧ c ≠ '\'' ∧ c ≠ '"' := by
  refine ⟨?_, ?_, ?_, ?_⟩ <;> (rintro rfl; contradiction)

theorem Quoting.behind_blank (q : Quoting) (h : Text.isBlank c) : q.behind c = q := by
  obtain ⟨-, -, htext, hname⟩ := not_blank_of_mark h
  cases q <;> simp [behind, htext, hname]

namespace Nesting

theorem behind?_blank (n : Nesting) (h : Text.isBlank c) : n.behind? c = some n := by
  obtain ⟨hopen, hclose, -, -⟩ := not_blank_of_mark h
  rw [behind?, if_neg fun hc => hopen hc.2, if_neg fun hc => hclose hc.2, Quoting.behind_blank _ h]

theorem after?_blanks (n : Nesting) (h : ∀ c ∈ s, Text.isBlank c) : n.after? s = some n := by
  induction s with
  | nil => rfl
  | cons c s ih =>
    obtain ⟨hc, hs⟩ := List.forall_mem_cons.mp h
    rw [after?, n.behind?_blank hc, Option.bind_some, ih hs]

end Nesting

theorem isBalanced_trim (s : List Char) : isBalanced (Text.trim s) = isBalanced s := by
  obtain ⟨front, back, hs, hfront, hback⟩ := Text.exists_trim s
  have hblanks : (fun n : Nesting => n.after? back) = some := funext fun n => n.after?_blanks hback
  have hrun : Nesting.after? {} s = Nesting.after? {} (Text.trim s) := by
    rw [hs, Nesting.after?_append, Nesting.after?_blanks _ hfront, Option.bind_some, Nesting.after?_append, hblanks,
      Option.bind_fun_some, ← hs]
  rw [isBalanced, isBalanced, hrun]

/-! ## Parentheses that are counted wherever they stand -/

/-- With those in quotes counted, the parentheses that are opened are not all closed before the end. -/
structure LooksEnclosed (s : List Char) : Prop where
  opens : s.head? = some '('
  closes : s.getLast? = some ')'
  before : ∀ front rest, s = front ++ rest → front ≠ [] → rest ≠ [] → front.count ')' < front.count '('

/-- A parenthesis that is not the last character closes all that are open. -/
def ClosesAll (depth : Int) (s : List Char) : Prop :=
  ∃ front rest, s = front ++ ')' :: rest ∧ rest ≠ [] ∧ depth + front.count '(' = front.count ')' + 1

theorem not_closesAll_nil (depth : Int) : ¬ ClosesAll depth [] := by
  simp [ClosesAll]

theorem closesAll_cons (depth : Int) : ClosesAll depth (c :: r) ↔
    c = ')' ∧ r ≠ [] ∧ depth = 1 ∨ ClosesAll (depth + [c].count '(' - [c].count ')') r := by
  constructor
  · rintro ⟨front, rest, htext, hrest, hcount⟩
    rcases front with _ | ⟨d, front⟩
    · obtain ⟨rfl, rfl⟩ := List.cons.inj htext
      exact .inl ⟨rfl, hrest, by simpa using hcount⟩
    · obtain ⟨rfl, rfl⟩ := List.cons.inj htext
      rw [← List.singleton_append, List.count_append, List.count_append] at hcount
      exact .inr ⟨front, rest, rfl, hrest, by omega⟩
  · rintro (⟨rfl, hr, rfl⟩ | ⟨front, rest, rfl, hrest, hcount⟩)
    · exact ⟨[], r, rfl, hr, by simp⟩
    · refine ⟨c :: front, rest, rfl, hrest, ?_⟩
      rw [← List.singleton_append, List.count_append, List.count_append]
      omega

theorem closesEarly_iff (depth : Int) : closesEarly depth s ↔ ClosesAll depth s := by
  fun_induction closesEarly depth s with
  | case1 depth => simpa using not_closesAll_nil depth
  | case2 depth c =>
    rw [closesAll_cons]
    simp [not_closesAll_nil]
  | case3 depth c r hr hopen ih =>
    obtain rfl := beq_iff_eq.mp hopen
    rw [closesAll_cons, or_iff_right (by simp)]
    simpa using ih
  | case4 depth c r hr hopen hclose ih =>
    obtain rfl := beq_iff_eq.mp hclose
    rw [closesAll_cons, Bool.or_eq_true]
    refine or_congr ?_ (by simpa using ih)
    have hlast : depth - 1 = 0 ↔ depth = 1 := by omega
    simpa [hlast] using fun _ => hr
  | case5 depth c r hr hopen hclose ih =>
    rw [beq_iff_eq] at hopen hclose
    rw [closesAll_cons, or_iff_right fun h => hclose h.1]
    simpa [List.count_singleton, hopen, hclose] using ih

theorem isWrapped_iff : isWrapped s ↔ LooksEnclosed s := by
  rw [isWrapped, Bool.and_eq_true, Bool.and_eq_true, beq_iff_eq, beq_iff_eq, Bool.not_eq_true', ← Bool.not_eq_true,
    closesEarly_iff]
  constructor
  · rintro ⟨⟨hopens, hcloses⟩, hnever⟩
    refine ⟨hopens, hcloses, fun front => ?_⟩
    -- from the end of what stands in front, for one more character closes at most one
    induction front using List.reverseRec with
    | nil => exact fun _ _ hne => absurd rfl hne
    | append_singleton front c ih =>
      intro rest hs _ hrest
      rw [List.append_assoc, List.singleton_append] at hs
      rcases eq_or_ne front [] with rfl | hfront
      · obtain rfl : c = '(' := by simpa [hs] using hopens
        simp
      · have hbefore := ih (c :: rest) hs hfront (List.cons_ne_nil _ _)
        rw [List.count_append, List.count_append]
        by_cases hclose : c = ')'
        · subst hclose
          have hcount : front.count '(' ≠ front.count ')' + 1 := fun hcount =>
            hnever ⟨front, rest, hs, hrest, by omega⟩
          simp
          omega
        · rw [List.count_singleton (a := ')'), if_neg (by simpa using hclose)]
          omega
  · rintro ⟨hopens, hcloses, hbefore⟩
    refine ⟨⟨hopens, hcloses⟩, ?_⟩
    rintro ⟨front, rest, rfl, hrest, hcount⟩
    have hlt := hbefore (front ++ [')']) rest (by simp) (by simp) hrest
    simp at hlt
    omega

/-! ## Parentheses in quotes -/

/-- A parenthesis stands in quotes. -/
def quotesParenthesis : Quoting → List Char → Bool
  | _, [] => false
  | q, c :: r => (q != .outside && (c == '(' || c == ')')) || quotesParenthesis (q.behind c) r

theorem quotesParenthesis_front {q : Quoting} (h : quotesParenthesis q (s ++ t) = false) :
    quotesParenthesis q s = false := by
  induction s generalizing q with
  | nil => rfl
  | cons c s ih =>
    rw [List.cons_append, quotesParenthesis, Bool.or_eq_false_iff] at h
    rw [quotesParenthesis, h.1, ih h.2, Bool.or_false]

theorem quotesParenthesis_blanks {q : Quoting} (h : ∀ c ∈ s, Text.isBlank c) :
    quotesParenthesis q (s ++ t) = quotesParenthesis q t := by
  induction s with
  | nil => rfl
  | cons c s ih =>
    obtain ⟨hc, hs⟩ := List.forall_mem_cons.mp h
    obtain ⟨hopen, hclose, -, -⟩ := not_blank_of_mark hc
    rw [List.cons_append, quotesParenthesis, q.behind_blank hc, ih hs]
    simp [hopen, hclose]

theorem quotesParenthesis_trim {q : Quoting} (h : quotesParenthesis q s = false) :
    quotesParenthesis q (Text.trim s) = false := by
  obtain ⟨front, back, hs, hfront, -⟩ := Text.exists_trim s
  rw [hs, quotesParenthesis_blanks hfront] at h
  exact quotesParenthesis_front h

namespace Nesting

theorem quoting_behind? (h : n.behind? c = some m) : m.quoting = n.quoting.behind c := by
  obtain ⟨depth, quoting⟩ := n
  unfold behind? at h
  split at h
  · next hopen =>
    obtain ⟨rfl, rfl⟩ := hopen
    obtain rfl := Option.some.inj h
    rfl
  · split at h
    · next hclose =>
      obtain ⟨rfl, rfl⟩ := hclose
      split at h
      · contradiction
      · obtain rfl := Option.some.inj h
        rfl
    · obtain rfl := Option.some.inj h
      rfl

theorem depth_behind? (h : n.behind? c = some m)
    (hquoted : (n.quoting != .outside && (c == '(' || c == ')')) = false) :
    m.depth + [c].count ')' = n.depth + [c].count '(' := by
  obtain ⟨depth, quoting⟩ := n
  unfold behind? at h
  split at h
  · next hopen =>
    obtain ⟨rfl, rfl⟩ := hopen
    obtain rfl := Option.some.inj h
    simp
  · next hopen =>
    split at h
    · next hclose =>
      obtain ⟨rfl, rfl⟩ := hclose
      split at h
      · contradiction
      · next hdepth =>
        obtain rfl := Option.some.inj h
        simp at hdepth ⊢
        omega
    · next hclose =>
      obtain rfl := Option.some.inj h
      have hc : c ≠ '(' ∧ c ≠ ')' := by
        by_cases houtside : quoting = .outside
        · exact ⟨fun hc => hopen ⟨houtside, hc⟩, fun hc => hclose ⟨houtside, hc⟩⟩
        · simpa [houtside] using hquoted
      simp [hc]

/-- With no parenthesis in quotes, the depth is what the counts say. -/
theorem depth_after? (h : n.after? s = some m) (hquoted : quotesParenthesis n.quoting s = false) :
    m.depth + s.count ')' = n.depth + s.count '(' := by
  induction s generalizing n with
  | nil =>
    obtain rfl := Option.some.inj h
    rfl
  | cons c s ih =>
    obtain ⟨k, hk, h⟩ := Option.bind_eq_some_iff.mp h
    rw [quotesParenthesis, Bool.or_eq_false_iff, ← quoting_behind? hk] at hquoted
    have hstep := depth_behind? hk hquoted.1
    have hrun := ih h hquoted.2
    rw [← List.singleton_append, List.count_append, List.count_append]
    omega

/-- If something is open all the way, what closes the last open one is the last character. -/
theorem partner?_of_open (hs : s ≠ []) (h : n.after? s = some {})
    (hopen : ∀ front rest k, s = front ++ rest → front ≠ [] → rest ≠ [] → n.after? front = some k → k.depth ≠ 0) :
    n.partner? s = some [] := by
  induction s generalizing n with
  | nil => exact absurd rfl hs
  | cons c s ih =>
    obtain ⟨k, hk, h⟩ := Option.bind_eq_some_iff.mp h
    rw [partner?, hk, Option.bind_some]
    rcases eq_or_ne s [] with rfl | hs
    · obtain rfl := Option.some.inj h
      rfl
    · have hone : n.after? [c] = some k := by rw [after?, hk, Option.bind_some, after?]
      rw [if_neg (hopen [c] s k rfl (List.cons_ne_nil _ _) hs hone)]
      refine ih hs h fun front rest j hsplit hfront hrest hj => ?_
      refine hopen (c :: front) rest j (by rw [hsplit, List.cons_append]) (List.cons_ne_nil _ _) hrest ?_
      rw [after?, hk, Option.bind_some, hj]

end Nesting

/-- With no parenthesis in quotes, what looks enclosed is enclosed. -/
theorem LooksEnclosed.isEnclosed (h : LooksEnclosed s) (hbalanced : isBalanced s)
    (hquoted : quotesParenthesis .outside s = false) : isEnclosed s := by
  obtain ⟨hopens, hcloses, hbefore⟩ := h
  rcases s with _ | ⟨c, r⟩
  · simp at hopens
  · obtain rfl : c = '(' := by simpa using hopens
    have hr : r ≠ [] := by
      rintro rfl
      simp at hcloses
    have hrun : Nesting.after? { depth := 1 } r = some {} := beq_iff_eq.mp hbalanced
    rw [Ddl.isEnclosed, beq_iff_eq]
    refine Nesting.partner?_of_open hr hrun ?_
    rintro front rest k rfl - hrest hk
    have hfront : Nesting.after? {} ('(' :: front) = some k := hk
    have hcount := Nesting.depth_after? hfront (quotesParenthesis_front (t := rest) hquoted)
    have hopen := hbefore ('(' :: front) rest rfl (List.cons_ne_nil _ _) hrest
    have hnone : ({} : Nesting).depth = 0 := rfl
    omega

/-! ## The pair around an expression -/

/-- An expression that looks enclosed stays as it is; any other gets a pair. -/
theorem wrapped_eq (e : String) : (LooksEnclosed (Text.strip e).toList → wrapped e = Text.strip e) ∧
    (¬ LooksEnclosed (Text.strip e).toList → wrapped e = "(" ++ Text.strip e ++ ")") := by
  have htext : wrapped e = if isWrapped (Text.strip e).toList then Text.strip e else "(" ++ Text.strip e ++ ")" := rfl
  rw [← isWrapped_iff, htext]
  exact ⟨fun h => by rw [if_pos h], fun h => by rw [if_neg h]⟩

theorem shows_end (lead part rest : String) : Shows (part ++ rest) (lead ++ part ++ rest) :=
  ⟨lead, "", by simp only [String.append_assoc, String.append_empty]⟩

/-- The statements hold the expression between their words as `wrapped` gives it. -/
structure ShownWrapped (e : String) (target : Option String) : Prop where
  check : ¬ Text.startsWith (Text.upper (Text.strip e)) "CHECK" → checkText e = "CHECK " ++ wrapped e
  visible : ∀ p : Policy, p.isComplete → p.visible.given = some e →
    Shows (" USING " ++ wrapped e) (p.ddl target)
  allowed : ∀ p : Policy, p.isComplete → p.allowed.given = some e →
    Shows (" WITH CHECK " ++ wrapped e ++ ";") (p.ddl target)
  condition : ∀ g : Trigger, g.isComplete → g.condition.given = some e →
    Shows (" WHEN " ++ wrapped e ++ " EXECUTE FUNCTION ") (g.ddl target)

theorem shownWrapped (e : String) (target : Option String) : ShownWrapped e target where
  check h := by
    have hagain : wrapped (Text.strip e) = wrapped e := by rw [wrapped, wrapped, Text.strip_strip]
    rw [checkText, ← hagain]
    exact if_neg h
  visible p hcomplete hgiven := by
    rw [Policy.ddl, hcomplete, hgiven]
    exact (((shows_self _).append_left _).append_right _).append_right _
  allowed p hcomplete hgiven := by
    rw [Policy.ddl, hcomplete, hgiven]
    exact shows_end _ _ _
  condition g hcomplete hgiven := by
    rw [Trigger.ddl, hcomplete, hgiven]
    exact (((shows_end _ _ _).append_right _).append_right _).append_right _

/-- The result is enclosed by one whole pair exactly if the expression is balanced and does not only look enclosed.
With no parenthesis in quotes it never only looks so. -/
theorem isEnclosed_wrapped_iff (e : String) :
    (LooksEnclosed (Text.strip e).toList → wrapped e = Text.strip e) ∧
    (¬ LooksEnclosed (Text.strip e).toList → wrapped e = "(" ++ Text.strip e ++ ")") ∧
    (isEnclosed (wrapped e).toList ↔ isBalanced e.toList ∧
      (LooksEnclosed (Text.strip e).toList → isEnclosed (Text.strip e).toList)) ∧
    (isBalanced e.toList → quotesParenthesis .outside e.toList = false → isEnclosed (wrapped e).toList) ∧
    ∀ target, ShownWrapped e target := by
  obtain ⟨hsame, hpair⟩ := wrapped_eq e
  have hstrip : isBalanced (Text.strip e).toList = isBalanced e.toList := by
    rw [Text.strip, String.toList_ofList, isBalanced_trim]
  have hiff : isEnclosed (wrapped e).toList ↔ isBalanced e.toList ∧
      (LooksEnclosed (Text.strip e).toList → isEnclosed (Text.strip e).toList) := by
    by_cases hlooks : LooksEnclosed (Text.strip e).toList
    · rw [hsame hlooks, ← hstrip]
      exact ⟨fun h => ⟨isBalanced_of_isEnclosed h, fun _ => h⟩, fun h => h.2 hlooks⟩
    · have htext : ("(" ++ Text.strip e ++ ")").toList = '(' :: ((Text.strip e).toList ++ [')']) := by simp
      rw [hpair hlooks, htext, isEnclosed_iff, ← hstrip, and_iff_left fun h => absurd h hlooks]
      constructor
      · rintro ⟨body, heq, hbody⟩
        rwa [List.append_cancel_right (List.cons.inj heq).2]
      · exact fun h => ⟨_, rfl, h⟩
  refine ⟨hsame, hpair, hiff, fun hbalanced hquoted => hiff.mpr ⟨hbalanced, fun hlooks => ?_⟩, shownWrapped e⟩
  rw [← hstrip] at hbalanced
  refine hlooks.isEnclosed hbalanced ?_
  rw [Text.strip, String.toList_ofList]
  exact quotesParenthesis_trim hquoted

/-- The second parenthesis stands in quotes, but for the count it keeps the first pair open to the end. -/
theorem alternatives_look_enclosed : isBalanced "(a = '(') or (b = ')')".toList ∧
    LooksEnclosed (Text.strip "(a = '(') or (b = ')')").toList ∧
    wrapped "(a = '(') or (b = ')')" = "(a = '(') or (b = ')')" ∧
    ¬ isEnclosed (wrapped "(a = '(') or (b = ')')").toList := by
  obtain ⟨hsame, -, hiff, -, -⟩ := isEnclosed_wrapped_iff "(a = '(') or (b = ')')"
  have hlooks : LooksEnclosed (Text.strip "(a = '(') or (b = ')')").toList := isWrapped_iff.mp (by decide +kernel)
  have hstrip : Text.strip "(a = '(') or (b = ')')" = "(a = '(') or (b = ')')" := by decide +kernel
  refine ⟨by decide +kernel, hlooks, (hsame hlooks).trans hstrip, fun h => ?_⟩
  exact absurd ((hiff.mp h).2 hlooks) (by decide +kernel)

end
end SchemaScript.Ddl
