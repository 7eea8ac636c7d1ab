/-!
# Orders

Sorting by insertion, and the topological order built on it.
-/

/-!
## Sorting

Sorting by insertion. Elements of which each may precede the other keep their order.
-/

namespace SchemaScript.Order

variable {α : Type}

/-- Puts `a` in front of the first element that it may precede. -/
def insertSorted (le : α → α → Bool) (a : α) : List α → List α
  | [] => [a]
  | b :: l => if le a b then a :: b :: l else b :: insertSorted le a l

def sort (le : α → α → Bool) : List α → List α
  | [] => []
  | a :: l => insertSorted le a (sort le l)

theorem insertSorted_perm (le : α → α → Bool) (a : α) (l : List α) :
    (insertSorted le a l).Perm (a :: l) := by
  induction l with
  | nil => exact List.Perm.refl [a]
  | cons b l ih =>
    rw [insertSorted]
    split
    · exact List.Perm.refl _
    · exact (ih.cons b).trans (List.Perm.swap a b l)

theorem sort_perm (le : α → α → Bool) (l : List α) : (sort le l).Perm l := by
  induction l with
  | nil => exact List.Perm.refl []
  | cons a l ih => exact (insertSorted_perm le a _).trans (ih.cons a)

@[simp] theorem mem_sort {le : α → α → Bool} {a : α} {l : List α} : a ∈ sort le l ↔ a ∈ l :=
  (sort_perm le l).mem_iff

/-!
## Topological order

Names in an order in which every edge leads forward. Of the names that could come next the smallest
is taken; if some names wait for each other in a circle, the order of code points takes over.
-/

/-- `before` has to come ahead of `after`. -/
structure Edge where
  before : String
  after : String
  deriving DecidableEq, Repr

/-- Leaves out names that equal the one before them. -/
def dropRepeats : List String → List String
  | a :: b :: names => if a == b then dropRepeats (b :: names) else a :: dropRepeats (b :: names)
  | names => names

/-- The names by code point, each once. -/
def sortedSet (names : List String) : List String :=
  dropRepeats (sort (fun a b => a ≤ b) names)

/-- No other of the waiting names has to come ahead of this one. -/
def isReady (edges : List Edge) (waiting : List String) (name : String) : Bool :=
  edges.all fun e => e.after != name || e.before == name || !waiting.contains e.before

/-- Takes the first ready name, then the first of the rest, and so on; ends with the names that wait
for each other. -/
def takeReady (edges : List Edge) : Nat → List String → List String × List String
  | 0, waiting => ([], waiting)
  | steps + 1, waiting =>
    match waiting.find? (isReady edges waiting) with
    | none => ([], waiting)
    | some name =>
      let (taken, rest) := takeReady edges steps (waiting.erase name)
      (name :: taken, rest)

/-- The order, and the names that wait for each other in a circle. -/
structure Sorted where
  names : List String
  cyclic : List String
  deriving DecidableEq, Repr

def topological (nodes : List String) (edges : List Edge) : Sorted :=
  let names := sortedSet nodes
  match takeReady edges names.length names with
  | (taken, []) => ⟨taken, []⟩
  | (_, waiting) => ⟨names, waiting⟩

end SchemaScript.Order
