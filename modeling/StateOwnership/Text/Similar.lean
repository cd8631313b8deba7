import StateOwnership.Text.Basic

/-!
# Similar words

What two words have in common is the longest run of code points that both hold, with what the parts
before it and the parts behind it have in common. Words are similar if that makes up at least three
fifths of them.
-/

namespace StateOwnership.Text

/-! ## 1. Shared runs -/

/-- The length of the longest text that both texts start with. -/
def sharedStart : Text → Text → Nat
  | c :: a, d :: b => if c = d then sharedStart a b + 1 else 0
  | _, _ => 0

/-- A run of code points that two texts share: where it starts in each, and its length. -/
structure SharedRun where
  left : Nat
  right : Nat
  length : Nat
  deriving DecidableEq, Repr

/-- The run that two texts share from each pair of places on. -/
def sharedRuns (a b : Text) : List SharedRun :=
  (List.range a.length).flatMap fun i =>
    (List.range b.length).map fun j => ⟨i, j, sharedStart (a.drop i) (b.drop j)⟩

/-- The longest run that two texts share; of several, the first. -/
def longestRun (a b : Text) : SharedRun :=
  (sharedRuns a b).foldl (fun best run => if best.length < run.length then run else best)
    ⟨0, 0, 0⟩

/-- The number of code points that two texts have in common, counted through at most `fuel` runs
inside each other. -/
def sharedCountWithin : (fuel : Nat) → Text → Text → Nat
  | 0, _, _ => 0
  | fuel + 1, a, b =>
    let run := longestRun a b
    if run.length = 0 then 0
    else
      sharedCountWithin fuel (a.take run.left) (b.take run.right) + run.length +
        sharedCountWithin fuel (a.drop (run.left + run.length)) (b.drop (run.right + run.length))

def sharedCount (a b : Text) : Nat :=
  sharedCountWithin (a.length + 1) a b

/-! ## 2. Likeness -/

/-- How alike two texts are: what they have in common, out of what they hold. -/
structure Likeness where
  shared : Nat
  total : Nat
  deriving DecidableEq, Repr

def likeness (a b : Text) : Likeness :=
  ⟨sharedCount a b, a.length + b.length⟩

/-- Whether a likeness is at least three fifths. -/
def Likeness.isSimilar (l : Likeness) : Bool :=
  3 * l.total ≤ 10 * l.shared

/-- Whether one word goes before another: the more alike one, and of equals the later in the order
of texts. -/
def closer (a b : Text × Likeness) : Bool :=
  let left := a.2.shared * b.2.total
  let right := b.2.shared * a.2.total
  right < left || (left = right && !before a.1 b.1)

def similarLimit : Nat := 3

/-- The words that are most similar to a word, in their order as texts. -/
def similarTo (word : Text) (words : List Text) : List Text :=
  let rated := words.map fun other => (other, likeness other word)
  let similar := (rated.filter (·.2.isSimilar)).mergeSort closer
  ((similar.take similarLimit).map (·.1)).mergeSort before

end StateOwnership.Text
