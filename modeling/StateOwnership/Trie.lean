import StateOwnership.OrderedMap

/-!
# Tries

A map whose keys are lists of names, kept by their first names: what is below a name is found
without looking at anything beside it. **Reading after a write finds the value written, and every
other value as it was.**
-/

namespace StateOwnership

/-- A map from lists of names: the value of the empty list, if it has one, and by first name the
map of what follows it. -/
inductive Trie (α β : Type) where
  | node (value : Option β) (children : List (α × Trie α β))

namespace Trie

variable {α β : Type}

def empty : Trie α β :=
  .node none []

instance : EmptyCollection (Trie α β) := ⟨empty⟩

instance : Inhabited (Trie α β) := ⟨empty⟩

def value? : Trie α β → Option β
  | .node value _ => value

/-- The same map but for the value of the empty list. -/
def withValue (value : Option β) : Trie α β → Trie α β
  | .node _ children => .node value children

mutual

/-- The keys and their values: that of the empty list first, then what follows each first name. -/
def entries : Trie α β → List (List α × β)
  | .node none children => entriesBelow children
  | .node (some value) children => ([], value) :: entriesBelow children

def entriesBelow : List (α × Trie α β) → List (List α × β)
  | [] => []
  | (name, child) :: others =>
    (entries child).map (fun entry => (name :: entry.1, entry.2)) ++ entriesBelow others

end

variable [DecidableEq α]

/-! ## 1. Reading -/

/-- The map of what follows a first name. -/
def child (name : α) : Trie α β → Trie α β
  | .node _ children => (Entries.get? name children).getD ∅

def sub (trie : Trie α β) (names : List α) : Trie α β :=
  names.foldl (fun trie name => trie.child name) trie

def get? (trie : Trie α β) (names : List α) : Option β :=
  (trie.sub names).value?

/-- What follows two lists of names follows the second in what follows the first. -/
theorem sub_append (trie : Trie α β) (names others : List α) :
    trie.sub (names ++ others) = (trie.sub names).sub others := by
  simp [sub, List.foldl_append]

theorem sub_cons (trie : Trie α β) (name : α) (names : List α) :
    trie.sub (name :: names) = (trie.child name).sub names := by
  simp [sub]

/-- What follows a list of names, read at another, is the value of the two together. -/
theorem get?_sub (trie : Trie α β) (names others : List α) :
    (trie.sub names).get? others = trie.get? (names ++ others) := by
  simp [get?, sub_append]

theorem child_empty (name : α) : (∅ : Trie α β).child name = ∅ := rfl

theorem get?_empty (names : List α) : (∅ : Trie α β).get? names = none := by
  have sub_empty : (∅ : Trie α β).sub names = ∅ := by
    induction names with
    | nil => rfl
    | cons name names ih => rw [sub_cons, child_empty, ih]
  rw [get?, sub_empty]
  rfl

/-! ## 2. Writing -/

def alter : List α → (Trie α β → Trie α β) → Trie α β → Trie α β
  | [], change, trie => change trie
  | name :: names, change, .node value children =>
    .node value
      (Entries.put name (alter names change ((Entries.get? name children).getD ∅)) children)

def set (trie : Trie α β) (names : List α) (value : β) : Trie α β :=
  trie.alter names (withValue (some value))

def erase (trie : Trie α β) (names : List α) : Trie α β :=
  trie.alter names (withValue none)

/-- Takes away the values of all lists of names that start with this one. -/
def eraseAll (trie : Trie α β) (names : List α) : Trie α β :=
  trie.alter names (fun _ => ∅)

/-- What follows a first name after a change below a first name. -/
theorem child_alter_cons (trie : Trie α β) (change : Trie α β → Trie α β) (name other : α)
    (names : List α) :
    (trie.alter (name :: names) change).child other =
      if name = other then (trie.child name).alter names change else trie.child other := by
  obtain ⟨value, children⟩ := trie
  by_cases h : name = other <;> simp [alter, child, Entries.get?_put, h]

/-- A change below the first name leaves the value of the empty list. -/
theorem value?_alter_cons (trie : Trie α β) (change : Trie α β → Trie α β) (name : α)
    (names : List α) : (trie.alter (name :: names) change).value? = trie.value? := by
  obtain ⟨value, children⟩ := trie
  rfl

/-- A new value of the empty list leaves what follows a first name. -/
theorem child_withValue (trie : Trie α β) (value : Option β) (name : α) :
    (trie.withValue value).child name = trie.child name := by
  obtain ⟨old, children⟩ := trie
  rfl

/-- Reading after the value of one list of names has become another one. -/
theorem get?_alter_withValue (trie : Trie α β) (names others : List α) (value : Option β) :
    (trie.alter names (withValue value)).get? others =
      if names = others then value else trie.get? others := by
  induction names generalizing trie others with
  | nil =>
    cases others with
    | nil =>
      obtain ⟨old, children⟩ := trie
      rfl
    | cons other others => simp [get?, alter, sub_cons, child_withValue]
  | cons name names ih =>
    cases others with
    | nil => simp [get?, sub, value?_alter_cons]
    | cons other others =>
      have step := ih (trie.child name) others
      by_cases h : name = other
      · subst h
        simpa [get?, sub_cons, child_alter_cons] using step
      · simp [get?, sub_cons, child_alter_cons, h]

theorem get?_set (trie : Trie α β) (names others : List α) (value : β) :
    (trie.set names value).get? others =
      if names = others then some value else trie.get? others :=
  get?_alter_withValue trie names others (some value)

theorem get?_erase (trie : Trie α β) (names others : List α) :
    (trie.erase names).get? others = if names = others then none else trie.get? others :=
  get?_alter_withValue trie names others none

/-- Reading after all values from a list of names on were taken away. -/
theorem get?_eraseAll (trie : Trie α β) (names others : List α) :
    (trie.eraseAll names).get? others = if names <+: others then none else trie.get? others := by
  unfold eraseAll
  induction names generalizing trie others with
  | nil => simp [alter, get?_empty]
  | cons name names ih =>
    cases others with
    | nil => simp [get?, sub, value?_alter_cons]
    | cons other others =>
      have step := ih (trie.child name) others
      by_cases h : name = other
      · subst h
        simpa [get?, sub_cons, child_alter_cons, List.cons_prefix_cons] using step
      · simp [get?, sub_cons, child_alter_cons, List.cons_prefix_cons, h]

/-! ## 3. Equality -/

section Equality

variable [DecidableEq β]

mutual

def alike : Trie α β → Trie α β → Bool
  | .node value children, .node other others => value = other && alikeBelow children others

def alikeBelow : List (α × Trie α β) → List (α × Trie α β) → Bool
  | [], [] => true
  | (name, trie) :: children, (other, trie') :: others =>
    name = other && alike trie trie' && alikeBelow children others
  | _, _ => false

end

mutual

theorem alike_iff : ∀ a b : Trie α β, alike a b = true ↔ a = b
  | .node value children, .node other others => by
    simp [alike, alikeBelow_iff children others]

theorem alikeBelow_iff : ∀ as bs : List (α × Trie α β), alikeBelow as bs = true ↔ as = bs
  | [], bs => by cases bs <;> simp [alikeBelow]
  | (name, a) :: as, bs => by
    cases bs with
    | nil => simp [alikeBelow]
    | cons b bs =>
      obtain ⟨other, b⟩ := b
      simp [alikeBelow, alike_iff a b, alikeBelow_iff as bs, and_assoc]

end

instance : DecidableEq (Trie α β) := fun a b => decidable_of_iff _ (alike_iff a b)

end Equality

end Trie
end StateOwnership
