import Unjump.Proofs.BlockGraph.Blocks

/-!
# Walks through a block graph

A walk goes from block to block by a function that says where control goes. `BlockGraph.Visits`
notes the blocks that it passes, those without a test. Two ways to go through a graph visit the same
blocks exactly if they go on to visit the same ones from where they part (`visits_iff_of_parts`).
-/

namespace Unjump.BlockGraph

/-- The blocks without a test that control passes from a block on, until it comes to a block from
which it does not go on, or leaves the graph. -/
inductive Visits (g : BlockGraph) (next : Nat → Option Nat) : Nat → List Nat → Prop where
  | outside {id : Nat} (hid : g.size ≤ id) : Visits g next id []
  | test {id goal : Nat} {visited : List Nat} (hcond : g.isConditional id = true)
      (hnext : next id = some goal) (hrest : Visits g next goal visited) : Visits g next id visited
  | last {id : Nat} (hid : id < g.size) (hcond : g.isConditional id = false)
      (hnext : next id = none) : Visits g next id [id]
  | block {id goal : Nat} {visited : List Nat} (hid : id < g.size)
      (hcond : g.isConditional id = false) (hnext : next id = some goal)
      (hrest : Visits g next goal visited) : Visits g next id (id :: visited)

/-- Two ways to go through a graph that start at the same block part at two blocks. -/
inductive Parts (next other : Nat → Option Nat) : Nat → Nat → Nat → Prop where
  | here {id x y : Nat} (hx : next id = some x) (hy : other id = some y) (hne : x ≠ y) :
      Parts next other id x y
  | later {id goal x y : Nat} (hnext : next id = some goal) (hother : other id = some goal)
      (hparts : Parts next other goal x y) : Parts next other id x y

variable {g : BlockGraph} {next other : Nat → Option Nat} {id : Nat} {visited : List Nat}

/-- What is visited from a block with a test is what is visited from the block that control goes
to. -/
theorem Visits.of_test (h : g.Visits next id visited) (hcond : g.isConditional id = true)
    {goal : Nat} (hnext : next id = some goal) : g.Visits next goal visited := by
  cases h with
  | outside hid => exact absurd (lt_size_of_isConditional hcond) (Nat.not_lt.2 hid)
  | test _ hnext' hrest =>
    rw [hnext] at hnext'
    cases hnext'
    exact hrest
  | last _ hcond' _ => simp [hcond] at hcond'
  | block _ hcond' _ _ => simp [hcond] at hcond'

/-- From a block without a test, the block is visited, and then what is visited from the block that
control goes to. -/
theorem Visits.of_block (h : g.Visits next id visited) (hid : id < g.size)
    (hcond : g.isConditional id = false) {goal : Nat} (hnext : next id = some goal) :
    ∃ rest, visited = id :: rest ∧ g.Visits next goal rest := by
  cases h with
  | outside hid' => exact absurd hid (Nat.not_lt.2 hid')
  | test hcond' _ _ => simp [hcond] at hcond'
  | last _ _ hnext' => simp [hnext] at hnext'
  | block _ _ hnext' hrest =>
    rw [hnext] at hnext'
    cases hnext'
    exact ⟨_, rfl, hrest⟩

theorem Visits.unique (h : g.Visits next id visited) {visited' : List Nat}
    (h' : g.Visits next id visited') : visited' = visited := by
  induction h generalizing visited' with
  | outside hid =>
    cases h' with
    | outside => rfl
    | test hcond _ _ => exact absurd (lt_size_of_isConditional hcond) (Nat.not_lt.2 hid)
    | last hid' _ _ => exact absurd hid' (Nat.not_lt.2 hid)
    | block hid' _ _ _ => exact absurd hid' (Nat.not_lt.2 hid)
  | test hcond hnext _ ih => exact ih (h'.of_test hcond hnext)
  | last hid hcond hnext =>
    cases h' with
    | outside hid' => exact absurd hid (Nat.not_lt.2 hid')
    | test hcond' _ _ => simp [hcond] at hcond'
    | last => rfl
    | block _ _ hnext' _ => simp [hnext] at hnext'
  | block hid hcond hnext _ ih =>
    obtain ⟨rest, rfl, hrest⟩ := h'.of_block hid hcond hnext
    rw [ih hrest]

/-- If control only goes forward and always goes on from a test, some blocks are visited. -/
theorem exists_visits (hforward : ∀ id goal, next id = some goal → id < goal)
    (htest : ∀ id, g.isConditional id = true → ∃ goal, next id = some goal) (id : Nat) :
    ∃ visited, g.Visits next id visited := by
  -- the induction is on the number of blocks from this one on
  by_cases hid : id < g.size
  · cases hcond : g.isConditional id with
    | true =>
      obtain ⟨goal, hnext⟩ := htest id hcond
      have hlt := hforward id goal hnext
      obtain ⟨visited, hvisited⟩ := exists_visits hforward htest goal
      exact ⟨visited, .test hcond hnext hvisited⟩
    | false =>
      cases hnext : next id with
      | none => exact ⟨[id], .last hid hcond hnext⟩
      | some goal =>
        have hlt := hforward id goal hnext
        obtain ⟨visited, hvisited⟩ := exists_visits hforward htest goal
        exact ⟨id :: visited, .block hid hcond hnext hvisited⟩
  · exact ⟨[], .outside (Nat.not_lt.1 hid)⟩
  termination_by g.size - id

/-- What both ways visit from a block on, both visit from the blocks that they go to. -/
private theorem exists_visits_of_step {x y : Nat} (hid : id < g.size) (hx : next id = some x)
    (hy : other id = some y) (h : g.Visits next id visited) (h' : g.Visits other id visited) :
    ∃ rest, g.Visits next x rest ∧ g.Visits other y rest := by
  cases hcond : g.isConditional id with
  | true => exact ⟨visited, h.of_test hcond hx, h'.of_test hcond hy⟩
  | false =>
    obtain ⟨rest, rfl, hrest⟩ := h.of_block hid hcond hx
    obtain ⟨rest', heq, hrest'⟩ := h'.of_block hid hcond hy
    cases heq
    exact ⟨rest, hrest, hrest'⟩

variable (hinside : ∀ id goal, next id = some goal → id < g.size)
include hinside

/-- What both ways visit from a block on, both visit from where they part. -/
theorem Parts.exists_visits {x y : Nat} (hparts : Parts next other id x y)
    (h : g.Visits next id visited) (h' : g.Visits other id visited) :
    ∃ rest, g.Visits next x rest ∧ g.Visits other y rest := by
  induction hparts generalizing visited with
  | here hx hy _ => exact exists_visits_of_step (hinside _ _ hx) hx hy h h'
  | later hnext hother _ ih =>
    obtain ⟨rest, hrest, hrest'⟩ :=
      exists_visits_of_step (hinside _ _ hnext) hnext hother h h'
    exact ih hrest hrest'

omit hinside in
/-- If two ways that come to two blocks visit the same from there, whether they part there or later,
the other way visits what the first one visits. -/
private theorem visits_of_agree {goal goal' : Nat} (hnext : next id = some goal)
    (hother : other id = some goal') (hrest : g.Visits next goal visited)
    (hagree : ∀ x y, Parts next other id x y → ∀ rest, g.Visits next x rest → g.Visits other y rest)
    (ih : (∀ x y, Parts next other goal x y → ∀ rest, g.Visits next x rest →
      g.Visits other y rest) → g.Visits other goal visited) : g.Visits other goal' visited := by
  by_cases heq : goal = goal'
  · subst heq
    exact ih fun x y hparts => hagree x y (.later hnext hother hparts)
  · exact hagree goal goal' (.here hnext hother heq) visited hrest

/-- Two ways visit the same blocks exactly if they visit the same ones from where they part. -/
theorem visits_iff_of_parts (hdefined : ∀ id, (other id).isSome = (next id).isSome)
    (h : g.Visits next id visited) :
    g.Visits other id visited ↔
      ∀ x y, Parts next other id x y → ∀ rest, g.Visits next x rest → g.Visits other y rest := by
  constructor
  · intro h' x y hparts rest hrest
    -- both ways visit the same from where they part, and the first one visits nothing else
    obtain ⟨both, hboth, hboth'⟩ := hparts.exists_visits hinside h h'
    rwa [hrest.unique hboth] at hboth'
  · intro hagree
    -- the other way goes on from a block exactly if the first one does
    have hsome : ∀ {id goal}, next id = some goal → ∃ goal', other id = some goal' := by
      intro id goal hnext
      have hdefined := hdefined id
      rw [hnext] at hdefined
      exact Option.isSome_iff_exists.1 hdefined
    induction h with
    | outside hid => exact .outside hid
    | @last id hid hcond hnext =>
      have hnone := hdefined id
      rw [hnext] at hnone
      exact .last hid hcond (by simpa using hnone)
    | test hcond hnext hrest ih =>
      obtain ⟨goal', hother⟩ := hsome hnext
      exact .test hcond hother (visits_of_agree hnext hother hrest hagree ih)
    | block hid hcond hnext hrest ih =>
      obtain ⟨goal', hother⟩ := hsome hnext
      exact .block hid hcond hother (visits_of_agree hnext hother hrest hagree ih)

end Unjump.BlockGraph
