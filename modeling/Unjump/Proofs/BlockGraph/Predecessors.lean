import Unjump.BlockGraph.Build

/-!
# Predecessors

`linkPredecessors` goes through the blocks in order and notes each of them where it leads. When it
has come to a block, every block has noted those in front that lead to it, and nothing else of the
blocks has changed (`getElem?_foldl_noteEdges`). So in a graph whose blocks are linked the
predecessors of a block are the blocks with an edge to it, each once
(`Linked.mem_predecessors_iff`, `Linked.nodup_predecessors`).
-/

namespace Unjump.BlockGraph

variable {before id : Nat} {b : Block}

/-- The block `before` leads to the block `id`. -/
def leads (blocks : List Block) (id before : Nat) : Bool :=
  (blocks[before]?.map (·.successors)).any (·.contains id)

theorem leads_iff {blocks : List Block} :
    leads blocks id before = true ↔ ∃ b, blocks[before]? = some b ∧ id ∈ b.successors := by
  cases h : blocks[before]? <;> simp [leads, h]

/-- Where blocks lead is decided by their edges alone. -/
theorem leads_congr {blocks blocks' : List Block}
    (h : ∀ before : Nat, blocks'[before]?.map (·.successors) = blocks[before]?.map (·.successors)) :
    leads blocks' = leads blocks := by
  funext id before
  rw [leads, leads, h]

/-! ## Noting edges -/

theorem notePredecessor_of_mem (h : before ∈ b.predecessors) : notePredecessor before b = b :=
  if_pos (List.contains_iff_mem.2 h)

theorem notePredecessor_of_notMem (h : before ∉ b.predecessors) :
    notePredecessor before b = { b with predecessors := b.predecessors ++ [before] } :=
  if_neg (mt List.contains_iff_mem.1 h)

theorem notePredecessor_idem (before : Nat) (b : Block) :
    notePredecessor before (notePredecessor before b) = notePredecessor before b := by
  refine notePredecessor_of_mem ?_
  by_cases h : before ∈ b.predecessors
  · rwa [notePredecessor_of_mem h]
  · rw [notePredecessor_of_notMem h]
    exact List.mem_concat_self

/-- A block that is noted at the blocks of a list is noted at each of them once. -/
theorem getElem?_foldl_modify (before : Nat) (next : List Nat) (blocks : List Block) (id : Nat) :
    (next.foldl (fun blocks id => blocks.modify id (notePredecessor before)) blocks)[id]? =
      blocks[id]?.map fun b => if id ∈ next then notePredecessor before b else b := by
  induction next generalizing blocks with
  | nil => simp
  | cons first next ih =>
    rw [List.foldl_cons, ih, List.getElem?_modify]
    cases blocks[id]? with
    | none => rfl
    | some b =>
      by_cases hfirst : first = id
      · -- a second edge to the same block changes nothing
        by_cases hnext : id ∈ next <;> simp [hfirst, hnext, notePredecessor_idem]
      · simp [hfirst, Ne.symm hfirst]

/-- A step of the loop notes a block where it leads, and changes nothing else. -/
theorem getElem?_noteEdges (blocks : List Block) (before id : Nat) :
    (noteEdges blocks before)[id]? =
      blocks[id]?.map fun b => if leads blocks id before then notePredecessor before b else b := by
  rw [noteEdges, getElem?_foldl_modify]
  cases hbefore : blocks[before]? with
  | none => simp [leads, hbefore]
  | some b => simp [leads, hbefore]

/-- When the loop has come to the block `n`, every block has noted those in front of `n` that lead
to it. -/
theorem getElem?_foldl_noteEdges (blocks : List Block) (n id : Nat) :
    ((List.range n).foldl noteEdges (blocks.map ({ · with predecessors := [] })))[id]? =
      blocks[id]?.map
        fun b => { b with predecessors := (List.range n).filter (leads blocks id) } := by
  induction n generalizing id with
  | zero => simp
  | succ n ih =>
    rw [List.range_succ, List.foldl_append, List.foldl_cons, List.foldl_nil, getElem?_noteEdges, ih,
      Option.map_map]
    -- the edges of the block are those that it had at the start
    have hleads : leads ((List.range n).foldl noteEdges
        (blocks.map ({ · with predecessors := [] }))) = leads blocks := by
      refine leads_congr fun before => ?_
      rw [ih, Option.map_map]
      rfl
    refine congrArg (blocks[id]?.map ·) (funext fun b => ?_)
    rw [Function.comp_apply, hleads, List.filter_append]
    by_cases h : leads blocks id n = true
    · rw [if_pos h, notePredecessor_of_notMem (by simp), List.filter_cons_of_pos h, List.filter_nil]
    · rw [if_neg h, List.filter_cons_of_neg h, List.filter_nil, List.append_nil]

theorem getElem?_linkPredecessors (blocks : List Block) (id : Nat) :
    (linkPredecessors blocks)[id]? = blocks[id]?.map fun b =>
      { b with predecessors := (List.range blocks.length).filter (leads blocks id) } :=
  getElem?_foldl_noteEdges blocks blocks.length id

/-- All that the loop changes is what the blocks have noted. -/
theorem linkPredecessors_eq_mapIdx (blocks : List Block) :
    linkPredecessors blocks = blocks.mapIdx fun id b =>
      { b with predecessors := (List.range blocks.length).filter (leads blocks id) } := by
  apply List.ext_getElem?
  intro id
  rw [getElem?_linkPredecessors, List.getElem?_mapIdx]

/-! ## Linked graphs -/

/-- Every block has noted the blocks that lead to it, in order. -/
def Linked (g : BlockGraph) : Prop :=
  ∀ id b, g.block? id = some b → b.predecessors = (List.range g.size).filter (leads g.blocks id)

theorem linked_linkPredecessors (blocks : List Block) : Linked ⟨linkPredecessors blocks⟩ := by
  intro id b hb
  have hleads : leads (linkPredecessors blocks) = leads blocks := by
    refine leads_congr fun before => ?_
    rw [getElem?_linkPredecessors, Option.map_map]
    rfl
  rw [block?, getElem?_linkPredecessors] at hb
  obtain ⟨b', -, rfl⟩ := Option.map_eq_some_iff.1 hb
  rw [size, linkPredecessors_eq_mapIdx, List.length_mapIdx, ← linkPredecessors_eq_mapIdx, hleads]

variable {g : BlockGraph}

theorem Linked.predecessors_eq (h : g.Linked) (hid : id < g.size) :
    g.predecessors id = (List.range g.size).filter (leads g.blocks id) := by
  have hb : g.block? id = some g.blocks[id] := List.getElem?_eq_getElem hid
  rw [predecessors, hb, Option.map_some, Option.getD_some, h id _ hb]

/-- The predecessors of a block are the blocks with an edge to it. -/
theorem Linked.mem_predecessors_iff (h : g.Linked) (hid : id < g.size) :
    before ∈ g.predecessors id ↔ ∃ b, g.block? before = some b ∧ id ∈ b.successors := by
  rw [h.predecessors_eq hid, List.mem_filter, List.mem_range, leads_iff]
  refine and_iff_right_of_imp fun ⟨b, hb, _⟩ => ?_
  exact (List.getElem?_eq_some_iff.1 hb).1

/-- A block has no predecessor twice. -/
theorem Linked.nodup_predecessors (h : g.Linked) (id : Nat) : (g.predecessors id).Nodup := by
  by_cases hid : id < g.size
  · rw [h.predecessors_eq hid]
    exact List.nodup_range.filter _
  · rw [predecessors, block?, List.getElem?_eq_none (Nat.not_lt.1 hid)]
    exact List.nodup_nil

end Unjump.BlockGraph
