import Unjump.Method
import Unjump.Proofs.BlockGraph.Blocks
import Unjump.Proofs.BlockGraph.Walk
import Unjump.Proofs.DecisionGraph.Course
import Unjump.Proofs.Region.Arrangement

/-!
# The course of control through sections

Running the sections of a method visits the blocks that a walk through the graph visits, if the walk
goes from the end of a body to where the sections go on (`visits_of_arranges`). The graph itself may
lead elsewhere: a jump at the end of a body is dropped, and an edge to the end of a body counts as
one to what stands behind the body. So the sections are faithful to the graph exactly if the two
ways visit the same blocks from where they part (`Method.exists_visits_iff`).
-/

namespace Unjump

/-! ## Running sections -/

namespace Section

mutual

/-- The blocks that are visited when a section is run, and then those of what comes after it. A
block from which control does not go on ends the run. -/
def visited (g : BlockGraph) (v : Valuation) (s : Section) (after : List Nat) : List Nat :=
  match s with
  | .block id => id :: if g.successors id = [] then [] else after
  | .choice condition body alternative =>
    if condition.eval v then visitedAll g v body after else visitedAll g v alternative after

/-- The blocks that are visited when sections are run in order, and then those of what comes after
them. -/
def visitedAll (g : BlockGraph) (v : Valuation) (sections : List Section) (after : List Nat) :
    List Nat :=
  match sections with
  | [] => after
  | s :: ss => visited g v s (visitedAll g v ss after)

end

end Section

/-- A body of a choice, or the whole method: the block in front of which it ends, and the block that
the sections go on to from there. -/
structure Body where
  stop : Nat
  behind : Nat

/-- Where the sections go when a block of a body leads to another block. -/
def Body.onward (body : Body) (goal : Nat) : Nat :=
  if goal = body.stop then body.behind else goal

theorem Body.onward_of_lt {body : Body} {goal : Nat} (h : goal < body.stop) :
    body.onward goal = goal :=
  if_neg (Nat.ne_of_lt h)

/-- Where an empty alternative ends, control goes on as it does from the end of the choice. -/
theorem Body.onward_onward {outer : Body} {join goal : Nat} (hgoal : goal ≤ join)
    (hjoin : join ≤ outer.stop) :
    Body.onward ⟨join, outer.onward join⟩ goal = outer.onward goal := by
  obtain hlt | rfl := Nat.lt_or_eq_of_le hgoal
  · rw [onward_of_lt hlt, onward_of_lt (Nat.lt_of_lt_of_le hlt hjoin)]
  · exact if_pos rfl

namespace Context

/-- Where control goes from a block. -/
def next? (ctx : Context) (v : Valuation) (id : Nat) : Option Nat :=
  if ctx.graph.isConditional id then ctx.branch? v id
  else (ctx.graph.block? id).bind (·.target)

/-- The innermost body that holds a block, of those in the part of a body from `start` on. -/
def bodyFrom (ctx : Context) (start : Nat) (outer : Body) (id : Nat) : Body :=
  let g := ctx.graph
  if start < outer.stop then
    if g.isConditional start then
      let count := g.grow start outer.stop 1
      match (g.exits start (count + 1)).find? (· ≠ start + count + 1) with
      | some past =>
        let join := g.join past outer.stop
        if id ≤ start + count ∨ past ≤ start + count + 1 ∨ outer.stop < past then outer
        else if id < past then ctx.bodyFrom (start + count + 1) ⟨past, outer.onward join⟩ id
        else if id < join then ctx.bodyFrom past ⟨join, outer.onward join⟩ id
        else ctx.bodyFrom join outer id
      | none => outer
    else if id = start then outer
    else ctx.bodyFrom (start + 1) outer id
  else outer
  termination_by outer.stop - start
  decreasing_by
    · omega
    · have := ctx.graph.join_le (show past ≤ outer.stop by omega)
      omega
    · have := ctx.graph.le_join past outer.stop
      omega
    · omega

/-- The innermost body that holds a block. -/
def bodyOf (ctx : Context) (id : Nat) : Body :=
  ctx.bodyFrom 0 ⟨ctx.graph.size, ctx.graph.size⟩ id

/-- Where the sections go from a block: what stands behind it takes the place of where it jumps, and
what stands behind its body takes the place of the end of its body. -/
def place? (ctx : Context) (v : Valuation) (id : Nat) : Option Nat :=
  (ctx.next? v id).map fun goal =>
    (ctx.bodyOf id).onward (if ctx.graph.isConditional id then goal else id + 1)

variable {ctx : Context} {v : Valuation}

theorem bodyFrom_of_block {start : Nat} {outer : Body} (hlt : start < outer.stop)
    (hcond : ctx.graph.isConditional start = false) (id : Nat) :
    ctx.bodyFrom start outer id =
      if id = start then outer else ctx.bodyFrom (start + 1) outer id := by
  rw [bodyFrom]
  simp [hlt, hcond]

theorem bodyFrom_of_choice {start stop count past : Nat} (behind : Nat) (hlt : start < stop)
    (hcond : ctx.graph.isConditional start = true) (hcount : count = ctx.graph.grow start stop 1)
    (hexit : (ctx.graph.exits start (count + 1)).find? (· ≠ start + count + 1) = some past)
    (hpast : start + count + 1 < past) (hstop : past ≤ stop) (id : Nat) :
    ctx.bodyFrom start ⟨stop, behind⟩ id =
      let join := ctx.graph.join past stop
      let after := Body.onward ⟨stop, behind⟩ join
      if id ≤ start + count then ⟨stop, behind⟩
      else if id < past then ctx.bodyFrom (start + count + 1) ⟨past, after⟩ id
      else if id < join then ctx.bodyFrom past ⟨join, after⟩ id
      else ctx.bodyFrom join ⟨stop, behind⟩ id := by
  have hinside : ¬ (past ≤ start + count + 1 ∨ stop < past) := by omega
  rw [bodyFrom]
  subst hcount
  simp only [hlt, hcond, if_true, hexit, hinside, or_false]

/-- From a block on, the bodies of the method are those of a part of it that ends at `stop`. -/
def IsPart (ctx : Context) (start stop behind : Nat) : Prop :=
  ∀ id, start ≤ id → id < stop → ctx.bodyOf id = ctx.bodyFrom start ⟨stop, behind⟩ id

theorem isPart_whole (ctx : Context) : ctx.IsPart 0 ctx.graph.size ctx.graph.size :=
  fun _ _ _ => rfl

/-- A block without a test stands in the body itself, and what comes after it is a part as well. -/
theorem IsPart.of_block {start stop behind : Nat} (h : ctx.IsPart start stop behind)
    (hlt : start < stop) (hcond : ctx.graph.isConditional start = false) :
    ctx.bodyOf start = ⟨stop, behind⟩ ∧ ctx.IsPart (start + 1) stop behind := by
  refine ⟨?_, fun id hle hid => ?_⟩
  · rw [h start (Nat.le_refl _) hlt, bodyFrom_of_block hlt hcond, if_pos rfl]
  · rw [h id (by omega) hid, bodyFrom_of_block hlt hcond, if_neg (by omega)]

/-- The members of a group stand in the body itself. The two branches of the choice are parts that
go on behind the choice, and what comes after the choice is a part as well. -/
theorem IsPart.of_choice {start stop behind count past : Nat} (h : ctx.IsPart start stop behind)
    (hlt : start < stop) (hcond : ctx.graph.isConditional start = true)
    (hcount : count = ctx.graph.grow start stop 1)
    (hexit : (ctx.graph.exits start (count + 1)).find? (· ≠ start + count + 1) = some past)
    (hpast : start + count + 1 < past) (hstop : past ≤ stop) :
    let join := ctx.graph.join past stop
    let after := Body.onward ⟨stop, behind⟩ join
    (∀ id ∈ List.range' start (count + 1), ctx.bodyOf id = ⟨stop, behind⟩) ∧
      ctx.IsPart (start + count + 1) past after ∧ ctx.IsPart past join after ∧
      ctx.IsPart join stop behind := by
  intro join after
  have hjoin : past ≤ join := ctx.graph.le_join past stop
  have hjoin' : join ≤ stop := ctx.graph.join_le hstop
  have hall := bodyFrom_of_choice behind hlt hcond hcount hexit hpast hstop
  refine ⟨fun id hid => ?_, fun id hle hid => ?_, fun id hle hid => ?_, fun id hle hid => ?_⟩
  · have := List.mem_range'_1.1 hid
    rw [h id (by omega) (by omega), hall, if_pos (by omega)]
  · rw [h id (by omega) (by omega), hall, if_neg (by omega), if_pos hid]
  · rw [h id (by omega) (by omega), hall, if_neg (by omega), if_neg (by omega), if_pos hid]
  · rw [h id (by omega) hid, hall, if_neg (by omega), if_neg (by omega), if_neg (by omega)]

/-! ## Groups -/

/-- Control that leaves a group at an exit goes on, in the sections, to where the group leads. -/
theorem visits_of_leadsTo {group : List Nat} {outer : Body} {body past id exit : Nat}
    {after : List Nat} (h : ctx.LeadsTo v group body past id exit) (hid : id ∈ group)
    (hcond : ∀ id ∈ group, ctx.graph.isConditional id = true)
    (hbody : ∀ id ∈ group, ctx.bodyOf id = outer) (hlt : ∀ id ∈ group, id < outer.stop)
    (hafter : ctx.graph.Visits (ctx.place? v) (outer.onward exit) after) :
    ctx.graph.Visits (ctx.place? v) id after := by
  -- all members stand in the same body, so only an edge to its end leads elsewhere
  have hplace : ∀ id ∈ group, ∀ goal, ctx.branch? v id = some goal →
      ctx.place? v id = some (outer.onward goal) := by
    intro id hid goal hbranch
    simp [place?, next?, hcond id hid, hbody id hid, hbranch]
  induction h with
  | leave hbranch _ => exact .test (hcond _ hid) (hplace _ hid _ hbranch) hafter
  | step hbranch hmem _ _ _ ih =>
    refine .test (hcond _ hid) (hplace _ hid _ hbranch) ?_
    rw [Body.onward_of_lt (hlt _ hmem)]
    exact ih hmem hafter

/-- A block without a test has no edge but its target. -/
def SingleEdged (ctx : Context) : Prop :=
  ∀ id b, ctx.graph.block? id = some b → b.isConditional = false → b.otherwise = none

/-- A section that is a block visits what a walk visits that goes on behind the block, wherever the
block leads. -/
theorem visits_of_block (hsingle : ctx.SingleEdged) {id : Nat} {body : Body} {after : List Nat}
    (hid : id < ctx.graph.size) (hcond : ctx.graph.isConditional id = false)
    (hbody : ctx.bodyOf id = body)
    (hafter : ctx.graph.Visits (ctx.place? v) (body.onward (id + 1)) after) :
    ctx.graph.Visits (ctx.place? v) id (Section.visited ctx.graph v (.block id) after) := by
  obtain ⟨b, hb⟩ : ∃ b, ctx.graph.block? id = some b := ⟨_, List.getElem?_eq_getElem hid⟩
  have hcond' : b.isConditional = false := by simpa [BlockGraph.isConditional, hb] using hcond
  have hsucc : ctx.graph.successors id = b.target.toList := by
    simp [BlockGraph.successors, Block.successors, hb, hsingle id b hb hcond']
  rw [Section.visited, hsucc]
  cases htarget : b.target with
  | none =>
    have hplace : ctx.place? v id = none := by simp [place?, next?, hcond, hb, htarget]
    exact .last hid hcond hplace
  | some goal =>
    have hplace : ctx.place? v id = some (body.onward (id + 1)) := by
      simp [place?, next?, hcond, hb, htarget, hbody]
    exact .block hid hcond hplace hafter

/-- Running sections visits what a walk visits that goes from the ends of bodies to where the
sections go on. -/
theorem visits_of_arranges (hfeeder : ∀ id, ctx.graph.isFeeder id = false)
    (hsingle : ctx.SingleEdged) {start stop behind : Nat} {sections : List Section}
    {after : List Nat} (h : ctx.Arranges start stop sections) (hle : start ≤ stop)
    (hsize : stop ≤ ctx.graph.size) (hpart : ctx.IsPart start stop behind)
    (hafter : ctx.graph.Visits (ctx.place? v) behind after) :
    ctx.graph.Visits (ctx.place? v) (Body.onward ⟨stop, behind⟩ start)
      (Section.visitedAll ctx.graph v sections after) := by
  induction h generalizing behind after with
  | @done start stop hlt =>
    obtain rfl : start = stop := by omega
    simpa [Section.visitedAll, Body.onward] using hafter
  | feeder _ hfed _ _ => simp [hfeeder] at hfed
  | @block start stop rest hlt _ hcond hrest ih =>
    obtain ⟨hbody, hpartRest⟩ := hpart.of_block hlt hcond
    have hrest := ih hlt hsize hpartRest hafter
    rw [Body.onward_of_lt hlt, Section.visitedAll]
    exact visits_of_block hsingle (Nat.lt_of_lt_of_le hlt hsize) hcond hbody hrest
  | @choice start stop count past condition inside alternative rest hlt _ hcond hcount _ hexit hpast
      hstop hcondition _ _ _ ihInside ihAlternative ihRest =>
    have hjoin := ctx.graph.le_join past stop
    have hjoin' := ctx.graph.join_le hstop
    obtain ⟨hbodyGroup, hpartInside, hpartAlternative, hpartRest⟩ :=
      hpart.of_choice hlt hcond hcount hexit hpast hstop
    -- what comes after the choice is visited from both of its branches
    have hrest := ihRest hjoin' hsize hpartRest hafter
    have hinside := ihInside (Nat.le_of_lt hpast) (Nat.le_trans hstop hsize) hpartInside hrest
    have halternative :=
      ihAlternative hjoin (Nat.le_trans hjoin' hsize) hpartAlternative hrest
    rw [Body.onward_onward hjoin hjoin'] at halternative
    rw [Body.onward_of_lt hpast] at hinside
    -- the course through the group ends at the branch that its condition picks
    obtain ⟨entry, exit, hentry, hleads, hor, heval⟩ := exists_leadsTo hcondition v
    rw [List.range'_succ, List.head?_cons, Option.some.injEq] at hentry
    subst hentry
    have hgroup : ∀ id ∈ List.range' start (count + 1), id < stop := by
      intro id hid
      have := List.mem_range'_1.1 hid
      omega
    have hconds : ∀ id ∈ List.range' start (count + 1), ctx.graph.isConditional id = true :=
      fun id hid => isConditional_of_mem_group hcond (hcount ▸ hid)
    rw [Body.onward_of_lt hlt, Section.visitedAll, Section.visited]
    refine visits_of_leadsTo hleads (by simp) hconds hbodyGroup hgroup ?_
    obtain rfl | rfl := hor
    · rw [if_pos (heval.2 rfl), Body.onward_of_lt (show start + count + 1 < stop by omega)]
      exact hinside
    · rw [if_neg (fun h => absurd (heval.1 h) (by omega))]
      exact halternative

/-! ## Walks of structured methods -/

/-- Control goes along an edge. -/
theorem mem_successors_of_next? {id goal : Nat} (h : ctx.next? v id = some goal) :
    id < ctx.graph.size ∧ goal ∈ ctx.graph.successors id := by
  -- a branch goes along one of the two edges, any other block along its target
  have hedge : ∃ b, ctx.graph.block? id = some b ∧
      (b.target = some goal ∨ b.otherwise = some goal) := by
    unfold next? at h
    split at h
    · unfold branch? at h
      split at h
      · obtain ⟨b, hb, h⟩ := Option.bind_eq_some_iff.1 h
        split at h
        · exact ⟨b, hb, .inl h⟩
        · exact ⟨b, hb, .inr h⟩
      · cases h
    · obtain ⟨b, hb, h⟩ := Option.bind_eq_some_iff.1 h
      exact ⟨b, hb, .inl h⟩
  obtain ⟨b, hb, hgoal⟩ := hedge
  refine ⟨(List.getElem?_eq_some_iff.1 hb).1, ?_⟩
  simpa [BlockGraph.successors, hb, Block.successors, Option.mem_toList] using hgoal

/-- If no edge leads backward, control only goes forward. -/
theorem lt_of_next? (hnumbered : ctx.graph.Numbered) (hforward : ctx.graph.backwardEdge? = none)
    {id goal : Nat} (h : ctx.next? v id = some goal) : id < goal := by
  obtain ⟨hid, hgoal⟩ := mem_successors_of_next? h
  exact lt_of_mem_successors hnumbered hforward hid hgoal

/-- Every test that sections arrange can be made. -/
theorem exists_branch?_of_arranges (hfeeder : ∀ id, ctx.graph.isFeeder id = false) (v : Valuation)
    {start stop : Nat} {sections : List Section} (h : ctx.Arranges start stop sections) {id : Nat}
    (hle : start ≤ id) (hlt : id < stop) (hcond : ctx.graph.isConditional id = true) :
    ∃ goal, ctx.branch? v id = some goal := by
  induction h with
  | done => omega
  | feeder _ hfed _ _ => simp [hfeeder] at hfed
  | @block start stop rest _ _ hcond' _ ih =>
    have hne : id ≠ start := by
      rintro rfl
      simp [hcond] at hcond'
    exact ih (by omega) hlt
  | @choice start stop count past condition inside alternative rest _ _ _ _ _ _ _ _ hcondition _ _ _
      ihInside ihAlternative ihRest =>
    -- the block is a member of the group, or stands in a branch or behind the choice
    by_cases hgroup : id < start + count + 1
    · exact exists_branch? hcondition v (List.mem_range'_1.2 ⟨hle, by omega⟩)
    · by_cases hinside : id < past
      · exact ihInside (by omega) hinside
      · by_cases halternative : id < ctx.graph.join past stop
        · exact ihAlternative (by omega) halternative
        · exact ihRest (by omega) hlt

/-- The graph of a structured method visits some blocks, whatever its tests say. -/
theorem exists_visits_of_sections (hnumbered : ctx.graph.Numbered)
    (hfeeder : ∀ id, ctx.graph.isFeeder id = false) {sections : List Section}
    (h : ctx.sections = .ok sections) (v : Valuation) :
    ∃ visited, ctx.graph.Visits (ctx.next? v) 0 visited := by
  obtain ⟨hforward, -, harranges⟩ := arranges_of_sections h
  refine BlockGraph.exists_visits (fun id goal hnext => lt_of_next? hnumbered hforward hnext) ?_ 0
  intro id hcond
  have hlt := BlockGraph.lt_size_of_isConditional hcond
  obtain ⟨goal, hgoal⟩ := exists_branch?_of_arranges hfeeder v harranges (Nat.zero_le _) hlt hcond
  exact ⟨goal, by rwa [next?, if_pos hcond]⟩

end Context

namespace Method

variable {m : Method} {sections : List Section}

/-- The sections of a method visit what a walk visits that goes where the sections go on. -/
theorem visits_place? (hcode : Produced m.code) (h : m.context.sections = .ok sections)
    (v : Valuation) :
    m.context.graph.Visits (m.context.place? v) 0
      (Section.visitedAll m.context.graph v sections []) := by
  obtain ⟨-, -, harranges⟩ := Context.arranges_of_sections h
  -- nothing comes after the method
  have hend : m.context.graph.Visits (m.context.place? v) m.context.graph.size [] :=
    .outside (Nat.le_refl _)
  have hvisits := Context.visits_of_arranges
    (BlockGraph.isFeeder_build (fits_of_produced hcode))
    (fun id b hb => BlockGraph.otherwise_build hb) harranges (Nat.zero_le _) (Nat.le_refl _)
    (Context.isPart_whole _) hend
  have hstart : Body.onward ⟨m.context.graph.size, m.context.graph.size⟩ 0 = 0 := by
    unfold Body.onward
    split
    · simpa using ‹0 = m.context.graph.size›.symm
    · rfl
  rwa [hstart] at hvisits

/-- If every edge leads where the sections go on, running the sections visits what the graph visits,
whatever its tests say. -/
theorem visits_of_onward_eq (hcode : Produced m.code) (h : m.context.sections = .ok sections)
    (honward : ∀ id, ∀ goal ∈ m.context.graph.successors id, (m.context.bodyOf id).onward
      (if m.context.graph.isConditional id then goal else id + 1) = goal) (v : Valuation) :
    m.context.graph.Visits (m.context.next? v) 0
      (Section.visitedAll m.context.graph v sections []) := by
  have hplace : m.context.place? v = m.context.next? v := by
    funext id
    cases hnext : m.context.next? v id with
    | none => simp [Context.place?, hnext]
    | some goal =>
      simp [Context.place?, hnext, honward id goal (Context.mem_successors_of_next? hnext).2]
  exact hplace ▸ visits_place? hcode h v

/-- The graph of a structured method visits some blocks, and running the sections visits the same
ones exactly if, where the sections and the graph part, both go on to visit the same blocks. -/
theorem exists_visits_iff (hcode : Produced m.code) (h : m.context.sections = .ok sections)
    (v : Valuation) :
    ∃ visited, m.context.graph.Visits (m.context.next? v) 0 visited ∧
      (Section.visitedAll m.context.graph v sections [] = visited ↔
        ∀ x y, BlockGraph.Parts (m.context.next? v) (m.context.place? v) 0 x y →
          ∀ rest, m.context.graph.Visits (m.context.next? v) x rest →
            m.context.graph.Visits (m.context.place? v) y rest) := by
  obtain ⟨visited, hvisited⟩ := Context.exists_visits_of_sections
    (BlockGraph.numbered_build m.code) (BlockGraph.isFeeder_build (fits_of_produced hcode)) h v
  have hrun := visits_place? hcode h v
  have hdefined : ∀ id, (m.context.place? v id).isSome = (m.context.next? v id).isSome := by
    simp [Context.place?]
  -- the run and the walk that goes where the sections go on are the same list
  refine ⟨visited, hvisited, Iff.trans ⟨fun heq => heq ▸ hrun, fun hvisits => hvisits.unique hrun⟩
    (BlockGraph.visits_iff_of_parts (fun id goal hnext => ?_) hdefined hvisited)⟩
  exact (Context.mem_successors_of_next? hnext).1

/-- An `if` with an alternative. -/
def guarded : Method where
  name := "guarded"
  descriptor := none
  locals := .empty
  constants := []
  code :=
    [⟨0, .iload0, .none⟩, ⟨1, .ifeq, .label 4⟩, ⟨4, .iinc, .increment 1 1⟩, ⟨7, .goto, .label 5⟩,
      ⟨10, .iinc, .increment 2 1⟩, ⟨13, .returnVoid, .none⟩]

/-- The sections of `guarded`. -/
def guardedSections : List Section :=
  [.choice (.test (.truth (.var ⟨0, "local0", .int⟩) false)) [.block 1] [.block 2], .block 3]

theorem exists_visits_iff_guarded :
    Produced guarded.code ∧ guarded.context.sections = .ok guardedSections ∧
      ∃ visited, guarded.context.graph.Visits
          (guarded.context.next? (.ofValues fun _ => 1)) 0 visited ∧
        (Section.visitedAll guarded.context.graph (.ofValues fun _ => 1) guardedSections [] =
            visited ↔
          ∀ x y, BlockGraph.Parts (guarded.context.next? (.ofValues fun _ => 1))
              (guarded.context.place? (.ofValues fun _ => 1)) 0 x y →
            ∀ rest, guarded.context.graph.Visits
                (guarded.context.next? (.ofValues fun _ => 1)) x rest →
              guarded.context.graph.Visits
                (guarded.context.place? (.ofValues fun _ => 1)) y rest) :=
  have hcode : Produced guarded.code :=
    .inl ⟨["iload_0", "ifeq else", "iinc 1 1", "goto end", "else:", "iinc 2 1", "end:", "return"],
      eq_ok_of_toOption_eq_some (by decide +kernel)⟩
  have hsections : guarded.context.sections = .ok guardedSections := by with_unfolding_all rfl
  ⟨hcode, hsections, exists_visits_iff hcode hsections _⟩

/-- A jump over an instruction. -/
def overJump : Method where
  name := "overJump"
  descriptor := none
  locals := .empty
  constants := []
  code := [⟨0, .goto, .label 2⟩, ⟨3, .iinc, .increment 0 1⟩, ⟨6, .returnVoid, .none⟩]

/-- The block that is jumped over is not visited by the graph, but by the sections. -/
theorem visits_overJump :
    Produced overJump.code ∧
      overJump.context.sections = .ok [.block 0, .block 1, .block 2] ∧
      ∀ v, overJump.context.graph.Visits (overJump.context.next? v) 0 [0, 2] ∧
        Section.visitedAll overJump.context.graph v [.block 0, .block 1, .block 2] [] =
          [0, 1, 2] := by
  refine ⟨.inl ⟨["goto end", "iinc 0 1", "end:", "return"],
    eq_ok_of_toOption_eq_some (by decide +kernel)⟩, by with_unfolding_all rfl, fun v => ⟨?_, rfl⟩⟩
  have hfirst : overJump.context.next? v 0 = some 2 := rfl
  have hlast : overJump.context.next? v 2 = none := rfl
  exact .block (by decide) (by decide) hfirst (.last (by decide) (by decide) hlast)

end Method

end Unjump
