import Unjump.Proofs.Region.Search
import Unjump.Proofs.Replay.Alike

/-!
# Which blocks are looked up

Blocks are looked up by their names: when the edges of a graph are examined, in every pass of the
search for sections, and when the sections are replayed (`Context.LooksUp`). A pass looks up the
block that it takes up, those that are asked to join its group, the feeders of all of these and the
last one of the guarded blocks (`Context.PassLooksUp`). No other block decides what becomes of a
pass: if these are alike in another method, the same group is gathered, it guards the same blocks
and it has the same condition (`Context.Gathers.alike`, `Context.Guards.alike`,
`Context.Gathers.condition_alike`).
-/

namespace Unjump

/-- A block is looked up in a pass of a search that takes up the block `start`, when the blocks that
are left to search end at `stop`. -/
inductive Context.PassLooksUp (ctx : Context) (start stop : Nat) : Nat → Prop where
  /-- The block that is taken up, and every block that is asked to join its group. -/
  | candidate {count : Nat} (hcount : count ≤ ctx.graph.grow start stop 1 + 1)
      (hlt : start + count < stop) : PassLooksUp ctx start stop (start + count)
  /-- The block that leaves operands for the test of a member. -/
  | feeder {id feeder : Nat} {b : Block} (hid : PassLooksUp ctx start stop id)
      (hb : ctx.graph.block? id = some b) (hfeeder : b.feeder = some feeder) :
      PassLooksUp ctx start stop feeder
  /-- The last one of the guarded blocks, which may jump over an alternative. -/
  | last {count past : Nat} (hguards : ctx.Guards start stop count past) :
      PassLooksUp ctx start stop (past - 1)

/-- A block is looked up while a method is decompiled. -/
inductive Context.LooksUp (ctx : Context) : Nat → Prop where
  /-- A block of the graph, to see where it leads and what operands it leaves. -/
  | own {b : Block} (hb : b ∈ ctx.graph.blocks) : LooksUp ctx b.id
  /-- A block that can follow another, to see which blocks lead to it. -/
  | successor {id next : Nat} (hnext : next ∈ ctx.graph.successors id) : LooksUp ctx next
  /-- A block in the search for sections. -/
  | search {passes : List (Nat × Nat)} {result : Except Failure (List Section)}
      {start stop id : Nat} (hsearches : ctx.Searches 0 ctx.graph.size passes result)
      (hpass : (start, stop) ∈ passes) (hid : ctx.PassLooksUp start stop id) : LooksUp ctx id
  /-- A block that is replayed as part of the sections. -/
  | replay {sections : List Section} {id : Nat} (hsections : ctx.sections = .ok sections)
      (hid : id ∈ Section.blocksAll sections) : LooksUp ctx id

variable {ctx ctx' : Context}

namespace DecisionGraph

variable {named : Nat → Prop} (h : ctx.AlikeAt ctx' named) (hfeeders : ctx.HoldsFeeders named)
include h hfeeders

/-- A member of a group makes the same decision. -/
theorem decide_alike (group : List Nat) (body past : Nat) {block : Nat} (hblock : named block) :
    SameOutcome Failure.Alike (decide ctx group body past block)
      (decide ctx' group body past block) := by
  unfold decide
  rw [h.graph.target hblock, h.graph.otherwise hblock]
  exact (Context.jumpTest_alike h hfeeders hblock).bind fun test => .refl .same _

/-- A group has the same decisions and paths. -/
theorem build_alike {group : List Nat} (hgroup : ∀ id ∈ group, named id) (body past : Nat) :
    SameOutcome Failure.Alike (build ctx group body past) (build ctx' group body past) := by
  unfold build
  split
  · exact .error (.same _)
  · refine (SameOutcome.mapM _ fun block hblock => ?_).bind fun decisions => .refl .same _
    exact decide_alike h hfeeders _ body past (hgroup block hblock)

end DecisionGraph

namespace Context

/-- A group has the same condition if its members and their feeders are alike. -/
theorem groupCondition_alike {named : Nat → Prop} (h : ctx.AlikeAt ctx' named)
    (hfeeders : ctx.HoldsFeeders named) {group : List Nat} (hgroup : ∀ id ∈ group, named id)
    (body past : Nat) :
    SameOutcome Failure.Alike (ctx.groupCondition group body past)
      (ctx'.groupCondition group body past) :=
  (DecisionGraph.build_alike h hfeeders hgroup body past).bind fun _ => .refl .same _

variable {start stop count past : Nat}

theorem holdsFeeders_passLooksUp : ctx.HoldsFeeders (ctx.PassLooksUp start stop) :=
  fun _ hid _ hb _ hfeeder => .feeder hid hb hfeeder

/-- Every block that joins a group is one of those that are left to search. -/
theorem lt_of_lt_grow (g : BlockGraph) {entry stop count k : Nat} (hle : count ≤ k)
    (hlt : k < count + g.grow entry stop count) : entry + k < stop := by
  fun_induction g.grow entry stop count with
  | case1 count next h ih =>
    obtain rfl | hne := Nat.eq_or_lt_of_le hle
    · exact h.1
    · exact ih hne (by omega)
  | case2 => omega

/-- The members of a group are looked up. -/
theorem Gathers.looksUp (hgroup : ctx.Gathers start stop count) {k : Nat} (hk : k < count + 1) :
    ctx.PassLooksUp start stop (start + k) := by
  have hcount := hgroup.count_eq
  refine .candidate (by omega) ?_
  obtain rfl | hpos := Nat.eq_zero_or_pos k
  · exact hgroup.lt
  · exact lt_of_lt_grow ctx.graph (show 1 ≤ k from hpos) (by omega)

section Pass

variable (h : ctx.AlikeAt ctx' (ctx.PassLooksUp start stop))
include h

/-- The same group is gathered, and it has the same exits. -/
theorem Gathers.alike (hgroup : ctx.Gathers start stop count) :
    ctx'.Gathers start stop count ∧
      ctx'.graph.exits start (count + 1) = ctx.graph.exits start (count + 1) := by
  have hstart : ctx.PassLooksUp start stop start := hgroup.looksUp (Nat.succ_pos count)
  have hgrow : ctx'.graph.grow start stop 1 = ctx.graph.grow start stop 1 := by
    refine h.graph.grow (fun k hk => ?_) fun k _ hle hlt => .candidate (by omega) hlt
    exact hgroup.looksUp (by omega)
  refine ⟨⟨hgroup.lt, ?_, ?_, ?_⟩, h.graph.exits fun k hk => hgroup.looksUp hk⟩
  · rw [h.graph.isFeeder, hgroup.isFeeder]
  · rw [h.graph.isConditional hstart, hgroup.isConditional]
  · rw [hgrow, hgroup.count_eq]

/-- The group guards the same blocks, and control meets again at the same block. -/
theorem Guards.alike (hguards : ctx.Guards start stop count past) :
    ctx'.Guards start stop count past ∧ ctx'.graph.join past stop = ctx.graph.join past stop := by
  obtain ⟨hgroup, hexits⟩ := hguards.toGathers.alike h
  refine ⟨⟨hgroup, ?_, ?_, hguards.body_lt, hguards.past_le⟩, h.graph.join (.last hguards) stop⟩
  · rw [hexits]
    exact hguards.body_mem
  · rw [hexits]
    exact hguards.exit

/-- The group has the same condition. -/
theorem Gathers.condition_alike (hgroup : ctx.Gathers start stop count) {body past : Nat}
    {condition : Except Failure Condition}
    (hcondition : ctx.groupCondition (List.range' start (count + 1)) body past = condition) :
    SameOutcome Failure.Alike condition
      (ctx'.groupCondition (List.range' start (count + 1)) body past) := by
  rw [← hcondition]
  refine groupCondition_alike h holdsFeeders_passLooksUp (fun id hid => ?_) body past
  obtain ⟨hle, hlt⟩ := List.mem_range'_1.1 hid
  have hmember := hgroup.looksUp (k := id - start) (by omega)
  rwa [Nat.add_sub_cancel' hle] at hmember

end Pass

/-- A search comes to the same if in every pass the blocks that are looked up are alike. -/
theorem Searches.alike {passes : List (Nat × Nat)} {result : Except Failure (List Section)}
    (hsearches : ctx.Searches start stop passes result)
    (h : ∀ pass ∈ passes, ctx.AlikeAt ctx' (ctx.PassLooksUp pass.1 pass.2)) :
    SameOutcome Failure.Alike result (ctx'.sectionsBetween start stop) := by
  induction hsearches with
  | done hlt =>
    rw [sectionsBetween_of_not_lt hlt]
    exact .ok []
  | feeder hlt hfeeder _ ih =>
    obtain ⟨hpass, hrest⟩ := List.forall_mem_cons.1 h
    rw [sectionsBetween_of_feeder hlt (by rw [hpass.graph.isFeeder, hfeeder])]
    exact ih hrest
  | block hlt hfeeder hcond _ ih =>
    obtain ⟨hpass, hrest⟩ := List.forall_mem_cons.1 h
    have hcond' := hpass.graph.isConditional (.candidate (Nat.zero_le _) hlt)
    rw [sectionsBetween_of_block hlt (by rw [hpass.graph.isFeeder, hfeeder])
      (hcond'.trans hcond)]
    exact (ih hrest).map _
  | noBody hgroup hbody =>
    obtain ⟨hgroup', hexits⟩ := hgroup.alike (h _ List.mem_cons_self)
    rw [hgroup'.sectionsBetween_noBody (hexits ▸ hbody)]
    exact .error (.same _)
  | singleExit hgroup hbody hexit =>
    obtain ⟨hgroup', hexits⟩ := hgroup.alike (h _ List.mem_cons_self)
    rw [hgroup'.sectionsBetween_singleExit (hexits ▸ hbody) (hexits ▸ hexit)]
    exact .error (.same _)
  | exitOutside hgroup hbody hexit hpast =>
    obtain ⟨hgroup', hexits⟩ := hgroup.alike (h _ List.mem_cons_self)
    rw [hgroup'.sectionsBetween_exitOutside (hexits ▸ hbody) (hexits ▸ hexit) hpast]
    exact .error (.same _)
  | noCondition hguards hcondition =>
    have hpass := h _ List.mem_cons_self
    obtain ⟨failure', hcondition', hfailure⟩ := (hguards.condition_alike hpass hcondition).of_error
    rw [(hguards.alike hpass).1.sectionsBetween_eq, hcondition']
    exact .error hfailure
  | noInside hguards hcondition _ ih =>
    obtain ⟨hpass, hinside⟩ := List.forall_mem_cons.1 h
    obtain ⟨failure', hinside', hfailure⟩ := (ih hinside).of_error
    rw [(hguards.alike hpass).1.sectionsBetween_eq,
      (hguards.condition_alike hpass hcondition).of_ok, hinside']
    exact .error hfailure
  | noAlternative hguards hcondition _ _ ihInside ihAlternative =>
    obtain ⟨hpass, hrest⟩ := List.forall_mem_cons.1 h
    obtain ⟨hinside, halternative⟩ := List.forall_mem_append.1 hrest
    obtain ⟨hguards', hjoin⟩ := hguards.alike hpass
    obtain ⟨failure', halternative', hfailure⟩ := (ihAlternative halternative).of_error
    rw [hguards'.sectionsBetween_eq, (hguards.condition_alike hpass hcondition).of_ok,
      (ihInside hinside).of_ok, hjoin, halternative']
    exact .error hfailure
  | choice hguards hcondition _ _ _ ihInside ihAlternative ihRest =>
    obtain ⟨hpass, hparts⟩ := List.forall_mem_cons.1 h
    obtain ⟨hbranches, hrest⟩ := List.forall_mem_append.1 hparts
    obtain ⟨hinside, halternative⟩ := List.forall_mem_append.1 hbranches
    obtain ⟨hguards', hjoin⟩ := hguards.alike hpass
    rw [hguards'.sectionsBetween_eq, (hguards.condition_alike hpass hcondition).of_ok,
      (ihInside hinside).of_ok, hjoin, (ihAlternative halternative).of_ok]
    obtain ⟨rest, rfl, hrest'⟩ | ⟨failure, failure', rfl, hrest', hfailure⟩ := (ihRest hrest).cases
    · rw [hrest']
      exact .ok _
    · rw [hrest']
      exact .error hfailure

end Context

end Unjump
