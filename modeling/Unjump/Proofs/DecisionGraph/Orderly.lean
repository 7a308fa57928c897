import Mathlib.Logic.Relation
import Unjump.Proofs.DecisionGraph.Unfolding

/-!
# Orderly groups

Simplifying the condition of a group takes tests out of it. This does not change what asking the
condition comes to if the group is orderly: no test is asked twice on the way, the body can be
reached from everywhere, and the tests that lead right to the body come first. Then the tree of
tests that the group unfolds to is fresh, live and in order (`Unfolds.fresh`, `Unfolds.live`,
`Unfolds.inOrder`).
-/

namespace Unjump

namespace Context

/-- Control can go from one member of a group to another. -/
def GoesOn (ctx : Context) (group : List Nat) (body past id next : Nat) : Prop :=
  (∃ taken, ctx.edge? id taken = some next) ∧ next ∈ group ∧ next ≠ body ∧ next ≠ past

/-- The members at the front of a group: each jumps right to the body, and the next one follows if
it does not. -/
inductive AtFront (ctx : Context) (group : List Nat) (body past entry : Nat) : Nat → Prop where
  | entry : AtFront ctx group body past entry entry
  | next {id next : Nat} (hfront : AtFront ctx group body past entry id)
      (hjump : ctx.edge? id true = some body) (hnext : ctx.edge? id false = some next)
      (hmem : next ∈ group) (hbody : next ≠ body) (hpast : next ≠ past) :
      AtFront ctx group body past entry next

open Relation in
/-- What makes it safe to simplify the condition of a group. -/
structure Orderly (ctx : Context) (group : List Nat) (body past entry : Nat) : Prop where
  /-- No test is asked again on the way, the one way round or the other. -/
  fresh : ∀ id id', ReflTransGen (ctx.GoesOn group body past) entry id →
    TransGen (ctx.GoesOn group body past) id id' →
    ∀ t t', ctx.jumpTest id = .ok t → ctx.jumpTest id' = .ok t' → t ≠ t' ∧ t ≠ t'.inverse
  /-- The body can be reached from every member that is reached. -/
  live : ∀ id, ReflTransGen (ctx.GoesOn group body past) entry id →
    ∃ id' taken, ReflTransGen (ctx.GoesOn group body past) id id' ∧
      ctx.edge? id' taken = some body
  /-- The first member that does not jump right to the body does not go there if it does not jump,
  at least if it jumps to another member. -/
  inOrder : ∀ id next, ctx.AtFront group body past entry id → ctx.edge? id true = some next →
    next ∈ group → next ≠ body → next ≠ past → ctx.edge? id false ≠ some body

/-! ## Groups that fall through -/

/-- The blocks of a group stand one after the other in front of the body. Each goes on to the next
one if its jump is not taken, and every jump leads forward. -/
structure FallsThrough (ctx : Context) (group : List Nat) (body past : Nat) : Prop where
  falls : ∀ id ∈ group, ctx.edge? id false = some (id + 1)
  next : ∀ id ∈ group, id + 1 ∈ group ∨ id + 1 = body
  forward : ∀ id ∈ group, ∀ taken, ∀ next ∈ ctx.edge? id taken, id < next
  lt_body : ∀ id ∈ group, id < body
  body_lt_past : body < past

section FallsThrough

open Relation

variable {ctx : Context} {group : List Nat} {body past entry : Nat}

/-- The members at the front are members of the group. -/
theorem AtFront.mem {id : Nat} (h : ctx.AtFront group body past entry id)
    (hentry : entry ∈ group) : id ∈ group := by
  cases h with
  | entry => exact hentry
  | next _ _ _ hmem _ _ => exact hmem

/-- Control only goes on to members of the group. -/
theorem mem_of_reflTransGen {id id' : Nat} (hid : id ∈ group)
    (h : ReflTransGen (ctx.GoesOn group body past) id id') : id' ∈ group := by
  cases h with
  | refl => exact hid
  | tail _ hgoes => exact hgoes.2.1

variable (h : ctx.FallsThrough group body past)
include h

/-- Control only goes forward. -/
theorem FallsThrough.lt_of_transGen {id id' : Nat} (hid : id ∈ group)
    (hway : TransGen (ctx.GoesOn group body past) id id') : id < id' := by
  induction hway with
  | single hgoes =>
    obtain ⟨⟨taken, hedge⟩, -⟩ := hgoes
    exact h.forward id hid taken _ hedge
  | tail hway hgoes ih =>
    obtain ⟨⟨taken, hedge⟩, -⟩ := hgoes
    exact Nat.lt_trans ih
      (h.forward _ (mem_of_reflTransGen hid hway.to_reflTransGen) taken _ hedge)

/-- Falling through from block to block, control comes to the body. -/
theorem FallsThrough.exists_edge_body {id : Nat} (hid : id ∈ group) :
    ∃ id' taken, ReflTransGen (ctx.GoesOn group body past) id id' ∧
      ctx.edge? id' taken = some body := by
  have hlt := h.lt_body id hid
  induction hleft : body - id generalizing id with
  | zero => omega
  | succ left ih =>
    have hedge := h.falls id hid
    obtain hmem | hbody := h.next id hid
    · have hlt' := h.lt_body (id + 1) hmem
      obtain ⟨id', taken, hway, hedge'⟩ := ih hmem hlt' (by omega)
      have hgoes : ctx.GoesOn group body past id (id + 1) :=
        ⟨⟨false, hedge⟩, hmem, by omega, by have := h.body_lt_past; omega⟩
      exact ⟨id', taken, .head hgoes hway, hedge'⟩
    · exact ⟨id, false, .refl, hbody ▸ hedge⟩

/-- A group that falls through is orderly if its blocks ask different tests. -/
theorem Orderly.of_fallsThrough (hentry : entry ∈ group)
    (htests : ∀ id ∈ group, ∀ id' ∈ group, id < id' → ∀ t t', ctx.jumpTest id = .ok t →
      ctx.jumpTest id' = .ok t' → t ≠ t' ∧ t ≠ t'.inverse) :
    ctx.Orderly group body past entry where
  fresh id id' hreach hway := by
    have hid := mem_of_reflTransGen hentry hreach
    exact htests id hid id' (mem_of_reflTransGen hid hway.to_reflTransGen)
      (h.lt_of_transGen hid hway)
  live id hreach := h.exists_edge_body (mem_of_reflTransGen hentry hreach)
  inOrder id next hfront hjump hmem _ _ hfalls := by
    -- only the last block falls through to the body, and it jumps past all the others
    have hid := hfront.mem hentry
    have hbody : id + 1 = body := Option.some.inj ((h.falls id hid).symm.trans hfalls)
    have hlt := h.forward id hid true next hjump
    have hlt' := h.lt_body next hmem
    omega

end FallsThrough

end Context

namespace DecisionGraph

open Relation

variable {ctx : Context} {group : List Nat} {body past : Nat} {decisions : List Decision}

/-- What holds of a tree without tests, and of the tree of every member that control can go on to,
holds of the tree of a block that an edge leads to. -/
theorem TreeAt.of_goesOn {P : DecisionTree → Prop} {id next : Nat} {taken : Bool}
    {tree : DecisionTree} (h : TreeAt decisions group body past next tree)
    (hedge : ctx.edge? id taken = some next) (hbody : P .body) (hpast : P .past)
    (hmember : ∀ {position}, Unfolds decisions (.member position) tree →
      group[position]? = some next → ctx.GoesOn group body past id next → P tree) : P tree := by
  cases h with
  | body => exact hbody
  | past _ => exact hpast
  | member hget hbody hpast htree =>
    exact hmember htree hget ⟨⟨taken, hedge⟩, List.mem_of_getElem? hget, hbody, hpast⟩

variable (hdecisions : group.mapM (decide ctx group body past) = .ok decisions)
include hdecisions

/-- If control can go from a member to the body, the tree of the member has a way there. -/
theorem Unfolds.clauses_ne_nil {id id' : Nat}
    (hreach : ReflTransGen (ctx.GoesOn group body past) id id') {taken : Bool}
    (hbody : ctx.edge? id' taken = some body) {tree : DecisionTree} {position : Nat}
    (h : Unfolds decisions (.member position) tree) (hid : group[position]? = some id) :
    tree.clauses ≠ [] := by
  have hask (taken : Bool) {t : Test} {yes no : DecisionTree}
      (h : (if taken then yes else no).clauses ≠ []) : (DecisionTree.ask t yes no).clauses ≠ [] := by
    cases taken <;> simp_all [DecisionTree.clauses]
  induction hreach using ReflTransGen.head_induction_on generalizing tree position with
  | refl =>
    obtain ⟨t, yes, no, rfl, -, hedges⟩ := h.exists_ask hdecisions hid
    obtain ⟨next, hedge, htree⟩ := hedges taken
    cases hedge.symm.trans hbody
    refine hask taken ?_
    generalize (if taken then yes else no) = rest at htree ⊢
    cases htree with
    | body => simp [DecisionTree.clauses]
    | past hne => exact absurd rfl hne
    | member _ hne _ _ => exact absurd rfl hne
  | head hgoes _ ih =>
    obtain ⟨t, yes, no, rfl, -, hedges⟩ := h.exists_ask hdecisions hid
    obtain ⟨⟨taken, hedge⟩, -, hne, hne'⟩ := hgoes
    obtain ⟨next, hedge', htree⟩ := hedges taken
    cases hedge'.symm.trans hedge
    obtain ⟨position', hget, htree⟩ := htree.exists_member hne hne'
    exact hask taken (ih htree hget)

variable {entry : Nat} (horderly : ctx.Orderly group body past entry)
include horderly

/-- The body can be reached from every test in the tree of a member. -/
theorem Unfolds.live {tree : DecisionTree} {position id : Nat}
    (h : Unfolds decisions (.member position) tree) (hid : group[position]? = some id)
    (hreach : ReflTransGen (ctx.GoesOn group body past) entry id) : tree.Live := by
  induction tree generalizing position id with
  | body => cases h
  | past => cases h
  | ask t yes no ihyes ihno =>
    obtain ⟨id', taken, hreach', hbody⟩ := horderly.live id hreach
    have hne := h.clauses_ne_nil hdecisions hreach' hbody hid
    obtain ⟨t, yes, no, heq, -, hedges⟩ := h.exists_ask hdecisions hid
    cases heq
    obtain ⟨next, hedge, htree⟩ := hedges true
    obtain ⟨next', hedge', htree'⟩ := hedges false
    refine ⟨hne, ?_, ?_⟩
    · exact htree.of_goesOn (P := DecisionTree.Live) hedge trivial trivial
        fun h hget hgoes => ihyes h hget (hreach.tail hgoes)
    · exact htree'.of_goesOn (P := DecisionTree.Live) hedge' trivial trivial
        fun h hget hgoes => ihno h hget (hreach.tail hgoes)

/-- The tree of a member asks no test that a member on the way there has asked. -/
theorem Unfolds.fresh {tree : DecisionTree} {known : List Test} {position id : Nat}
    (h : Unfolds decisions (.member position) tree) (hid : group[position]? = some id)
    (hreach : ReflTransGen (ctx.GoesOn group body past) entry id)
    (hknown : ∀ u ∈ known, ∃ earlier, ReflTransGen (ctx.GoesOn group body past) entry earlier ∧
      TransGen (ctx.GoesOn group body past) earlier id ∧ ctx.jumpTest earlier = .ok u) :
    tree.Fresh known := by
  induction tree generalizing known position id with
  | body => cases h
  | past => cases h
  | ask t yes no ihyes ihno =>
    obtain ⟨t, yes, no, heq, htest, hedges⟩ := h.exists_ask hdecisions hid
    cases heq
    -- the test is not among the known ones, and is one of them from here on
    have hnew (u : Test) (hu : u ∈ known) : u ≠ t ∧ u ≠ t.inverse := by
      obtain ⟨earlier, hearlier, hway, hasked⟩ := hknown u hu
      exact horderly.fresh earlier id hearlier hway u t hasked htest
    have hknown' {next : Nat} (hgoes : ctx.GoesOn group body past id next) :
        ∀ u ∈ known ++ [t], ∃ earlier, ReflTransGen (ctx.GoesOn group body past) entry earlier ∧
          TransGen (ctx.GoesOn group body past) earlier next ∧ ctx.jumpTest earlier = .ok u := by
      intro u hu
      obtain hu | hu := List.mem_append.1 hu
      · obtain ⟨earlier, hearlier, hway, hasked⟩ := hknown u hu
        exact ⟨earlier, hearlier, hway.tail hgoes, hasked⟩
      · obtain rfl := List.mem_singleton.1 hu
        exact ⟨id, hreach, .single hgoes, htest⟩
    obtain ⟨next, hedge, htree⟩ := hedges true
    obtain ⟨next', hedge', htree'⟩ := hedges false
    refine ⟨fun hu => (hnew t hu).1 rfl, fun hu => (hnew t.inverse hu).2 rfl, ?_, ?_⟩
    · exact htree.of_goesOn (P := DecisionTree.Fresh (known ++ [t])) hedge trivial trivial
        fun h hget hgoes => ihyes h hget (hreach.tail hgoes) (hknown' hgoes)
    · exact htree'.of_goesOn (P := DecisionTree.Fresh (known ++ [t])) hedge' trivial trivial
        fun h hget hgoes => ihno h hget (hreach.tail hgoes) (hknown' hgoes)

/-- The tests in the tree of a member at the front that lead right to the body come first. -/
theorem Unfolds.inOrder {tree : DecisionTree} {position id : Nat}
    (h : Unfolds decisions (.member position) tree) (hid : group[position]? = some id)
    (hfront : ctx.AtFront group body past entry id) : tree.InOrder := by
  induction tree generalizing position id with
  | body => cases h
  | past => cases h
  | ask t yes no _ ihno =>
    obtain ⟨t, yes, no, heq, -, hedges⟩ := h.exists_ask hdecisions hid
    cases heq
    obtain ⟨next, hedge, htree⟩ := hedges true
    obtain ⟨next', hedge', htree'⟩ := hedges false
    rw [if_pos rfl] at htree
    rw [if_neg (by decide)] at htree'
    cases htree with
    | body =>
      -- the test leads right to the body, so the member that follows is at the front as well
      cases htree' with
      | body => trivial
      | past _ => trivial
      | member hget hbody hpast htree =>
        have hmem := List.mem_of_getElem? hget
        exact ihno htree hget (.next hfront hedge hedge' hmem hbody hpast)
    | past _ => trivial
    | @member _ _ _ hget hbody hpast htree =>
      obtain ⟨u, yes', no', rfl, -, -⟩ := htree.exists_ask hdecisions hget
      rintro rfl
      cases htree' with
      | body =>
        exact horderly.inOrder id next hfront hedge (List.mem_of_getElem? hget) hbody hpast hedge'
      | member _ _ _ htree => cases htree

end DecisionGraph

end Unjump
