import Unjump.Method
import Unjump.Proofs.BlockGraph.Blocks
import Unjump.Proofs.Region.Arrangement
import Unjump.Proofs.Section.Replay

/-!
# What decompiling a method keeps

The statements of a method have the effects of the instructions of its blocks without tests, in the
order of the code. A block that ends with a test is only asked for its condition, so an effect that
stands between the last empty stack and a test is lost. Nothing is lost exactly if there is no such
effect (`effectsAll_of_decompile`).

A choice leaves the operands as they were exactly if its branches put back what they take
(`exists_replay_choice`).
-/

namespace Unjump

private theorem length_flatMap_filter_le {α β : Type} (p : α → Bool) (f : α → List β)
    (xs : List α) : ((xs.filter p).flatMap f).length ≤ (xs.flatMap f).length := by
  induction xs with
  | nil => simp
  | cons x xs ih =>
    rw [List.filter_cons]
    split <;> simp only [List.flatMap_cons, List.length_append] <;> omega

/-- Leaving elements out of a list changes what they are mapped to, unless that is nothing. -/
private theorem flatMap_filter_eq_iff {α β : Type} (p : α → Bool) (f : α → List β) (xs : List α) :
    (xs.filter p).flatMap f = xs.flatMap f ↔ ∀ x ∈ xs, p x = false → f x = [] := by
  induction xs with
  | nil => simp
  | cons x xs ih =>
    cases hx : p x with
    | true => simp [hx, ih]
    | false =>
      have hle := length_flatMap_filter_le p f xs
      rw [List.filter_cons_of_neg (by simp [hx]), List.flatMap_cons, List.forall_mem_cons, ← ih]
      constructor
      · intro heq
        -- what is left out would make the list longer
        have hlen := congrArg List.length heq
        rw [List.length_append] at hlen
        have hnil : f x = [] := List.length_eq_zero_iff.1 (by omega)
        exact ⟨fun _ => hnil, by simpa [hnil] using heq⟩
      · rintro ⟨hnil, heq⟩
        simp [hnil hx, heq]

namespace Method

variable {m : Method} {statements : List Statement}

/-- A method that is decompiled has sections, and they are replayed from the start. -/
theorem exists_replayAll_of_decompile (h : m.decompile = .ok statements) :
    ∃ sections t, m.context.sections = .ok sections ∧
      Section.replayAll m.context sections .empty = .ok t ∧ t.stack = [] ∧
      statements = t.emitted := by
  unfold decompile Context.decompile at h
  split at h
  · cases h
  · rename_i sections hsections
    split at h
    · cases h
    · rename_i t ht
      split at h
      · rename_i hempty
        cases h
        exact ⟨sections, t, hsections, ht, by simpa using hempty, rfl⟩
      · cases h

/-! ## Operands -/

/-- Wherever a choice is replayed in a method that is decompiled, both branches leave the stack as
deep as it was, with the same operands below those that they take. They leave the same operands
exactly if they put back what they take. -/
theorem exists_replay_choice {sections : List Section} (h : m.decompile = .ok statements)
    (hsections : m.context.sections = .ok sections) {condition : Condition}
    {body alternative : List Section} {t : Trail}
    (hreached : Section.Reached m.context sections .empty
      (.choice condition body alternative) t) :
    let needs := reach (Section.code m.context.graph body)
    let needs' := reach (Section.code m.context.graph alternative)
    ∃ first second, Section.replayAll m.context body ⟨[], t.stack⟩ = .ok first ∧
      Section.replayAll m.context alternative ⟨[], first.stack⟩ = .ok second ∧
      Section.replay m.context (.choice condition body alternative) t =
        .ok (t.emit (.branch condition first.emitted second.emitted) second.stack) ∧
      first.stack.length = t.stack.length ∧ second.stack.length = t.stack.length ∧
      first.stack.drop needs = t.stack.drop needs ∧
      second.stack.drop needs' = first.stack.drop needs' ∧
      (first.stack = t.stack ∧ second.stack = t.stack ↔
        first.stack.take needs = t.stack.take needs ∧
          second.stack.take needs' = first.stack.take needs') := by
  intro needs needs'
  obtain ⟨sections', last, hsections', hreplay, -⟩ := exists_replayAll_of_decompile h
  obtain rfl := Except.ok.inj (hsections.symm.trans hsections')
  obtain ⟨u, hu⟩ := hreached.exists_replay hreplay
  obtain ⟨first, second, hfirst, hdepth, hsecond, hdepth', rfl⟩ := Section.replay_choice_eq_ok hu
  -- the alternative is compared with the stack that it starts from, which the body leaves
  have hbody := Section.stack_eq_iff_of_balanced hfirst hdepth
  have halternative := Section.stack_eq_iff_of_balanced hsecond (hdepth'.trans hdepth.symm)
  refine ⟨first, second, hfirst, hsecond, hu, hdepth, hdepth',
    Section.drop_stack_of_balanced hfirst hdepth,
    Section.drop_stack_of_balanced hsecond (hdepth'.trans hdepth.symm), ?_⟩
  rw [← hbody, ← halternative]
  constructor
  · rintro ⟨heq, heq'⟩
    exact ⟨heq, heq'.trans heq.symm⟩
  · rintro ⟨heq, heq'⟩
    exact ⟨heq, heq'.trans heq⟩

/-- An operand that stays on the stack while another one is tested. -/
def kept : Method where
  name := "kept"
  descriptor := none
  locals := .empty
  constants := []
  code :=
    [⟨0, .iconst1, .none⟩, ⟨1, .goto, .label 2⟩, ⟨4, .iload0, .none⟩, ⟨5, .ifeq, .label 5⟩,
      ⟨8, .iinc, .increment 0 1⟩, ⟨11, .istore1, .none⟩, ⟨12, .returnVoid, .none⟩]

/-- The condition that the variable of slot 0 is true. -/
def flag : Condition :=
  .test (.truth (.var ⟨0, "local0", .int⟩) false)

/-- The sections of `kept`. -/
def keptSections : List Section :=
  [.block 0, .choice flag [.block 2] [], .block 3]

/-- The statements of `kept`. -/
def keptStatements : List Statement :=
  [.branch flag [.increment ⟨0, "local0", .int⟩ 1] [], .assign ⟨1, "local1", .int⟩ (.int 1),
    .leave none]

private theorem sections_kept : kept.context.sections = .ok keptSections := by
  with_unfolding_all rfl

private theorem decompile_kept : kept.decompile = .ok keptStatements := by
  rw [decompile, Context.decompile, sections_kept]
  rfl

theorem exists_replay_choice_kept :
    kept.decompile = .ok keptStatements ∧ kept.context.sections = .ok keptSections ∧
      Section.Reached kept.context keptSections .empty (.choice flag [.block 2] [])
        ⟨[], [.int 1]⟩ ∧
      let needs := reach (Section.code kept.context.graph [.block 2])
      let needs' := reach (Section.code kept.context.graph [])
      ∃ first second, Section.replayAll kept.context [.block 2] ⟨[], [.int 1]⟩ = .ok first ∧
        Section.replayAll kept.context [] ⟨[], first.stack⟩ = .ok second ∧
        Section.replay kept.context (.choice flag [.block 2] []) ⟨[], [.int 1]⟩ =
          .ok (Trail.emit ⟨[], [.int 1]⟩ (.branch flag first.emitted second.emitted)
            second.stack) ∧
        first.stack.length = [Expr.int 1].length ∧ second.stack.length = [Expr.int 1].length ∧
        first.stack.drop needs = [Expr.int 1].drop needs ∧
        second.stack.drop needs' = first.stack.drop needs' ∧
        (first.stack = [.int 1] ∧ second.stack = [.int 1] ↔
          first.stack.take needs = [Expr.int 1].take needs ∧
            second.stack.take needs' = first.stack.take needs') :=
  have hfirst : Section.replay kept.context (.block 0) .empty = .ok ⟨[], [.int 1]⟩ := rfl
  have hreached : Section.Reached kept.context keptSections .empty (.choice flag [.block 2] [])
      ⟨[], [.int 1]⟩ := .later hfirst .here
  ⟨decompile_kept, sections_kept, hreached,
    exists_replay_choice decompile_kept sections_kept hreached⟩

/-- A branch that replaces the operand below it. -/
def replaced : Method where
  name := "replaced"
  descriptor := none
  locals := .empty
  constants := []
  code :=
    [⟨0, .iconst1, .none⟩, ⟨1, .goto, .label 2⟩, ⟨4, .iload0, .none⟩, ⟨5, .ifeq, .label 6⟩,
      ⟨8, .pop, .none⟩, ⟨9, .iconst2, .none⟩, ⟨10, .istore1, .none⟩, ⟨11, .returnVoid, .none⟩]

/-- The choice leaves another operand than it finds, whichever branch is taken. -/
theorem stack_replaced :
    replaced.decompile = .ok [.branch flag [] [], .assign ⟨1, "local1", .int⟩ (.int 2),
        .leave none] ∧
      replaced.context.sections = .ok keptSections ∧
      Section.Reached replaced.context keptSections .empty (.choice flag [.block 2] [])
        ⟨[], [.int 1]⟩ ∧
      Section.replay replaced.context (.choice flag [.block 2] []) ⟨[], [.int 1]⟩ =
        .ok ⟨[.branch flag [] []], [.int 2]⟩ ∧
      [Expr.int 2] ≠ [.int 1] := by
  have hsections : replaced.context.sections = .ok keptSections := by with_unfolding_all rfl
  have h : replaced.decompile = .ok [.branch flag [] [], .assign ⟨1, "local1", .int⟩ (.int 2),
      .leave none] := by
    rw [decompile, Context.decompile, hsections]
    rfl
  have hfirst : Section.replay replaced.context (.block 0) .empty = .ok ⟨[], [.int 1]⟩ := rfl
  exact ⟨h, hsections, .later hfirst .here, rfl, by decide⟩

/-! ## Effects -/

/-- The statements of a method have the effects of its blocks without tests. These are all the
effects of its code exactly if no block that ends with a test has an effect. -/
theorem effectsAll_of_decompile (hcode : Produced m.code) (h : m.decompile = .ok statements) :
    let g := m.context.graph
    Statement.effectsAll statements =
        (((List.range g.size).filter (!g.isConditional ·)).flatMap g.code).filterMap (·.effect?) ∧
      (Statement.effectsAll statements = m.code.filterMap (·.effect?) ↔
        ∀ id, g.isConditional id = true → ∀ i ∈ g.code id, i.effect? = none) := by
  intro g
  obtain ⟨sections, t, hsections, hreplay, -, rfl⟩ := exists_replayAll_of_decompile h
  obtain ⟨-, -, harranges⟩ := Context.arranges_of_sections hsections
  have hblocks := Context.blocksAll_of_arranges
    (BlockGraph.isFeeder_build (fits_of_produced hcode)) harranges (Nat.zero_le _)
  rw [Nat.sub_zero, ← List.range_eq_range'] at hblocks
  -- the sections replay the blocks without tests in the order of the code
  have heffects : Statement.effectsAll t.emitted =
      (((List.range g.size).filter (!g.isConditional ·)).flatMap g.code).filterMap
        (·.effect?) := by
    rw [(Section.moves_of_replayAll hreplay).2, Section.code, hblocks]
    rfl
  refine ⟨heffects, ?_⟩
  have hall : m.code.filterMap (·.effect?) =
      (List.range g.size).flatMap fun id => (g.code id).filterMap (·.effect?) := by
    rw [← List.filterMap_flatMap]
    exact congrArg _ (BlockGraph.flatMap_code_build m.code).symm
  -- the lists differ by the effects of the blocks that are left out
  rw [heffects, hall, List.filterMap_flatMap, flatMap_filter_eq_iff]
  constructor
  · intro hnone id hcond i hi
    have hid := List.mem_range.2 (BlockGraph.lt_size_of_isConditional hcond)
    exact List.filterMap_eq_nil_iff.1 (hnone id hid (by simp [hcond])) i hi
  · intro hnone id _ hcond
    exact List.filterMap_eq_nil_iff.2 (hnone id (by simpa using hcond))

theorem effectsAll_of_decompile_kept :
    Produced kept.code ∧ kept.decompile = .ok keptStatements ∧
      let g := kept.context.graph
      Statement.effectsAll keptStatements =
          (((List.range g.size).filter (!g.isConditional ·)).flatMap g.code).filterMap
            (·.effect?) ∧
        (Statement.effectsAll keptStatements = kept.code.filterMap (·.effect?) ↔
          ∀ id, g.isConditional id = true → ∀ i ∈ g.code id, i.effect? = none) :=
  have hcode : Produced kept.code :=
    .inl ⟨["iconst_1", "goto a", "a:", "iload_0", "ifeq b", "iinc 0 1", "b:", "istore_1", "return"],
      eq_ok_of_toOption_eq_some (by decide +kernel)⟩
  ⟨hcode, decompile_kept, effectsAll_of_decompile hcode decompile_kept⟩

/-- An increment between the operand of a test and the test. -/
def counted : Method where
  name := "counted"
  descriptor := none
  locals := .empty
  constants := []
  code :=
    [⟨0, .iload0, .none⟩, ⟨1, .iinc, .increment 0 1⟩, ⟨4, .ifeq, .label 4⟩,
      ⟨7, .iinc, .increment 1 1⟩, ⟨10, .returnVoid, .none⟩]

/-- The increment in front of the test is lost. -/
theorem effectsAll_counted :
    Produced counted.code ∧
      counted.decompile = .ok [.branch flag [.increment ⟨1, "local1", .int⟩ 1] [], .leave none] ∧
      Statement.effectsAll [.branch flag [.increment ⟨1, "local1", .int⟩ 1] [], .leave none] =
        [.increment (some 1) (some 1), .leave false] ∧
      counted.code.filterMap (·.effect?) =
        [.increment (some 0) (some 1), .increment (some 1) (some 1), .leave false] := by
  have hcode : Produced counted.code :=
    .inl ⟨["iload_0", "iinc 0 1", "ifeq end", "iinc 1 1", "end:", "return"],
      eq_ok_of_toOption_eq_some (by decide +kernel)⟩
  have hsections : counted.context.sections =
      .ok [.choice flag [.block 1] [], .block 2] := by with_unfolding_all rfl
  have h : counted.decompile =
      .ok [.branch flag [.increment ⟨1, "local1", .int⟩ 1] [], .leave none] := by
    rw [decompile, Context.decompile, hsections]
    rfl
  exact ⟨hcode, h, by decide, by decide⟩

end Method

end Unjump
