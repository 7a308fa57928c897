import Unjump.Condition

/-!
# Simplifying conditions

`Condition.simplify` repeats a pass over the whole condition until nothing changes. A pass moves
negations down to the tests and then works on every joined condition from the inside out:

* operands joined in the same way become operands of the outer condition;
* an operand that stands twice stays once;
* an operand joined in the other way is dropped if a sibling implies it (`x || x && y`), and loses
  the terms that contradict a sibling (`x || !x && y`), unless it would lose all of them;
* a single operand takes the place of the whole condition.

A pass that changes anything makes the condition smaller.
-/

namespace Unjump.Condition

/-- The operands that a condition contributes to one that is joined in the given way. -/
def splice (k : Connective) (c : Condition) : List Condition :=
  (c.operands? k).getD [c]

/-- The operands of which other operands can be told to be superfluous. -/
def siblings (k : Connective) (operands : List Condition) : List Condition :=
  operands.filter fun c => (c.operands? k.dual).isNone

/-- What is left of an operand beside its siblings. -/
def prune (k : Connective) (siblings : List Condition) (operand : Condition) : List Condition :=
  match operand.operands? k.dual with
  | none => [operand]
  | some terms =>
    if terms.any (· ∈ siblings) then []
    else
      let kept := terms.filter (·.inverse ∉ siblings)
      if kept.length = terms.length ∨ kept = [] then [operand]
      else if kept.length = 1 then kept
      else [.join k.dual kept]

/-- The operands in one condition; a single operand stands for itself. -/
def collapse (k : Connective) : List Condition → Condition
  | [c] => c
  | operands => .join k operands

/-- Joins conditions that have been simplified themselves. -/
def joinSimplified (k : Connective) (operands : List Condition) : Condition :=
  let unique := (operands.flatMap (splice k)).eraseDups
  collapse k (unique.flatMap (prune k (siblings k unique)))

mutual

/-- One pass over a condition, or over its negation. -/
def pass (negated : Bool) : Condition → Condition
  | .test t => .test (if negated then t.inverse else t)
  | .join k operands =>
    joinSimplified (if negated then k.dual else k) (passAll negated operands)
  | .not inner => pass (!negated) inner

/-- One pass over each condition of a list, or over its negation. -/
def passAll (negated : Bool) : List Condition → List Condition
  | [] => []
  | c :: cs => pass negated c :: passAll negated cs

end

/-- The condition that no further pass changes. -/
def simplify (c : Condition) : Condition :=
  let next := c.pass false
  if next.size < c.size then simplify next else next
  termination_by c.size

end Unjump.Condition
