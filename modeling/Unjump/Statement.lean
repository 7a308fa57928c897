import Unjump.Condition

/-!
# Statements

The statements of a decompiled method.
-/

namespace Unjump

/-- A statement of a method's body. -/
inductive Statement where
  /-- Gives a local variable a value. -/
  | assign (target : Local) (value : Expr)
  /-- Gives an element of an array a value. -/
  | store (array index value : Expr)
  /-- Adds a number to a local variable. -/
  | increment (target : Local) (amount : Int32)
  /-- Leaves the method, with or without a value. -/
  | leave (value : Option Expr)
  /-- Runs one of two bodies. The second one may be empty. -/
  | branch (condition : Condition) (body alternative : List Statement)
  /-- A remark that does nothing. -/
  | comment (text : String)

namespace Statement

mutual

/-- Whether two statements are the same. -/
def same : Statement → Statement → Bool
  | .assign v e, .assign w f => v = w && e = f
  | .store a i e, .store b j f => a = b && i = j && e = f
  | .increment v m, .increment w n => v = w && m = n
  | .leave e, .leave f => e = f
  | .branch c body alternative, .branch d body' alternative' =>
    c = d && sameAll body body' && sameAll alternative alternative'
  | .comment t, .comment u => t = u
  | _, _ => false

/-- Whether two lists of statements are the same. -/
def sameAll : List Statement → List Statement → Bool
  | [], [] => true
  | s :: ss, t :: ts => same s t && sameAll ss ts
  | _, _ => false

end

mutual

theorem same_iff (s t : Statement) : same s t = true ↔ s = t := by
  match s with
  | .branch c body alternative =>
    cases t <;> simp [same]
    rw [sameAll_iff body, sameAll_iff alternative, and_assoc]
  | .assign _ _ | .store _ _ _ | .increment _ _ | .leave _ | .comment _ =>
    cases t <;> simp [same, and_assoc]

theorem sameAll_iff (ss ts : List Statement) : sameAll ss ts = true ↔ ss = ts := by
  match ss with
  | [] => cases ts <;> simp [sameAll]
  | s :: ss =>
    cases ts with
    | nil => simp [sameAll]
    | cons t ts => simp [sameAll, same_iff s, sameAll_iff ss]

end

instance : DecidableEq Statement := fun s t => decidable_of_iff _ (same_iff s t)

end Statement

end Unjump
