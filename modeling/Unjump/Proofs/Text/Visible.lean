import Unjump.Proofs.Text.Lines
import Unjump.Text.Visible

/-!
# Quoted texts inside a line

A text that is quoted with every character visible does not break the line that it stands in,
whatever its characters are (`unbroken_quote`).
-/

namespace Unjump.Text

theorem Hex.unbroken_digits (width n : Nat) : Unbroken (digits width n).toList := by
  have hzeros : ∀ count, Unbroken (List.replicate count '0') := fun count =>
    ⟨fun h => absurd (List.eq_of_mem_replicate h) (by decide),
      fun h => absurd (List.eq_of_mem_replicate h) (by decide)⟩
  rw [digits, String.toList_ofList]
  exact unbroken_append.2 ⟨hzeros _, unbroken_toDigits (by decide) n⟩

namespace Visible

/-- A character is quoted without a line end, also if it is one. -/
theorem unbroken_escape (c : Char) : Unbroken (escape c).toList := by
  rw [escape]
  split_ifs with _ _ hfeed hreturn
  · decide
  · decide
  · decide
  · decide
  · decide
  · decide
  · rw [String.toList_append, String.toList_append]
    exact unbroken_append.2 ⟨unbroken_append.2 ⟨by decide, Hex.unbroken_digits 1 _⟩, by decide⟩
  · rw [Char.toString, String.toList_singleton]
    exact unbroken_cons.2 ⟨⟨hfeed, hreturn⟩, by decide⟩

/-- A quoted text does not break a line. -/
theorem unbroken_quote (text : String) : Unbroken (quote text).toList := by
  have hescapes : ∀ cs : List Char, Unbroken (cs.flatMap fun c => (escape c).toList) := by
    intro cs
    induction cs with
    | nil => decide
    | cons c cs ih =>
      rw [List.flatMap_cons]
      exact unbroken_append.2 ⟨unbroken_escape c, ih⟩
  rw [quote, String.toList_append, String.toList_append, String.toList_join, List.flatMap_map]
  exact unbroken_append.2 ⟨unbroken_append.2 ⟨by decide, hescapes _⟩, by decide⟩

end Visible

end Unjump.Text
