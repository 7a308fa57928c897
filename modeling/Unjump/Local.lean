import Unjump.JavaType

/-!
# Local variables

A local variable is a slot with a name and a type. The table of a method holds at most one variable
for a slot, in the order of the slots.
-/

namespace Unjump

/-- A named slot. -/
structure Local where
  slot : UInt16
  name : String
  type : JavaType
  deriving DecidableEq

namespace LocalTable

/-- Puts a variable into a list that ascends by slot, in place of one with the same slot. -/
def insert (v : Local) : List Local → List Local
  | [] => [v]
  | w :: rest =>
    if v.slot < w.slot then v :: w :: rest
    else if v.slot = w.slot then v :: rest
    else w :: insert v rest

theorem mem_insert {v w : Local} {vs : List Local} (h : w ∈ insert v vs) : w = v ∨ w ∈ vs := by
  induction vs with
  | nil => simpa [insert] using h
  | cons u rest ih =>
    unfold insert at h
    split at h
    · simpa using h
    · split at h
      · rcases List.mem_cons.1 h with h | h
        · exact .inl h
        · exact .inr (List.mem_cons_of_mem _ h)
      · rcases List.mem_cons.1 h with h | h
        · exact .inr (h ▸ List.mem_cons_self)
        · exact (ih h).imp id (List.mem_cons_of_mem _)

theorem pairwise_insert (v : Local) {vs : List Local}
    (h : vs.Pairwise (·.slot < ·.slot)) : (insert v vs).Pairwise (·.slot < ·.slot) := by
  induction vs with
  | nil => simp [insert]
  | cons u rest ih =>
    rw [List.pairwise_cons] at h
    unfold insert
    split
    · rename_i hlt
      refine List.pairwise_cons.2 ⟨fun w hw => ?_, List.pairwise_cons.2 h⟩
      rcases List.mem_cons.1 hw with rfl | hw
      · exact hlt
      · exact UInt16.lt_trans hlt (h.1 w hw)
    · split
      · rename_i heq
        exact List.pairwise_cons.2 ⟨fun w hw => heq ▸ h.1 w hw, h.2⟩
      · rename_i hlt hne
        refine List.pairwise_cons.2 ⟨fun w hw => ?_, ih h.2⟩
        rcases mem_insert hw with rfl | hw
        · exact UInt16.lt_of_le_of_ne (UInt16.not_lt.1 hlt) fun h => hne h.symm
        · exact h.1 w hw

end LocalTable

/-- The local variables of a method. -/
structure LocalTable where
  /-- The variables by ascending slot. -/
  entries : List Local
  entries_ascending : entries.Pairwise (·.slot < ·.slot) := by simp

namespace LocalTable

/-- The table without variables. -/
def empty : LocalTable := ⟨[], .nil⟩

/-- Adds a variable, in place of one with the same slot. -/
def declare (table : LocalTable) (v : Local) : LocalTable :=
  ⟨insert v table.entries, pairwise_insert v table.entries_ascending⟩

/-- The variables of a list, later ones in place of earlier ones with the same slot. -/
def ofList (vs : List Local) : LocalTable :=
  vs.foldl declare empty

/-- The variable of a slot. -/
def get? (table : LocalTable) (slot : UInt16) : Option Local :=
  table.entries.find? (·.slot = slot)

/-- The variable of a slot; without one, a variable named after the slot with the type at hand. -/
def resolve (table : LocalTable) (slot : UInt16) (type : JavaType) : Local :=
  (table.get? slot).getD ⟨slot, s!"local{slot.toNat}", type⟩

end LocalTable

end Unjump
