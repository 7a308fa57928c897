import Mathlib.Algebra.GroupWithZero.Nat
import Unjump.Proofs.Instr.Shape

/-!
# The layout of code

In code that a listing or bytes give, every instruction starts where the one before it ends
(`offsets_of_produced`). So offsets ascend, and no two instructions have the same one
(`pairwise_offsetsFrom`).
-/

namespace Unjump

/-- The offsets of instructions with the given opcodes that stand one behind the other from an
offset on. -/
def offsetsFrom (start : Nat) : List Opcode → List Nat
  | [] => []
  | op :: ops => start :: offsetsFrom (start + op.format.size) ops

theorem Format.size_pos (format : Format) : 0 < format.size := by
  cases format <;> decide

theorem le_of_mem_offsetsFrom {start offset : Nat} {ops : List Opcode}
    (h : offset ∈ offsetsFrom start ops) : start ≤ offset := by
  induction ops generalizing start with
  | nil => simp [offsetsFrom] at h
  | cons op ops ih =>
    obtain rfl | h := List.mem_cons.1 h
    · exact Nat.le_refl _
    · exact Nat.le_trans (Nat.le_add_right _ _) (ih h)

/-- Offsets ascend, because no instruction is empty. -/
theorem pairwise_offsetsFrom (start : Nat) (ops : List Opcode) :
    (offsetsFrom start ops).Pairwise (· < ·) := by
  induction ops generalizing start with
  | nil => exact .nil
  | cons op ops ih =>
    refine .cons (fun offset h => ?_) (ih _)
    exact Nat.lt_of_lt_of_le (Nat.lt_add_of_pos_right op.format.size_pos) (le_of_mem_offsetsFrom h)

/-- Every instruction starts before the end of the code. -/
theorem lt_of_mem_offsetsFrom {start offset : Nat} {ops : List Opcode}
    (h : offset ∈ offsetsFrom start ops) : offset < start + (ops.map (·.format.size)).sum := by
  induction ops generalizing start with
  | nil => simp [offsetsFrom] at h
  | cons op ops ih =>
    have hpos := op.format.size_pos
    rw [List.map_cons, List.sum_cons]
    obtain rfl | h := List.mem_cons.1 h
    · omega
    · have := ih h
      omega

/-! ## Listings -/

namespace Listing

/-- Lines give instructions that stand one behind the other. -/
theorem offsets_of_readLines {number position offset : Nat} {labels labels' : Labels}
    {lines : List (List Char)} {drafts : List Draft}
    (h : readLines number position offset labels lines = .ok (labels', drafts)) :
    drafts.map (·.offset) = offsetsFrom offset (drafts.map (·.opcode)) := by
  induction lines generalizing number position offset labels drafts with
  | nil => cases h; rfl
  | cons source rest ih =>
    unfold readLines at h
    split at h
    · cases h
    · exact ih h
    · split at h
      · cases h
      · exact ih h
    · -- the instruction of a line moves the offset on by its size
      rename_i opcode argument hline
      split at h
      · cases h
      · rename_i labels'' later hrest
        cases h
        simp only [List.map_cons, offsetsFrom, ih hrest]

/-- Looking up a label changes neither the offset nor the opcode. -/
theorem Draft.place_of_resolve {labels : Labels} {draft : Draft} {i : Instr}
    (h : draft.resolve labels = .ok i) : i.offset = draft.offset ∧ i.opcode = draft.opcode := by
  unfold resolve at h
  split at h
  · cases h; exact ⟨rfl, rfl⟩
  · split at h <;> cases h
    exact ⟨rfl, rfl⟩

theorem offsets_of_assemble {lines : List String} {code : List Instr}
    (h : assemble lines = .ok code) :
    code.map (·.offset) = offsetsFrom 0 (code.map (·.opcode)) := by
  unfold assemble at h
  split at h
  · cases h
  · rename_i labels drafts hread
    split at h
    · cases h
    · rw [map_eq_of_mapM_eq_ok (fun _ _ hi => (Draft.place_of_resolve hi).1) h,
        map_eq_of_mapM_eq_ok (fun _ _ hi => (Draft.place_of_resolve hi).2) h,
        offsets_of_readLines hread]

end Listing

/-! ## Bytecode -/

namespace Bytecode

/-- Bytes give instructions that stand one behind the other. -/
theorem offsets_of_scan {offset : Nat} {bytes : List UInt8} {drafts : List Draft}
    (h : scan offset bytes = .ok drafts) :
    drafts.map (·.offset) = offsetsFrom offset (drafts.map (·.opcode)) := by
  fun_induction scan offset bytes generalizing drafts with
  | case1 => cases h; rfl
  | case2 => cases h
  | case3 => cases h
  | case4 => cases h
  | case5 offset b rest opcode _ argument _ later hscan ih =>
    cases h
    simp only [List.map_cons, offsetsFrom, ih hscan]

/-- Looking up a target changes neither the offset nor the opcode. -/
theorem Draft.place_of_resolve {all : List Draft} {draft : Draft} {i : Instr}
    (h : draft.resolve all = .ok i) : i.offset = draft.offset ∧ i.opcode = draft.opcode := by
  unfold resolve at h
  split at h
  · cases h; exact ⟨rfl, rfl⟩
  · simp only at h
    split at h <;> cases h
    exact ⟨rfl, rfl⟩

theorem offsets_of_decode {bytes : List UInt8} {code : List Instr} (h : decode bytes = .ok code) :
    code.map (·.offset) = offsetsFrom 0 (code.map (·.opcode)) := by
  unfold decode at h
  split at h
  · cases h
  · rename_i drafts hscan
    rw [map_eq_of_mapM_eq_ok (fun _ _ hi => (Draft.place_of_resolve hi).1) h,
      map_eq_of_mapM_eq_ok (fun _ _ hi => (Draft.place_of_resolve hi).2) h,
      offsets_of_scan hscan]

end Bytecode

/-- In code that a listing or bytes give, every instruction starts where the one before it ends. -/
theorem offsets_of_produced {code : List Instr} (h : Produced code) :
    code.map (·.offset) = offsetsFrom 0 (code.map (·.opcode)) := by
  obtain ⟨lines, h⟩ | ⟨bytes, h⟩ := h
  · exact Listing.offsets_of_assemble h
  · exact Bytecode.offsets_of_decode h

end Unjump
