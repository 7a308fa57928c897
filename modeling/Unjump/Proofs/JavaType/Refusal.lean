import Unjump.Proofs.JavaType.Descriptor
import Unjump.Proofs.Text.Lines

/-!
# Why descriptors are refused

A fault is about what is left of a descriptor at some point, so the character that an error names is
one of the descriptor, or stands for its end. Every error but that of an empty descriptor also holds
the descriptor as it is. So an error breaks the line that it stands in exactly if the descriptor
does (`mem_message_iff`).
-/

namespace Unjump.Descriptor

/-- What the fault is about stands at the end of the text. -/
def Fault.Within (cs : List Char) : Fault → Prop
  | .unexpected rest => rest <:+ cs
  | .unterminatedClass | .trailing => True

/-- What is about the end of a text is about the end of any text that ends with it. -/
theorem Fault.Within.of_suffix {fault : Fault} {cs ds : List Char} (h : fault.Within cs)
    (hsuffix : cs <:+ ds) : fault.Within ds := by
  cases fault with
  | unexpected rest => exact List.IsSuffix.trans h hsuffix
  | unterminatedClass | trailing => trivial

variable {cs rest : List Char} {fault : Fault}

theorem suffix_of_readType {type : JavaType} (h : readType cs = .ok (type, rest)) : rest <:+ cs :=
  ⟨_, (eq_descriptor_of_readType h).2.symm⟩

theorem suffix_of_readParameters {types : List JavaType}
    (h : readParameters cs = .ok (types, rest)) : rest <:+ cs := by
  rw [(eq_descriptors_of_readParameters h).2]
  exact (List.suffix_cons _ _).trans (List.suffix_append _ _)

theorem within_of_readClass (h : readClass cs = .error fault) : fault.Within cs := by
  unfold readClass at h
  split at h
  · cases h
    trivial
  · split at h
    · cases h
      exact List.suffix_rfl
    · cases h

theorem within_of_readType (h : readType cs = .error fault) : fault.Within cs := by
  fun_induction readType cs with
  | case1 => cases h; trivial
  | case2 => cases h
  | case3 cs => exact (within_of_readClass h).of_suffix (List.suffix_cons _ _)
  -- the elements of an array are read behind its bracket
  | case4 cs fault hread _ _ ih => cases h; exact (ih hread).of_suffix (List.suffix_cons _ _)
  | case5 => cases h; exact List.suffix_cons _ _
  | case6 => cases h
  | case7 => cases h; exact List.suffix_rfl

theorem within_of_readParameters (h : readParameters cs = .error fault) : fault.Within cs := by
  fun_induction readParameters cs with
  | case1 => cases h; trivial
  | case2 => cases h
  | case3 cs _ _ _ hread => cases h; exact within_of_readType hread
  | case4 => cases h; exact List.suffix_rfl
  | case5 cs _ _ type more _ hread _ hmore ih =>
    cases h
    exact (ih hmore).of_suffix (suffix_of_readType hread)
  | case6 => cases h

theorem within_of_readLast (h : readLast cs = .error fault) : fault.Within cs := by
  unfold readLast at h
  split at h
  · rename_i hread
    cases h
    exact within_of_readType hread
  · cases h
  · cases h
    trivial

theorem within_of_readMethod (h : readMethod cs = .error fault) : fault.Within cs := by
  unfold readMethod at h
  split at h
  · split at h
    · rename_i hread
      cases h
      exact (within_of_readParameters hread).of_suffix (List.suffix_cons _ _)
    · rename_i hread
      exact (within_of_readLast (map_eq_error.1 h)).of_suffix
        ((suffix_of_readParameters hread).trans (List.suffix_cons _ _))
  · cases h
    exact List.suffix_rfl

/-- A method descriptor is refused if it is empty, or with a fault in it. -/
theorem fault_of_parseMethod {descriptor : String} {error : Error}
    (h : parseMethod descriptor = .error error) :
    descriptor = "" ∧ error = .empty ∨
      ∃ fault : Fault, fault.Within descriptor.toList ∧ error = fault.inDescriptor descriptor := by
  unfold parseMethod at h
  split at h
  · rename_i hempty
    cases h
    exact .inl ⟨String.isEmpty_iff.1 hempty, rfl⟩
  · obtain ⟨fault, hread, rfl⟩ := mapError_eq_error.1 h
    exact .inr ⟨fault, within_of_readMethod hread, rfl⟩

/-- A line end that an error names is one of the descriptor. -/
theorem mem_of_mem_found {rest cs : List Char} (h : rest <:+ cs) {c : Char}
    (hc : c = '\n' ∨ c = '\r') (hmem : c ∈ (toString (rest.headD '\x00')).toList) : c ∈ cs := by
  have hfound : (toString (rest.headD '\x00')).toList = [rest.headD '\x00'] :=
    String.toList_singleton _
  rw [hfound, List.mem_singleton] at hmem
  cases rest with
  | nil =>
    rw [hmem] at hc
    exact absurd hc (by decide)
  | cons d rest =>
    rw [hmem]
    exact h.mem List.mem_cons_self

/-- The message of an error breaks a line exactly if the descriptor does. -/
theorem mem_message_iff {descriptor : String} {error : Error}
    (h : parseMethod descriptor = .error error) {c : Char} (hc : c = '\n' ∨ c = '\r') :
    c ∈ error.message.toList ↔ c ∈ descriptor.toList := by
  have hliteral : ∀ {text : List Char}, Text.Unbroken text → c ∉ text := fun h => h.notMem hc
  obtain ⟨rfl, rfl⟩ | ⟨fault, hwithin, rfl⟩ := fault_of_parseMethod h
  · exact iff_of_false (hliteral (by decide)) (hliteral (by decide))
  cases fault with
  | unexpected rest =>
    show c ∈ ("unexpected `" ++ toString (rest.headD '\x00') ++ "` at position " ++
      toString (byteSize descriptor.toList - byteSize rest) ++ " in descriptor `" ++ descriptor ++
        "`").toList ↔ _
    simp only [String.toList_append, List.mem_append]
    rw [or_iff_left (hliteral (by decide))]
    refine or_iff_right_of_imp ?_
    -- beside the descriptor, only the character in question could be a line end
    rintro ((((hmem | hmem) | hmem) | hmem) | hmem)
    · exact absurd hmem (hliteral (by decide))
    · exact mem_of_mem_found hwithin hc hmem
    · exact absurd hmem (hliteral (by decide))
    · rw [Nat.toString_eq_repr, Nat.toList_repr] at hmem
      exact absurd hmem (hliteral (Text.unbroken_toDigits (by decide) _))
    · exact absurd hmem (hliteral (by decide))
  | unterminatedClass =>
    show c ∈ ("unterminated class name in descriptor `" ++ descriptor ++ "`").toList ↔ _
    simp only [String.toList_append, List.mem_append]
    rw [or_iff_left (hliteral (by decide)), or_iff_right (hliteral (by decide))]
  | trailing =>
    show c ∈ ("trailing characters in descriptor `" ++ descriptor ++ "`").toList ↔ _
    simp only [String.toList_append, List.mem_append]
    rw [or_iff_left (hliteral (by decide)), or_iff_right (hliteral (by decide))]

end Unjump.Descriptor
