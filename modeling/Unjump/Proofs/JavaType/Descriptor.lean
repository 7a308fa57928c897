import Unjump.JavaType.Descriptor
import Unjump.Proofs.Except
import Unjump.Proofs.List

/-!
# Descriptors and types

A descriptor is accepted exactly if it is what is written for a well-formed type, and it then stands
for that type. Each reader takes off the front of a text what is written for its result, and leaves
the rest: `readType_eq_ok_iff` says so for one type and `readParameters_eq_ok_iff` for the
parameters of a method.
-/

namespace Unjump

/-- No class name is empty or holds a semicolon, and no array has elements of type `void`. -/
def JavaType.WellFormed : JavaType → Prop
  | .object name => name ≠ "" ∧ ';' ∉ name.toList
  | .array component => component ≠ .void ∧ component.WellFormed
  | .void | .boolean | .byte | .char | .short | .int | .long | .float | .double => True

namespace Descriptor

/-- A type that one letter stands for is written as that letter. -/
theorem descriptor_of_primitive? {c : Char} {type : JavaType} (h : primitive? c = some type) :
    type.WellFormed ∧ type.descriptor.toList = [c] := by
  unfold primitive? at h
  split at h <;> cases h <;> exact ⟨trivial, rfl⟩

/-- A class name ends at the first semicolon, and it is not empty. -/
theorem readClass_eq_ok_iff {cs rest : List Char} {type : JavaType} :
    readClass cs = .ok (type, rest) ↔
      ∃ name, type = .object name ∧ type.WellFormed ∧ cs = name.toList ++ ';' :: rest := by
  unfold readClass
  constructor
  · intro h
    split at h
    · cases h
    · rename_i c after hafter
      split at h
      · cases h
      · rename_i hnonempty
        cases h
        -- the name is what stands before the first semicolon
        refine ⟨_, rfl, ⟨fun hempty => hnonempty ?_, ?_⟩, ?_⟩
        · simpa using congrArg String.toList hempty
        · rw [String.toList_ofList]
          exact List.notMem_takeWhile_ne
        · rw [String.toList_ofList]
          exact List.eq_append_of_dropWhile_ne hafter
  · rintro ⟨name, rfl, ⟨hnonempty, hsemicolon⟩, rfl⟩
    rw [List.dropWhile_ne_append_cons hsemicolon, List.takeWhile_ne_append_cons hsemicolon]
    cases hname : name.toList with
    | nil => exact absurd (String.toList_eq_nil_iff.1 hname) hnonempty
    | cons c cs => simp only [← hname, String.ofList_toList]

/-- What is read as a type is what is written for it. -/
theorem eq_descriptor_of_readType {cs rest : List Char} {type : JavaType}
    (h : readType cs = .ok (type, rest)) :
    type.WellFormed ∧ cs = type.descriptor.toList ++ rest := by
  fun_induction readType cs generalizing type rest with
  | case1 => cases h
  | case2 c cs primitive hprimitive =>
    cases h
    obtain ⟨hwf, hletter⟩ := descriptor_of_primitive? hprimitive
    exact ⟨hwf, by rw [hletter, List.singleton_append]⟩
  | case3 cs =>
    obtain ⟨name, rfl, hwf, rfl⟩ := readClass_eq_ok_iff.1 h
    exact ⟨hwf, by simp [JavaType.descriptor]⟩
  | case4 => cases h
  | case5 => cases h
  | case6 cs component after hvoid hread _ _ ih =>
    cases h
    obtain ⟨hwf, rfl⟩ := ih hread
    exact ⟨⟨hvoid, hwf⟩, by simp [JavaType.descriptor]⟩
  | case7 => cases h

/-- What is written for a type is read as the type, whatever follows. -/
theorem readType_descriptor {type : JavaType} (h : type.WellFormed) (rest : List Char) :
    readType (type.descriptor.toList ++ rest) = .ok (type, rest) := by
  induction type with
  | void | boolean | byte | char | short | int | long | float | double => rfl
  | object name =>
    have hname : (JavaType.object name).descriptor.toList ++ rest =
        'L' :: (name.toList ++ ';' :: rest) := by simp [JavaType.descriptor]
    rw [hname, readType]
    exact readClass_eq_ok_iff.2 ⟨name, rfl, h, rfl⟩
  | array component ih =>
    have hcomponent : (JavaType.array component).descriptor.toList ++ rest =
        '[' :: (component.descriptor.toList ++ rest) := by simp [JavaType.descriptor]
    rw [hcomponent, readType]
    simp only [primitive?, ih h.2]
    cases component with
    | void => exact absurd rfl h.1
    | _ => rfl

/-- A type is read off the front of a text exactly if the text starts with what is written for a
well-formed type. -/
theorem readType_eq_ok_iff {cs rest : List Char} {type : JavaType} :
    readType cs = .ok (type, rest) ↔
      type.WellFormed ∧ cs = type.descriptor.toList ++ rest := by
  constructor
  · exact eq_descriptor_of_readType
  · rintro ⟨hwf, rfl⟩
    exact readType_descriptor hwf rest

/-! ## Methods -/

/-- The types are ones that the parameters of a method can have. -/
def AreParameters (types : List JavaType) : Prop :=
  ∀ type ∈ types, type.WellFormed ∧ type ≠ .void

/-- What is read as parameters is what is written for them, with the parenthesis behind. -/
theorem eq_descriptors_of_readParameters {cs rest : List Char} {types : List JavaType}
    (h : readParameters cs = .ok (types, rest)) :
    AreParameters types ∧ cs = types.flatMap (·.descriptor.toList) ++ ')' :: rest := by
  fun_induction readParameters cs generalizing types rest with
  | case1 => cases h
  | case2 => cases h; exact ⟨List.forall_mem_nil _, rfl⟩
  | case3 => cases h
  | case4 => cases h
  | case5 => cases h
  | case6 cs _ _ type more hvoid hread types _ hmore ih =>
    cases h
    obtain ⟨hwf, rfl⟩ := eq_descriptor_of_readType hread
    obtain ⟨htypes, rfl⟩ := ih hmore
    exact ⟨List.forall_mem_cons.2 ⟨⟨hwf, hvoid⟩, htypes⟩, by simp⟩

/-- A type in front of parameters is one more parameter. -/
theorem readParameters_cons {cs more rest : List Char} {type : JavaType} {types : List JavaType}
    (hread : readType cs = .ok (type, more)) (hvoid : type ≠ .void)
    (hmore : readParameters more = .ok (types, rest)) :
    readParameters cs = .ok (type :: types, rest) := by
  rw [readParameters]
  · split
    · rename_i herror
      rw [hread] at herror
      cases herror
    · rename_i hok
      rw [hread] at hok
      cases hok
      exact absurd rfl hvoid
    · rename_i hok
      rw [hread] at hok
      cases hok
      rw [hmore]
  -- no type starts with a parenthesis
  · rintro rfl
    cases hread
  · rintro after rfl
    cases hread

/-- What is written for parameters is read as the parameters. -/
theorem readParameters_descriptors {types : List JavaType} (h : AreParameters types)
    (rest : List Char) :
    readParameters (types.flatMap (·.descriptor.toList) ++ ')' :: rest) = .ok (types, rest) := by
  induction types with
  | nil => rw [List.flatMap_nil, List.nil_append, readParameters]
  | cons type types ih =>
    obtain ⟨⟨hwf, hvoid⟩, hrest⟩ := List.forall_mem_cons.1 h
    rw [List.flatMap_cons, List.append_assoc]
    exact readParameters_cons (readType_descriptor hwf _) hvoid (ih hrest)

/-- Parameters are read up to a parenthesis exactly if the text starts with what is written for
them and the parenthesis. -/
theorem readParameters_eq_ok_iff {cs rest : List Char} {types : List JavaType} :
    readParameters cs = .ok (types, rest) ↔
      AreParameters types ∧ cs = types.flatMap (·.descriptor.toList) ++ ')' :: rest := by
  constructor
  · exact eq_descriptors_of_readParameters
  · rintro ⟨htypes, rfl⟩
    exact readParameters_descriptors htypes rest

/-- A type that nothing follows is read exactly from what is written for it. -/
theorem readLast_eq_ok_iff {cs : List Char} {type : JavaType} :
    readLast cs = .ok type ↔ type.WellFormed ∧ cs = type.descriptor.toList := by
  unfold readLast
  constructor
  · intro h
    split at h
    · cases h
    · rename_i hread
      cases h
      simpa using readType_eq_ok_iff.1 hread
    · cases h
  · rintro ⟨hwf, rfl⟩
    have hread := readType_descriptor hwf []
    rw [List.append_nil] at hread
    rw [hread]

/-- A method is read exactly from what is written for its parameters and its result. -/
theorem readMethod_eq_ok_iff {cs : List Char} {parameters : List JavaType} {result : JavaType} :
    readMethod cs = .ok (parameters, result) ↔
      AreParameters parameters ∧ result.WellFormed ∧
        cs =
          '(' :: (parameters.flatMap (·.descriptor.toList) ++ ')' :: result.descriptor.toList) := by
  constructor
  · intro h
    unfold readMethod at h
    split at h
    · split at h
      · cases h
      · rename_i hread
        obtain ⟨found, hlast, heq⟩ := map_eq_ok.1 h
        cases heq
        obtain ⟨hparameters, rfl⟩ := readParameters_eq_ok_iff.1 hread
        obtain ⟨hresult, rfl⟩ := readLast_eq_ok_iff.1 hlast
        exact ⟨hparameters, hresult, rfl⟩
    · cases h
  · rintro ⟨hparameters, hresult, rfl⟩
    rw [readMethod, readParameters_descriptors hparameters]
    simp only [readLast_eq_ok_iff.2 ⟨hresult, rfl⟩, Except.map]

/-! ## Whole descriptors -/

/-- A descriptor is accepted exactly if its characters are read, where no characters are no type
and no method. -/
theorem accepts_iff {α : Type} {read : List Char → Except Fault α} (hempty : ∀ a, read [] ≠ .ok a)
    {descriptor : String} {a : α} :
    (if descriptor.isEmpty then .error .empty
      else (read descriptor.toList).mapError (·.inDescriptor descriptor)) = Except.ok a ↔
      read descriptor.toList = .ok a := by
  split
  · rename_i h
    obtain rfl := String.isEmpty_iff.1 h
    exact ⟨nofun, fun hread => absurd hread (hempty a)⟩
  · exact mapError_eq_ok

/-- A method descriptor is accepted exactly if its characters are what is written for parameters and
a result. -/
theorem parseMethod_eq_ok_iff {descriptor : String} {parameters : List JavaType}
    {result : JavaType} :
    parseMethod descriptor = .ok (parameters, result) ↔
      AreParameters parameters ∧ result.WellFormed ∧
        descriptor.toList =
          '(' :: (parameters.flatMap (·.descriptor.toList) ++ ')' :: result.descriptor.toList) := by
  rw [parseMethod, accepts_iff nofun, readMethod_eq_ok_iff]

/-- A field descriptor is accepted exactly if it is what is written for a well-formed type, and a
method descriptor exactly if it is what is written for its parameters and its result. -/
theorem parse_iff_descriptor :
    (∀ (descriptor : String) (type : JavaType),
      parse descriptor = .ok type ↔ type.WellFormed ∧ descriptor = type.descriptor) ∧
    ∀ (descriptor : String) (parameters : List JavaType) (result : JavaType),
      parseMethod descriptor = .ok (parameters, result) ↔
        (result.WellFormed ∧ ∀ type ∈ parameters, type.WellFormed ∧ type ≠ .void) ∧
          descriptor =
            "(" ++ String.join (parameters.map JavaType.descriptor) ++ ")" ++
              result.descriptor := by
  constructor
  · intro descriptor type
    rw [parse, accepts_iff nofun, readLast_eq_ok_iff, String.toList_inj]
  · intro descriptor parameters result
    rw [parseMethod, accepts_iff nofun, readMethod_eq_ok_iff, ← String.toList_inj]
    simp only [String.toList_append, String.toList_join, List.flatMap_map]
    constructor
    · rintro ⟨hparameters, hresult, hchars⟩
      exact ⟨⟨hresult, hparameters⟩, by simp [hchars]⟩
    · rintro ⟨⟨hresult, hparameters⟩, hchars⟩
      exact ⟨hparameters, hresult, by simp [hchars]⟩

end Descriptor

end Unjump
