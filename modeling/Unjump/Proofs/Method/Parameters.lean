import Mathlib.Algebra.GroupWithZero.Nat
import Unjump.Method.Printer
import Unjump.Proofs.JavaType.Descriptor

/-!
# The slots of parameters

A parameter is held by the slots behind those of the parameters before it, two for a `long` or a
`double` and one otherwise (`Method.firstSlot`). It is written with the name of the slot that a
counter of 16 bits has come to (`getElem?_parametersFrom`). The counter holds the number of the slot
up to a multiple of 2 ^ 16 (`toNat_slotCounter`), so a parameter is written with the name of its own
slot exactly as long as there is a slot of this number (`source_parameters`).
-/

namespace Unjump

/-- How many slots hold a parameter of the type. -/
def JavaType.slotCount (type : JavaType) : Nat :=
  if type = .long ∨ type = .double then 2 else 1

theorem JavaType.toNat_slots {type : JavaType} (h : type ≠ .void) :
    type.slots.toNat = type.slotCount := by
  cases type with
  | void => exact absurd rfl h
  | _ => rfl

namespace Method

/-- The number of the first slot of a parameter: as many slots are taken before it. -/
def firstSlot (parameters : List JavaType) (k : Nat) : Nat :=
  ((parameters.take k).map JavaType.slotCount).sum

/-- A counter of 16 bits, moved on past parameters. -/
def countSlots (slot : UInt16) (parameters : List JavaType) : UInt16 :=
  parameters.foldl (fun slot type => slot + type.slots) slot

/-- The counter before a parameter. -/
def slotCounter (parameters : List JavaType) (k : Nat) : UInt16 :=
  countSlots 0 (parameters.take k)

/-- Parameters move the counter by the slots that they take, as far as 16 bits go. -/
theorem toNat_countSlots {parameters : List JavaType} (h : ∀ type ∈ parameters, type ≠ .void)
    (slot : UInt16) :
    (countSlots slot parameters).toNat =
      (slot.toNat + (parameters.map JavaType.slotCount).sum) % 2 ^ 16 := by
  induction parameters generalizing slot with
  | nil => exact (Nat.mod_eq_of_lt slot.toNat_lt).symm
  | cons type parameters ih =>
    obtain ⟨hvoid, hrest⟩ := List.forall_mem_cons.1 h
    -- what the counter loses at one parameter it loses in the sum of all of them
    rw [countSlots, List.foldl_cons, ← countSlots, ih hrest, UInt16.toNat_add,
      JavaType.toNat_slots hvoid, Nat.mod_add_mod, List.map_cons, List.sum_cons, Nat.add_assoc]

theorem toNat_slotCounter {parameters : List JavaType} (h : ∀ type ∈ parameters, type ≠ .void)
    (k : Nat) : (slotCounter parameters k).toNat = firstSlot parameters k % 2 ^ 16 := by
  rw [slotCounter, toNat_countSlots fun type htype => h type (List.mem_of_mem_take htype),
    firstSlot, UInt16.toNat_zero, Nat.zero_add]

/-- The counter is exact as long as the slots have numbers of 16 bits. -/
theorem toNat_slotCounter_eq_iff {parameters : List JavaType}
    (h : ∀ type ∈ parameters, type ≠ .void) (k : Nat) :
    (slotCounter parameters k).toNat = firstSlot parameters k ↔
      firstSlot parameters k < 2 ^ 16 := by
  rw [toNat_slotCounter h]
  exact Nat.mod_eq_iff_lt (by decide)

theorem length_parametersFrom (locals : LocalTable) (slot : UInt16) (parameters : List JavaType) :
    (parametersFrom locals slot parameters).length = parameters.length := by
  induction parameters generalizing slot with
  | nil => rfl
  | cons type parameters ih => rw [parametersFrom, List.length_cons, ih, List.length_cons]

/-- Every parameter is written with the name of the slot that the counter has come to. -/
theorem getElem?_parametersFrom (locals : LocalTable) {slot : UInt16} {parameters : List JavaType}
    {k : Nat} {type : JavaType} (h : parameters[k]? = some type) :
    (parametersFrom locals slot parameters)[k]? =
      some (type.text ++ " " ++
        (locals.resolve (countSlots slot (parameters.take k)) type).name) := by
  induction parameters generalizing slot k with
  | nil => cases h
  | cons first parameters ih =>
    rw [parametersFrom]
    cases k with
    | zero =>
      obtain rfl := Option.some.inj h
      rfl
    | succ k =>
      rw [List.getElem?_cons_succ] at h ⊢
      exact ih h

/-- The parameters of an accepted descriptor are written one by one, each with its type and with the
name of the slot that the counter has come to. This is the slot of the parameter as long as its
number has 16 bits, and no longer. -/
theorem source_parameters {descriptor : String} {parameters : List JavaType} {result : JavaType}
    (h : Descriptor.parseMethod descriptor = .ok (parameters, result)) (locals : LocalTable) :
    (∀ name body, source name descriptor locals body =
      .ok ("static " ++ result.text ++ " " ++ name ++ "(" ++
        ", ".intercalate (parametersFrom locals 0 parameters) ++ ") \x7b\n" ++
          Statement.sourceAllAt 1 body ++ "\x7d\n")) ∧
      (parametersFrom locals 0 parameters).length = parameters.length ∧
      (∀ k type, parameters[k]? = some type →
        (parametersFrom locals 0 parameters)[k]? =
          some (type.text ++ " " ++ (locals.resolve (slotCounter parameters k) type).name)) ∧
      ∀ k, (slotCounter parameters k).toNat = firstSlot parameters k ↔
        firstSlot parameters k < 2 ^ 16 := by
  refine ⟨fun name body => ?_, length_parametersFrom locals 0 parameters,
    fun k type htype => getElem?_parametersFrom locals htype, toNat_slotCounter_eq_iff ?_⟩
  · rw [source, h]
    simp [String.append_assoc, toString]
  · exact fun type htype => ((Descriptor.parseMethod_eq_ok_iff.1 h).1 type htype).2

/-- A `long` takes two slots, an array of them one. -/
theorem source_parameters_mixed :
    Descriptor.parseMethod "(JI[JD)V" = .ok ([.long, .int, .array .long, .double], .void) ∧
      source "f" "(JI[JD)V" (.ofList [⟨2, "n", .int⟩]) [] =
        .ok "static void f(long local0, int n, long[] local3, double local4) \x7b\n\x7d\n" ∧
      (slotCounter [.long, .int, .array .long, .double] 3).toNat =
        firstSlot [.long, .int, .array .long, .double] 3 := by
  have hparse : Descriptor.parseMethod "(JI[JD)V" =
      .ok ([.long, .int, .array .long, .double], .void) :=
    Descriptor.parseMethod_eq_ok_iff.2
      ⟨by simp [Descriptor.AreParameters, JavaType.WellFormed], trivial, rfl⟩
  obtain ⟨hsource, -, -, hexact⟩ := source_parameters hparse (.ofList [⟨2, "n", .int⟩])
  exact ⟨hparse, (hsource "f" []).trans rfl, (hexact 3).2 (by decide)⟩

/-- So many `long` parameters that the last of them has no slot: it is written with the name of the
first. -/
theorem parametersFrom_tooMany :
    Descriptor.parseMethod (String.ofList ('(' :: (List.replicate 32769 'J' ++ [')', 'V']))) =
        .ok (List.replicate 32769 .long, .void) ∧
      firstSlot (List.replicate 32769 .long) 32768 = 65536 ∧
      slotCounter (List.replicate 32769 .long) 32768 = 0 ∧
      (parametersFrom .empty 0 (List.replicate 32769 .long))[0]? = some "long local0" ∧
      (parametersFrom .empty 0 (List.replicate 32769 .long))[32768]? = some "long local0" := by
  have hparameters : Descriptor.AreParameters (List.replicate 32769 .long) := by
    intro type htype
    rw [List.eq_of_mem_replicate htype]
    exact ⟨trivial, nofun⟩
  have hslot : firstSlot (List.replicate 32769 .long) 32768 = 65536 := by
    rw [firstSlot, List.take_replicate, List.map_replicate, List.sum_replicate_nat]
    rfl
  have hcounter : slotCounter (List.replicate 32769 .long) 32768 = 0 := by
    rw [← UInt16.toNat_inj, toNat_slotCounter fun type htype => (hparameters type htype).2, hslot]
    rfl
  have hname : ∀ k < 32769, slotCounter (List.replicate 32769 .long) k = 0 →
      (parametersFrom .empty 0 (List.replicate 32769 .long))[k]? = some "long local0" := by
    intro k hk hzero
    rw [getElem?_parametersFrom .empty (List.getElem?_replicate_of_lt hk), ← slotCounter, hzero]
    rfl
  refine ⟨Descriptor.parseMethod_eq_ok_iff.2 ⟨hparameters, trivial, ?_⟩, hslot, hcounter,
    hname 0 (by decide) rfl, hname 32768 (by decide) hcounter⟩
  have hletter : JavaType.long.descriptor.toList = ['J'] := rfl
  rw [String.toList_ofList, List.flatMap_replicate, hletter, List.flatten_replicate_singleton]
  rfl

end Method

end Unjump
