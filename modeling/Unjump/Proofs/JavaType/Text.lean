import Unjump.JavaType
import Unjump.Proofs.JavaType.Descriptor
import Unjump.Proofs.Text.Blank

/-!
# Types as source text

A type is written in Java as the name of its elements with a pair of brackets for every dimension.
A class is named by its simple name if it lies in the package `java.lang`, which every source file
imports, and by its package and its simple name otherwise.

The text of a type is this name with one exception: packages inside `java.lang` are taken for the
package itself, so the front of their name is left out too (`className_of_lang`). A type is written
right unless its elements are of such a class (`text_eq_iff`).
-/

namespace Unjump

open Text

namespace JavaType

/-! ## Names of classes -/

/-- The parts of an internal name between its slashes. -/
def nameParts (name : String) : List (List Char) :=
  splitAt (· == '/') name.toList

theorem nameParts_ne_nil (name : String) : nameParts name ≠ [] :=
  splitAt_ne_nil _ _

/-- The package of a class, from the outermost one inwards. -/
def package (name : String) : List (List Char) :=
  (nameParts name).dropLast

/-- The package that every source file imports. -/
def langPackage : List (List Char) :=
  ["java".toList, "lang".toList]

/-- The full name of a class, with a dot for every slash. -/
def qualifiedName (name : String) : String :=
  String.ofList (name.toList.map fun c => if c = '/' then '.' else c)

/-- The name of a class in Java source. -/
def sourceName (name : String) : String :=
  if package name = langPackage then String.ofList ((nameParts name).getLastD [])
  else qualifiedName name

/-- The class lies in a package inside `java.lang`. -/
def IsBelowLang (name : String) : Prop :=
  ∃ inner, inner ≠ [] ∧ package name = langPackage ++ inner

variable {name : String} {rest : List Char}

/-- The parts of a name that starts like those of the classes of `java.lang`. -/
theorem nameParts_of_lang (h : name.toList = "java/lang/".toList ++ rest) :
    nameParts name = langPackage ++ splitAt (· == '/') rest := by
  have hcut : "java/lang/".toList ++ rest =
      "java".toList ++ '/' :: ("lang".toList ++ '/' :: rest) := rfl
  rw [nameParts, h, hcut, splitAt_append_cons rfl, splitAt_append_cons rfl]
  rfl

theorem package_of_lang (h : name.toList = "java/lang/".toList ++ rest) :
    package name = langPackage ++ (splitAt (· == '/') rest).dropLast := by
  rw [package, nameParts_of_lang h, List.dropLast_append_of_ne_nil (splitAt_ne_nil _ _)]

/-- Only such a name has a package that is `java.lang` or lies inside it. -/
theorem exists_toList_of_package {inner : List (List Char)}
    (h : package name = langPackage ++ inner) :
    ∃ rest, name.toList = "java/lang/".toList ++ rest := by
  have hparts : nameParts name = "java".toList :: "lang".toList ::
      (inner ++ [(nameParts name).getLast (nameParts_ne_nil name)]) := by
    conv_lhs => rw [← List.dropLast_append_getLast (nameParts_ne_nil name), ← package, h]
    rfl
  obtain ⟨c, lang, hname, hc, hlang⟩ := exists_append_of_splitAt hparts (List.cons_ne_nil _ _)
  obtain ⟨d, rest, rfl, hd, -⟩ := exists_append_of_splitAt hlang
    (List.append_ne_nil_of_right_ne_nil _ (List.cons_ne_nil _ _))
  obtain rfl := eq_of_beq hc
  obtain rfl := eq_of_beq hd
  exact ⟨rest, hname⟩

/-- The front of such a name is left out, whatever follows it. -/
theorem className_of_lang (h : name.toList = "java/lang/".toList ++ rest) :
    className name = qualifiedName (String.ofList rest) := by
  have hprefix : "java/lang/".toList.isPrefixOf name.toList = true := by
    rw [List.isPrefixOf_iff_prefix, h]
    exact List.prefix_append _ _
  have hdrop : name.toList.drop 10 = rest := by
    rw [h]
    rfl
  simp only [className, hprefix, if_true, hdrop, qualifiedName, String.toList_ofList]

/-- Any other name is written in full. -/
theorem className_of_not_lang (h : ∀ rest, name.toList ≠ "java/lang/".toList ++ rest) :
    className name = qualifiedName name := by
  have hprefix : "java/lang/".toList.isPrefixOf name.toList = false := by
    rw [Bool.eq_false_iff, ne_eq, List.isPrefixOf_iff_prefix]
    rintro ⟨rest, hrest⟩
    exact h rest hrest.symm
  simp only [className, hprefix, qualifiedName]
  rfl

/-- Without a slash there is one part. -/
theorem splitAt_of_notMem (h : '/' ∉ rest) : splitAt (· == '/') rest = [rest] :=
  splitAt_of_forall fun _ hc => beq_false_of_ne (ne_of_mem_of_not_mem hc h)

/-- The class of such a name lies in `java.lang` itself unless the name goes on with a package. -/
theorem isBelowLang_iff_of_lang (h : name.toList = "java/lang/".toList ++ rest) :
    IsBelowLang name ↔ '/' ∈ rest := by
  rw [IsBelowLang, package_of_lang h]
  constructor
  · rintro ⟨inner, hne, hinner⟩
    by_contra hslash
    -- without a slash the name ends with its simple name
    rw [splitAt_of_notMem hslash] at hinner
    exact hne (List.append_cancel_left hinner).symm
  · intro hslash
    obtain ⟨front, back, rfl⟩ := List.append_of_mem hslash
    refine ⟨_, ?_, rfl⟩
    rw [splitAt_append_cons rfl, List.dropLast_append_of_ne_nil (splitAt_ne_nil _ _)]
    exact List.append_ne_nil_of_left_ne_nil (splitAt_ne_nil _ _) _

theorem IsBelowLang.package_ne (h : IsBelowLang name) : package name ≠ langPackage := by
  obtain ⟨inner, hne, hinner⟩ := h
  rwa [hinner, ne_eq, List.append_right_eq_self]

theorem length_qualifiedName (name : String) :
    (qualifiedName name).toList.length = name.toList.length := by
  rw [qualifiedName, String.toList_ofList, List.length_map]

/-- A simple name is the full name of a class without a package. -/
theorem qualifiedName_of_simple (h : '/' ∉ rest) :
    qualifiedName (String.ofList rest) = String.ofList rest := by
  rw [qualifiedName, String.toList_ofList]
  congr 1
  rw [List.map_congr_left fun c hc => if_neg (ne_of_mem_of_not_mem hc h), List.map_id']

/-- A class in `java.lang` itself is named by its simple name. -/
theorem sourceName_of_lang (h : name.toList = "java/lang/".toList ++ rest) (hslash : '/' ∉ rest) :
    sourceName name = String.ofList rest := by
  have hparts : nameParts name = langPackage ++ [rest] := by
    rw [nameParts_of_lang h, splitAt_of_notMem hslash]
  have hpackage : package name = langPackage := by
    rw [package, hparts, List.dropLast_concat]
  rw [sourceName, if_pos hpackage, hparts]
  rfl

/-- A class outside `java.lang` is named in full. -/
theorem sourceName_of_package_ne (h : package name ≠ langPackage) :
    sourceName name = qualifiedName name :=
  if_neg h

/-- A class is named right unless it lies in a package inside `java.lang`. -/
theorem className_eq_iff (name : String) :
    className name = sourceName name ↔ ¬ IsBelowLang name := by
  by_cases hlang : ∃ rest, name.toList = "java/lang/".toList ++ rest
  · obtain ⟨rest, hrest⟩ := hlang
    rw [className_of_lang hrest, isBelowLang_iff_of_lang hrest]
    by_cases hslash : '/' ∈ rest
    · -- the full name is longer by what is left out
      refine iff_of_false (fun heq => ?_) (not_not_intro hslash)
      have hbelow := (isBelowLang_iff_of_lang hrest).2 hslash
      rw [sourceName_of_package_ne hbelow.package_ne] at heq
      have hlength := congrArg (·.toList.length) heq
      simp only [length_qualifiedName, hrest, String.toList_ofList, List.length_append] at hlength
      exact absurd hlength (Nat.ne_of_lt (Nat.lt_add_of_pos_left (by decide)))
    · rw [sourceName_of_lang hrest hslash]
      exact iff_of_true (qualifiedName_of_simple hslash) hslash
  · have hpackage : ∀ inner, package name ≠ langPackage ++ inner := fun inner h =>
      hlang (exists_toList_of_package h)
    have hne : package name ≠ langPackage := fun h =>
      hpackage [] (h.trans (List.append_nil _).symm)
    rw [className_of_not_lang (not_exists.1 hlang), sourceName_of_package_ne hne]
    exact iff_of_true rfl fun ⟨inner, _, h⟩ => hpackage inner h

/-! ## Types -/

/-- The name in Java of what an array of any dimension holds, or of the type itself. -/
def elementName : JavaType → String
  | .void => "void"
  | .boolean => "boolean"
  | .byte => "byte"
  | .char => "char"
  | .short => "short"
  | .int => "int"
  | .long => "long"
  | .float => "float"
  | .double => "double"
  | .object name => sourceName name
  | .array component => component.elementName

/-- How many dimensions an array has. -/
def dimensions : JavaType → Nat
  | .array component => component.dimensions + 1
  | _ => 0

/-- What the type holds, or the type itself, is of a class in a package inside `java.lang`. -/
def HoldsBelowLang : JavaType → Prop
  | .object name => IsBelowLang name
  | .array component => component.HoldsBelowLang
  | _ => False

/-- A type is written as the name of its elements and a pair of brackets for every dimension, unless
the elements are of a class in a package inside `java.lang`. -/
theorem text_eq_iff (type : JavaType) :
    type.text = type.elementName ++ String.join (List.replicate type.dimensions "[]") ↔
      ¬ type.HoldsBelowLang := by
  induction type with
  | void | boolean | byte | char | short | int | long | float | double =>
    exact iff_of_true rfl not_false
  | object name =>
    rw [HoldsBelowLang, ← className_eq_iff]
    simp [text, elementName, dimensions]
  | array component ih =>
    have hbrackets : String.join (List.replicate (component.dimensions + 1) "[]") =
        String.join (List.replicate component.dimensions "[]") ++ "[]" := by
      rw [List.replicate_succ', String.join_append, String.join_cons, String.join_nil,
        String.append_empty]
    rw [HoldsBelowLang, ← ih, text, elementName, dimensions, hbrackets, ← String.append_assoc,
      String.append_left_inj]

/-- The class of methods is written as if there were a package `reflect`. -/
theorem text_below_lang :
    (object "java/lang/reflect/Method").WellFormed ∧
      (object "java/lang/reflect/Method").text = "reflect.Method" ∧
      (object "java/lang/reflect/Method").elementName = "java.lang.reflect.Method" ∧
      (object "java/lang/reflect/Method").dimensions = 0 :=
  ⟨⟨by decide, by decide⟩, rfl, rfl, rfl⟩

end JavaType

end Unjump
