import Mathlib.Algebra.Group.Nat.Even
import Unjump.Proofs.Except
import Unjump.Text.Hex

/-!
# Bytes in hexadecimal

A text stands for bytes if its characters, blanks left out, are digits and even in number: every two
of them are a number in base 16. Any other text has a first pair of characters that are not two
digits, or one character at its end, and that is what is wrong with it.

This is how a text is read (`IsExact`) with one exception: a plus sign may stand in place of the
first digit of a pair. A text is read exactly unless such a pair is the first thing that is wrong
with it (`isExact_iff`).
-/

namespace Unjump.Text.Hex

/-! ## What a text stands for -/

/-- The digits of base 16, in lower and in upper case. -/
def isDigit (c : Char) : Bool :=
  "0123456789abcdefABCDEF".toList.contains c

/-- The value of a digit is its place among the digits. -/
def valueOf (c : Char) : Nat :=
  "0123456789abcdef".toList.idxOf c.toLower

/-- The number that digits stand for in base 16. -/
def numberOf (digits : List Char) : Nat :=
  digits.foldl (fun n c => 16 * n + valueOf c) 0

/-- The characters of a text in twos, the last one alone if their number is odd. -/
def pairs : List Char → List (List Char)
  | [] => []
  | [c] => [[c]]
  | high :: low :: rest => [high, low] :: pairs rest

/-- Two digits. -/
def isPair : List Char → Bool
  | [high, low] => isDigit high && isDigit low
  | _ => false

/-- The characters of a text that are no blanks. -/
def inked (text : List Char) : List Char :=
  text.filter (!isBlank ·)

/-- The first pair that is not two digits, or a character that is left alone. -/
def firstFault? (text : List Char) : Option (List Char) :=
  (pairs (inked text)).find? (!isPair ·)

/-- A text is read as the bytes that it stands for, or else refused with what is wrong with it. -/
structure IsExact (text : List Char) : Prop where
  ok_iff : ∀ bytes, bytesOfText text = .ok bytes ↔
    Even (inked text).length ∧ (∀ c ∈ inked text, isDigit c = true) ∧
      bytes.map (·.toNat) = (pairs (inked text)).map numberOf
  error_iff : ∀ chunk, bytesOfText text = .error chunk ↔ firstFault? text = some chunk

/-- Every pair is two digits if there are digits only, and none is left alone. -/
theorem all_isPair_pairs_iff (cs : List Char) :
    (∀ pair ∈ pairs cs, isPair pair = true) ↔ Even cs.length ∧ ∀ c ∈ cs, isDigit c = true := by
  fun_induction pairs cs with
  | case1 => simp
  | case2 c => simp [isPair]
  | case3 high low rest ih =>
    simp only [List.forall_mem_cons, isPair, Bool.and_eq_true, List.length_cons,
      Nat.even_add_one, not_not]
    tauto

/-! ## Digits -/

/-- A character of a range has its place in it. -/
theorem exists_eq_ofNat {low high c : Char} (h : low ≤ c ∧ c ≤ high) :
    ∃ place, low.toNat + place ≤ high.toNat ∧ c = Char.ofNat (low.toNat + place) := by
  obtain ⟨hlow, hhigh⟩ := h
  rw [Char.le_def, UInt32.le_iff_toNat_le] at hlow hhigh
  have hsum : low.toNat + (c.toNat - low.toNat) = c.toNat := Nat.add_sub_cancel' hlow
  exact ⟨c.toNat - low.toNat, by rw [hsum]; exact hhigh, by rw [hsum, Char.ofNat_toNat]⟩

theorem digit?_of_isDigit {c : Char} (h : isDigit c = true) : digit? c = some (valueOf c) := by
  have hall : ∀ c ∈ "0123456789abcdefABCDEF".toList, digit? c = some (valueOf c) :=
    List.forall_iff_forall_mem.1 (by decide)
  exact hall c (List.contains_iff_mem.1 h)

theorem valueOf_lt {c : Char} (h : isDigit c = true) : valueOf c < 16 := by
  have hall : ∀ c ∈ "0123456789abcdefABCDEF".toList, valueOf c < 16 :=
    List.forall_iff_forall_mem.1 (by decide)
  exact hall c (List.contains_iff_mem.1 h)

/-- Other characters have no value. -/
theorem digit?_of_not_isDigit {c : Char} (h : isDigit c = false) : digit? c = none := by
  by_contra hsome
  have hdigit : isDigit c = true := by
    simp only [digit?] at hsome
    split_ifs at hsome with hdecimal hlower hupper
    · obtain ⟨place, hle, rfl⟩ := exists_eq_ofNat hdecimal
      exact (by decide : ∀ place < 10, isDigit (Char.ofNat (48 + place)) = true) place
        (Nat.lt_of_add_lt_add_left (Nat.lt_succ_of_le hle))
    · obtain ⟨place, hle, rfl⟩ := exists_eq_ofNat hlower
      exact (by decide : ∀ place < 6, isDigit (Char.ofNat (97 + place)) = true) place
        (Nat.lt_of_add_lt_add_left (Nat.lt_succ_of_le hle))
    · obtain ⟨place, hle, rfl⟩ := exists_eq_ofNat hupper
      exact (by decide : ∀ place < 6, isDigit (Char.ofNat (65 + place)) = true) place
        (Nat.lt_of_add_lt_add_left (Nat.lt_succ_of_le hle))
    · exact absurd rfl hsome
  rw [h] at hdigit
  cases hdigit

/-! ## Pairs -/

/-- Reads one pair of characters, or refuses it. -/
def readPair : List Char → Except (List Char) UInt8
  | [high, low] =>
    match pair? high low with
    | some b => .ok b
    | none => .error [high, low]
  | chunk => .error chunk

/-- The pairs of a text are read one by one. -/
theorem bytes_eq_mapM (cs : List Char) : bytes cs = (pairs cs).mapM readPair := by
  fun_induction pairs cs with
  | case1 => rfl
  | case2 c => rfl
  | case3 high low rest ih =>
    rw [bytes, List.mapM_cons, readPair, ih]
    cases pair? high low with
    | none => rfl
    | some b => cases (pairs rest).mapM readPair <;> rfl

/-- Two digits are read as their number. -/
theorem readPair_of_isPair {pair : List Char} (h : isPair pair = true) :
    readPair pair = .ok (UInt8.ofNat (numberOf pair)) ∧ numberOf pair < 256 := by
  unfold isPair at h
  split at h
  · rename_i high low
    obtain ⟨hhigh, hlow⟩ := Bool.and_eq_true_iff.1 h
    have hnumber : numberOf [high, low] = 16 * valueOf high + valueOf low := by simp [numberOf]
    have := valueOf_lt hhigh
    have := valueOf_lt hlow
    rw [readPair, pair?, digit?_of_isDigit hhigh, digit?_of_isDigit hlow, hnumber]
    exact ⟨rfl, by omega⟩
  · cases h

/-- A plus sign and a digit are read as the value of the digit. -/
theorem readPair_plus {low : Char} (h : isDigit low = true) :
    readPair ['+', low] = .ok (UInt8.ofNat (valueOf low)) := by
  rw [readPair, pair?, digit?_of_isDigit h]
  rfl

/-- Nothing else is read. -/
theorem readPair_of_not_isPair {chunk : List Char} (h : isPair chunk = false)
    (hplus : ∀ low, isDigit low = true → chunk ≠ ['+', low]) : readPair chunk = .error chunk := by
  unfold readPair
  split
  · rename_i high low
    have hnone : pair? high low = none := by
      cases hlow : isDigit low with
      | false => rw [pair?, digit?_of_not_isDigit hlow]; split <;> simp_all
      | true =>
        have hhigh : isDigit high = false := by simpa [isPair, hlow] using h
        have hne : high ≠ '+' := fun heq => hplus low hlow (heq ▸ rfl)
        rw [pair?, digit?_of_not_isDigit hhigh, digit?_of_isDigit hlow]
        exact if_neg hne
    rw [hnone]
  · rfl

/-! ## Texts -/

/-- Pairs of digits are read as their numbers. -/
theorem mapM_readPair_of_forall {chunks : List (List Char)}
    (h : ∀ chunk ∈ chunks, isPair chunk = true) :
    chunks.mapM readPair = .ok (chunks.map fun chunk => UInt8.ofNat (numberOf chunk)) := by
  refine mapM_eq_ok_iff_forall₂.2 (List.forall₂_map_right_iff.2 (List.forall₂_same.2 ?_))
  exact fun chunk hchunk => (readPair_of_isPair (h chunk hchunk)).1

/-- A text without a fault is read as the numbers of its pairs. -/
theorem bytesOfText_of_firstFault?_eq_none {text : List Char} (h : firstFault? text = none) :
    bytesOfText text = .ok ((pairs (inked text)).map fun pair => UInt8.ofNat (numberOf pair)) := by
  have hall : ∀ pair ∈ pairs (inked text), isPair pair = true := by
    simpa [firstFault?] using h
  exact (bytes_eq_mapM _).trans (mapM_readPair_of_forall hall)

/-- A text is refused with its first fault, unless this is a plus sign and a digit. -/
theorem bytesOfText_of_firstFault?_eq_some {text chunk : List Char}
    (h : firstFault? text = some chunk) (hplus : ∀ low, isDigit low = true → chunk ≠ ['+', low]) :
    bytesOfText text = .error chunk := by
  obtain ⟨hfault, before, after, heq, hbefore⟩ := List.find?_eq_some_iff_append.1 h
  have hread : readPair chunk = .error chunk :=
    readPair_of_not_isPair (by simpa using hfault) hplus
  refine (bytes_eq_mapM _).trans ?_
  rw [← inked, heq]
  refine mapM_append_cons_eq_error (fun pair hpair => ⟨_, (readPair_of_isPair ?_).1⟩) hread
  simpa using hbefore pair hpair

/-- A text is never refused with a plus sign and a digit. -/
theorem bytesOfText_ne_error_plus {text : List Char} {low : Char} (h : isDigit low = true) :
    bytesOfText text ≠ .error ['+', low] := by
  intro herror
  rw [bytesOfText, bytes_eq_mapM] at herror
  obtain ⟨pair, -, hpair⟩ := exists_of_mapM_eq_error herror
  have hself : pair = ['+', low] := by
    unfold readPair at hpair
    split at hpair
    · split at hpair
      · cases hpair
      · exact Except.error.inj hpair
    · exact Except.error.inj hpair
  rw [hself, readPair_plus h] at hpair
  cases hpair

theorem firstFault?_eq_none_iff (text : List Char) :
    firstFault? text = none ↔
      Even (inked text).length ∧ ∀ c ∈ inked text, isDigit c = true := by
  rw [← all_isPair_pairs_iff]
  simp [firstFault?]

/-- The numbers of pairs of digits are bytes. -/
theorem map_eq_iff_of_forall {chunks : List (List Char)} {bytes : List UInt8}
    (h : ∀ chunk ∈ chunks, isPair chunk = true) :
    chunks.map (fun chunk => UInt8.ofNat (numberOf chunk)) = bytes ↔
      bytes.map (·.toNat) = chunks.map numberOf := by
  have hnumbers : (chunks.map fun chunk => UInt8.ofNat (numberOf chunk)).map (·.toNat) =
      chunks.map numberOf := by
    rw [List.map_map]
    refine List.map_congr_left fun chunk hchunk => ?_
    exact UInt8.toNat_ofNat_of_lt' (readPair_of_isPair (h chunk hchunk)).2
  rw [← hnumbers, (List.map_injective_iff.2 fun _ _ => UInt8.toNat_inj.1).eq_iff, eq_comm]

/-- A text is read exactly unless a plus sign and a digit are the first thing that is wrong with
it. -/
theorem isExact_iff (text : List Char) :
    IsExact text ↔ ∀ low, isDigit low = true → firstFault? text ≠ some ['+', low] := by
  constructor
  · intro h low hlow hfault
    exact bytesOfText_ne_error_plus hlow ((h.error_iff _).2 hfault)
  · intro hplus
    cases hfault : firstFault? text with
    | none =>
      have hdigits := (firstFault?_eq_none_iff text).1 hfault
      have hread := bytesOfText_of_firstFault?_eq_none hfault
      refine ⟨fun bytes => ?_, fun chunk => ?_⟩
      · rw [hread, Except.ok.injEq, map_eq_iff_of_forall ((all_isPair_pairs_iff _).2 hdigits)]
        exact ⟨fun hbytes => ⟨hdigits.1, hdigits.2, hbytes⟩, fun h => h.2.2⟩
      · rw [hread, hfault]
        exact iff_of_false nofun nofun
    | some fault =>
      have hread := bytesOfText_of_firstFault?_eq_some hfault fun low hlow heq =>
        hplus low hlow (heq ▸ hfault)
      refine ⟨fun bytes => ?_, fun chunk => ?_⟩
      · rw [hread]
        refine iff_of_false nofun fun h => ?_
        rw [(firstFault?_eq_none_iff text).2 ⟨h.1, h.2.1⟩] at hfault
        cases hfault
      · rw [hread, hfault, Except.error.injEq, Option.some.injEq]

/-- A sign is taken for the first digit of a byte. -/
theorem not_isExact_signedDigit :
    bytesOfText "+4 ac".toList = .ok [0x04, 0xac] ∧
      firstFault? "+4 ac".toList = some "+4".toList ∧ ¬ IsExact "+4 ac".toList := by
  have hread : bytesOfText "+4 ac".toList = .ok [0x04, 0xac] :=
    eq_ok_of_toOption_eq_some (by decide)
  have hfault : firstFault? "+4 ac".toList = some "+4".toList := by decide
  refine ⟨hread, hfault, fun h => ?_⟩
  rw [(h.error_iff _).2 hfault] at hread
  cases hread

end Unjump.Text.Hex
