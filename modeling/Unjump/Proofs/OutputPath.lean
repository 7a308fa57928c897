import Mathlib.Data.List.Basic
import Unjump.OutputPath
import Unjump.Proofs.Text.Blank

/-!
# Output paths stay below their directory

A path is followed step by step (`steps`): from the root if it starts there, otherwise from where
one stands, and then from one entry to the next. Whatever the name of a class is, its path leads to
a file of source text, and joined to any directory it goes on from this directory without ever
leaving it (`confined_ofClass`).
-/

namespace Unjump.OutputPath

open Text

/-! ## The way of a path -/

/-- One step on the way of a path. -/
inductive Step where
  /-- To the root. -/
  | root
  /-- To where one stands. -/
  | stay
  /-- To the directory around the one where one stands. -/
  | up
  | enter (name : List Char)
  deriving DecidableEq

/-- The step that an entry of a path stands for. -/
def Step.ofEntry (entry : List Char) : Step :=
  if entry = ['.'] then .stay else if entry = ['.', '.'] then .up else .enter entry

/-- The steps that the entries of a path stand for. -/
def entrySteps (path : List Char) : List Step :=
  (fields (· == '/') path).map Step.ofEntry

/-- The steps of a path. A single dot is one only at the start of a relative path. -/
def steps (path : List Char) : List Step :=
  if isAbsolute path then .root :: (entrySteps path).filter (· ≠ .stay)
  else (entrySteps path).take 1 ++ ((entrySteps path).drop 1).filter (· ≠ .stay)

/-- Where a step leads to. A place is given by the names on the way to it from the root. -/
def Step.lead (place : List (List Char)) : Step → List (List Char)
  | .root => []
  | .stay => place
  | .up => place.dropLast
  | .enter name => place ++ [name]

/-- Where a way leads to. -/
def goal (place : List (List Char)) (way : List Step) : List (List Char) :=
  way.foldl Step.lead place

/-- A path that leads to a file of source text below any directory that it is joined to. -/
structure Confined (path : List Char) : Prop where
  relative : isAbsolute path = false ∧ .root ∉ steps path
  /-- No step leads upwards. -/
  not_up : .up ∉ steps path
  /-- No backslash, no colon, and no other character that file names should not hold. -/
  allowed : '\\' ∉ path ∧ ':' ∉ path ∧ ∀ c ∈ path, isForbidden c = false
  /-- The last step is into the file. -/
  file : ∃ name, (steps path).getLast? = some (.enter name) ∧ ".java".toList <:+ name
  /-- Below a directory, the way goes on from the directory, and never leaves it. -/
  below : ∀ directory, ∃ way, steps (join directory path) = steps directory ++ way ∧
    ∀ place front, front <+: way →
      goal place (steps directory) <+: goal place (steps directory ++ front)
  /-- The way ends at the entries of the path below the directory. -/
  goal_eq : ∀ directory place,
    goal place (steps (join directory path)) = goal place (steps directory) ++ components path

/-! ## Joined paths -/

@[simp] theorem isAbsolute_nil : isAbsolute [] = false := rfl

theorem isAbsolute_cons (c : Char) (path : List Char) : isAbsolute (c :: path) = (c == '/') := rfl

@[simp] theorem join_nil (piece : List Char) : join [] piece = piece := by
  simp [join]

variable {path piece : List Char}

/-- A relative piece is put behind the path. -/
theorem join_eq (path : List Char) (h : isAbsolute piece = false) :
    join path piece = path ++ piece ∧ (path = [] ∨ path.getLast? = some '/') ∨
      join path piece = path ++ '/' :: piece := by
  rw [join, h, if_neg (by simp)]
  split_ifs with hcut
  · exact .inl ⟨rfl, by simpa using hcut⟩
  · exact .inr rfl

/-- A path with a relative piece behind it starts where the path starts. -/
theorem isAbsolute_join (h : isAbsolute piece = false) :
    isAbsolute (join path piece) = isAbsolute path := by
  cases path with
  | nil => rw [join_nil, h, isAbsolute_nil]
  | cons c path => obtain ⟨heq, -⟩ | heq := join_eq (c :: path) h <;> rw [heq] <;> rfl

/-- The entries of a path with a relative piece are those of the path and those of the piece. -/
theorem fields_join (h : isAbsolute piece = false) :
    fields (· == '/') (join path piece) = fields (· == '/') path ++ fields (· == '/') piece := by
  obtain ⟨heq, rfl | hlast⟩ | heq := join_eq path h
  · rw [heq, fields_nil, List.nil_append, List.nil_append]
  · obtain ⟨front, rfl⟩ := List.getLast?_eq_some_iff.1 hlast
    rw [heq, List.append_assoc, List.singleton_append, fields_append_cons rfl,
      fields_append_cons rfl, fields_nil, List.append_nil]
  · rw [heq, fields_append_cons rfl]

theorem entrySteps_join (h : isAbsolute piece = false) :
    entrySteps (join path piece) = entrySteps path ++ entrySteps piece := by
  rw [entrySteps, fields_join h, List.map_append, entrySteps, entrySteps]

/-- A relative path that is not empty has entries. -/
theorem entrySteps_ne_nil (hne : path ≠ []) (h : isAbsolute path = false) :
    entrySteps path ≠ [] := by
  obtain ⟨c, path, rfl⟩ := List.exists_cons_of_ne_nil hne
  rw [isAbsolute_cons] at h
  obtain ⟨part, parts, hparts⟩ := List.exists_cons_of_ne_nil (splitAt_ne_nil (· == '/') path)
  have hsplit : splitAt (· == '/') (c :: path) = (c :: part) :: parts :=
    (@splitAt_cons_of_neg (· == '/') c path h).trans (by rw [hparts, List.modifyHead_cons])
  simp [entrySteps, fields, hsplit]

/-- Joined to a directory, a relative path goes on from there with all its steps but the stays. -/
theorem steps_join {directory : List Char} (hne : directory ≠ []) (h : isAbsolute path = false) :
    steps (join directory path) =
      steps directory ++ (entrySteps path).filter (· ≠ .stay) := by
  rw [steps, steps, isAbsolute_join h, entrySteps_join h]
  cases habsolute : isAbsolute directory with
  | true => simp
  | false =>
    obtain ⟨first, rest, hentries⟩ :=
      List.exists_cons_of_ne_nil (entrySteps_ne_nil hne habsolute)
    simp [hentries]

/-! ## Where the steps lead -/

theorem goal_append (place : List (List Char)) (way more : List Step) :
    goal place (way ++ more) = goal (goal place way) more :=
  List.foldl_append

/-- Steps that do not lead anywhere may be left out. -/
theorem goal_filter_stay (place : List (List Char)) (way : List Step) :
    goal place (way.filter (· ≠ .stay)) = goal place way := by
  induction way generalizing place with
  | nil => rfl
  | cons step way ih =>
    by_cases hstay : step = .stay
    · rw [List.filter_cons_of_neg (by simpa using hstay), ih, hstay]
      rfl
    · rw [List.filter_cons_of_pos (by simpa using hstay)]
      exact ih _

/-- A way that neither starts at the root nor goes upwards stays below where it starts. -/
theorem prefix_goal {way : List Step} (hroot : .root ∉ way) (hup : .up ∉ way)
    (place : List (List Char)) : place <+: goal place way := by
  induction way generalizing place with
  | nil => exact List.prefix_rfl
  | cons step way ih =>
    rw [List.mem_cons, not_or] at hroot hup
    have hstep : place <+: step.lead place := by
      cases step with
      | root => exact absurd rfl hroot.1
      | stay => exact List.prefix_rfl
      | up => exact absurd rfl hup.1
      | enter name => exact List.prefix_append place [name]
    exact hstep.trans (ih hroot.2 hup.2 _)

/-- Entries are stays or names if none of them leads upwards. -/
theorem goal_map_ofEntry {entries : List (List Char)} (h : ['.', '.'] ∉ entries)
    (place : List (List Char)) :
    goal place (entries.map Step.ofEntry) = place ++ entries.filter (· ≠ ['.']) := by
  induction entries generalizing place with
  | nil => exact (List.append_nil place).symm
  | cons entry entries ih =>
    rw [List.mem_cons, not_or] at h
    by_cases hdot : entry = ['.']
    · rw [List.filter_cons_of_neg (by simpa using hdot), ← ih h.2, hdot]
      rfl
    · have hstep : Step.ofEntry entry = .enter entry := by
        rw [Step.ofEntry, if_neg hdot, if_neg (Ne.symm h.1)]
      rw [List.filter_cons_of_pos (by simpa using hdot), List.map_cons, hstep]
      refine (ih h.2 _).trans ?_
      rw [Step.lead, List.append_assoc, List.singleton_append]

/-! ## Names of files -/

/-- A piece of a path that stands for one entry at most, and not for the one around it. -/
structure IsPlain (piece : List Char) : Prop where
  not_slash : '/' ∉ piece
  not_up : piece ≠ ['.', '.']
  allowed : ∀ c ∈ piece, isForbidden c = false

/-- Breaking up dots adds no dot. -/
theorem head?_of_head?_breakDots {cs : List Char} (h : (breakDots cs).head? = some '.') :
    cs.head? = some '.' := by
  unfold breakDots at h
  split at h
  · cases h
  · exact h
  · cases h

/-- No two dots in a row are left. -/
theorem not_infix_breakDots (cs : List Char) : ¬ ['.', '.'] <:+: breakDots cs := by
  fun_induction breakDots cs with
  | case1 rest ih =>
    rw [List.infix_cons_iff, List.cons_prefix_cons]
    rintro (⟨hdot, -⟩ | hinfix)
    · cases hdot
    · exact ih hinfix
  | case2 c rest hdots ih =>
    rw [List.infix_cons_iff, List.cons_prefix_cons]
    rintro (⟨rfl, hprefix⟩ | hinfix)
    · -- the next character would be a second dot
      have hhead : (breakDots rest).head? = some '.' := by
        obtain ⟨back, hback⟩ := hprefix
        rw [← hback]
        rfl
      obtain ⟨after, rfl⟩ := List.head?_eq_some_iff.1 (head?_of_head?_breakDots hhead)
      exact hdots after rfl rfl
    · exact ih hinfix
  | case3 => simp

theorem mem_of_mem_breakDots {cs : List Char} {c : Char} (h : c ∈ breakDots cs) :
    c ∈ cs ∨ c = '_' := by
  fun_induction breakDots cs with
  | case1 rest ih =>
    obtain rfl | h := List.mem_cons.1 h
    · exact .inr rfl
    · exact (ih h).imp_left fun hmem => List.mem_cons_of_mem _ (List.mem_cons_of_mem _ hmem)
  | case2 d rest _ ih =>
    obtain rfl | h := List.mem_cons.1 h
    · exact .inl List.mem_cons_self
    · exact (ih h).imp_left (List.mem_cons_of_mem d)
  | case3 => cases h

theorem trimUnderscores_isInfix (cs : List Char) : trimUnderscores cs <:+: cs := by
  have hback : ∀ l : List Char, (l.reverse.dropWhile (· == '_')).reverse <+: l := fun l => by
    rw [← List.reverse_suffix, List.reverse_reverse]
    exact List.dropWhile_suffix _
  exact (hback _).isInfix.trans (List.dropWhile_suffix _).isInfix

/-- The characters of a name are those of the piece, or underscores. -/
theorem mem_of_mem_sanitized {c : Char} (h : c ∈ sanitized piece) :
    c = '_' ∨ c ∈ piece ∧ isForbidden c = false := by
  obtain hmem | rfl := mem_of_mem_breakDots ((trimUnderscores_isInfix _).subset h)
  · obtain ⟨d, hd, rfl⟩ := List.mem_map.1 hmem
    cases hforbidden : isForbidden d with
    | true => exact .inl rfl
    | false => exact .inr ⟨hd, hforbidden⟩
  · exact .inl rfl

theorem isForbidden_of_mem_sanitized {c : Char} (h : c ∈ sanitized piece) :
    isForbidden c = false := by
  obtain rfl | ⟨-, hallowed⟩ := mem_of_mem_sanitized h
  · rfl
  · exact hallowed

theorem not_slash_sanitized (h : '/' ∉ piece) : '/' ∉ sanitized piece := by
  intro hslash
  obtain heq | ⟨hmem, -⟩ := mem_of_mem_sanitized hslash
  · cases heq
  · exact h hmem

theorem isPlain_sanitized (h : '/' ∉ piece) : IsPlain (sanitized piece) where
  not_slash := not_slash_sanitized h
  not_up := by
    intro heq
    rw [sanitized] at heq
    exact not_infix_breakDots _ (heq ▸ trimUnderscores_isInfix _)
  allowed := fun _ => isForbidden_of_mem_sanitized

/-- A name with `.java` behind it. -/
theorem isPlain_file (h : '/' ∉ piece) : IsPlain (sanitized piece ++ ".java".toList) where
  not_slash := by
    rw [List.mem_append, not_or]
    exact ⟨not_slash_sanitized h, by decide⟩
  not_up := fun heq => by simpa using congrArg List.length heq
  allowed := by
    rw [List.forall_mem_append]
    exact ⟨fun _ => isForbidden_of_mem_sanitized, List.forall_iff_forall_mem.1 (by decide)⟩

/-! ## The path of a class -/

/-- A path that is put together from plain pieces. -/
structure IsTame (path : List Char) : Prop where
  relative : isAbsolute path = false
  not_up : ['.', '.'] ∉ fields (· == '/') path
  allowed : ∀ c ∈ path, isForbidden c = false

theorem IsTame.nil : IsTame [] :=
  ⟨rfl, List.not_mem_nil, List.forall_mem_nil _⟩

theorem IsPlain.relative (h : IsPlain piece) : isAbsolute piece = false := by
  cases piece with
  | nil => rfl
  | cons c piece =>
    rw [isAbsolute_cons, beq_eq_false_iff_ne]
    exact fun heq => h.not_slash (heq ▸ List.mem_cons_self)

/-- A plain piece is an entry of its own unless it is empty. -/
theorem IsPlain.fields_eq (h : IsPlain piece) (hne : piece ≠ []) :
    fields (· == '/') piece = [piece] :=
  fields_of_forall (fun c hc => by simpa using fun heq : c = '/' => h.not_slash (heq ▸ hc)) hne

theorem IsPlain.isTame (h : IsPlain piece) : IsTame piece where
  relative := h.relative
  not_up := by
    by_cases hne : piece = []
    · simp [hne]
    · rw [h.fields_eq hne, List.mem_singleton]
      exact Ne.symm h.not_up
  allowed := h.allowed

/-- A piece more keeps a path tame. -/
theorem isTame_join (h : IsTame path) (hpiece : IsTame piece) : IsTame (join path piece) where
  relative := (isAbsolute_join hpiece.relative).trans h.relative
  not_up := by
    rw [fields_join hpiece.relative, List.mem_append, not_or]
    exact ⟨h.not_up, hpiece.not_up⟩
  allowed := by
    obtain ⟨heq, -⟩ | heq := join_eq path hpiece.relative
    · rw [heq, List.forall_mem_append]
      exact ⟨h.allowed, hpiece.allowed⟩
    · rw [heq, List.forall_mem_append, List.forall_mem_cons]
      exact ⟨h.allowed, rfl, hpiece.allowed⟩

theorem isTame_below {pieces : List (List Char)} (h : IsTame path)
    (hpieces : ∀ piece ∈ pieces, '/' ∉ piece) : IsTame (below path pieces) := by
  fun_induction below path pieces with
  | case1 => exact h
  | case2 path name => exact isTame_join h (isPlain_file (hpieces name List.mem_cons_self)).isTame
  | case3 path package rest _ ih =>
    obtain ⟨hpackage, hrest⟩ := List.forall_mem_cons.1 hpieces
    exact ih (isTame_join h (isPlain_sanitized hpackage).isTame) hrest

/-- The last entry is the file of the last piece. -/
theorem getLast?_fields_below {pieces : List (List Char)} (hne : pieces ≠ [])
    (hpieces : ∀ piece ∈ pieces, '/' ∉ piece) :
    ∃ name, (fields (· == '/') (below path pieces)).getLast? =
      some (sanitized name ++ ".java".toList) := by
  fun_induction below path pieces with
  | case1 => exact absurd rfl hne
  | case2 path name =>
    have hfile := isPlain_file (hpieces name List.mem_cons_self)
    refine ⟨name, ?_⟩
    rw [fields_join hfile.relative, hfile.fields_eq (by simp), List.getLast?_concat]
  | case3 path package rest hrest ih =>
    exact ih hrest (List.forall_mem_cons.1 hpieces).2

/-- Entries of more than two characters are names. -/
theorem Step.ofEntry_of_lt_length {entry : List Char} (h : 2 < entry.length) :
    Step.ofEntry entry = .enter entry := by
  have hne : ∀ dots : List Char, dots.length ≤ 2 → entry ≠ dots := by
    rintro dots hle rfl
    omega
  rw [Step.ofEntry, if_neg (hne ['.'] (by decide)), if_neg (hne ['.', '.'] (by decide))]

/-- A step into an entry is kept at the end of a way. -/
theorem getLast?_steps {name : List Char} (habsolute : isAbsolute path = false)
    (h : (entrySteps path).getLast? = some (.enter name)) :
    (steps path).getLast? = some (.enter name) := by
  obtain ⟨front, hfront⟩ := List.getLast?_eq_some_iff.1 h
  rw [steps, habsolute, hfront]
  cases front with
  | nil => rfl
  | cons first front => simp [List.getLast?_cons]

theorem mem_entrySteps_of_mem_steps {step : Step} (habsolute : isAbsolute path = false)
    (h : step ∈ steps path) : step ∈ entrySteps path := by
  rw [steps, habsolute] at h
  obtain h | h := List.mem_append.1 h
  · exact List.mem_of_mem_take h
  · exact List.mem_of_mem_drop (List.mem_filter.1 h).1

theorem root_notMem_entrySteps (path : List Char) : .root ∉ entrySteps path := by
  intro h
  obtain ⟨entry, -, hentry⟩ := List.mem_map.1 h
  unfold Step.ofEntry at hentry
  split_ifs at hentry

theorem IsTame.up_notMem_entrySteps (h : IsTame path) : .up ∉ entrySteps path := by
  intro hup
  obtain ⟨entry, hmem, hentry⟩ := List.mem_map.1 hup
  unfold Step.ofEntry at hentry
  split_ifs at hentry with hdot hdots
  exact h.not_up (hdots ▸ hmem)

theorem IsTame.root_notMem_steps (h : IsTame path) : .root ∉ steps path := fun hroot =>
  root_notMem_entrySteps path (mem_entrySteps_of_mem_steps h.relative hroot)

theorem IsTame.up_notMem_steps (h : IsTame path) : .up ∉ steps path := fun hup =>
  h.up_notMem_entrySteps (mem_entrySteps_of_mem_steps h.relative hup)

theorem IsTame.goal_entrySteps (h : IsTame path) (place : List (List Char)) :
    goal place (entrySteps path) = place ++ components path :=
  goal_map_ofEntry h.not_up place

theorem IsTame.goal_steps (h : IsTame path) (place : List (List Char)) :
    goal place (steps path) = place ++ components path := by
  rw [← h.goal_entrySteps, steps, h.relative, if_neg (by simp), goal_append, goal_filter_stay,
    ← goal_append, List.take_append_drop]

/-- Below a directory, the way of a tame path goes on from the directory to the entries of the
path, and takes no step to the root or upwards. -/
theorem IsTame.exists_way (h : IsTame path) (directory : List Char) :
    ∃ way, steps (join directory path) = steps directory ++ way ∧ .root ∉ way ∧ .up ∉ way ∧
      ∀ place, goal place way = place ++ components path := by
  by_cases hne : directory = []
  · refine ⟨steps path, ?_, h.root_notMem_steps, h.up_notMem_steps, h.goal_steps⟩
    rw [hne, join_nil]
    rfl
  · refine ⟨_, steps_join hne h.relative, fun hroot => ?_, fun hup => ?_, fun place => ?_⟩
    · exact root_notMem_entrySteps path (List.mem_filter.1 hroot).1
    · exact h.up_notMem_entrySteps (List.mem_filter.1 hup).1
    · rw [goal_filter_stay, h.goal_entrySteps]

theorem not_slash_of_mem_splitAt {name : List Char} :
    ∀ piece ∈ splitAt (· == '/') name, '/' ∉ piece := fun _ hpiece hslash =>
  Bool.false_ne_true (isSeparator_of_mem_splitAt hpiece hslash).symm

theorem isTame_ofClass (name : List Char) : IsTame (ofClass name) :=
  isTame_below .nil not_slash_of_mem_splitAt

theorem notMem_ofClass {name : List Char} {c : Char} (hc : isForbidden c = true) :
    c ∉ ofClass name := fun hmem =>
  Bool.false_ne_true (((isTame_ofClass name).allowed c hmem).symm.trans hc)

/-- The path of a class leads to a file of source text below any directory that it is joined to. -/
theorem confined_ofClass (name : List Char) : Confined (ofClass name) where
  relative := ⟨(isTame_ofClass name).relative, (isTame_ofClass name).root_notMem_steps⟩
  not_up := (isTame_ofClass name).up_notMem_steps
  allowed := ⟨notMem_ofClass rfl, notMem_ofClass rfl, (isTame_ofClass name).allowed⟩
  file := by
    obtain ⟨piece, hlast⟩ :=
      getLast?_fields_below (splitAt_ne_nil (· == '/') name) not_slash_of_mem_splitAt
    refine ⟨_, getLast?_steps (isTame_ofClass name).relative ?_,
      List.suffix_append (sanitized piece) _⟩
    rw [entrySteps, List.getLast?_map, ofClass, hlast, Option.map_some,
      Step.ofEntry_of_lt_length (by simp)]
  below := by
    intro directory
    obtain ⟨way, heq, hroot, hup, -⟩ := (isTame_ofClass name).exists_way directory
    refine ⟨way, heq, fun place front hfront => ?_⟩
    rw [goal_append]
    exact prefix_goal (fun h => hroot (hfront.subset h)) (fun h => hup (hfront.subset h)) _
  goal_eq := by
    intro directory place
    obtain ⟨way, heq, -, -, hgoal⟩ := (isTame_ofClass name).exists_way directory
    rw [heq, goal_append, hgoal]

end Unjump.OutputPath
