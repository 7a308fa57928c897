import Unjump.DecisionGraph

/-!
# The paths that a walk follows

The steps of the walk through a group share one path, which grows and shrinks on the way. Every
list of steps stands for a list of paths, one for each way that is still to go (`pending`), and the
walk replaces a path that leads to a member by its two extensions. `Explored` is this view of the
walk, without the order of steps on a shared path (`explored_of_walk`).
-/

namespace Unjump

namespace Path

/-- The path of no tests. -/
def start : Path :=
  ⟨[], .member 0⟩

/-- The path and one more decision, either way. -/
def extend (path : Path) (d : Decision) : List Path :=
  [⟨path.conditions ++ [d.condition], d.target⟩,
    ⟨path.conditions ++ [d.condition.inverse], d.otherwise⟩]

end Path

namespace DecisionGraph

/-- The paths that steps are still to follow, from the path on which the first one is taken. -/
def pending (decisions : List Decision) : List Step → List Condition → List Path
  | [], _ => []
  | .enter exit :: rest, conditions => ⟨conditions, exit⟩ :: pending decisions rest conditions
  | .turn position :: rest, conditions =>
    match decisions[position]? with
    | some d =>
      ⟨conditions.dropLast ++ [d.condition.inverse], d.otherwise⟩ ::
        pending decisions rest conditions.dropLast
    | none => pending decisions rest conditions.dropLast
  | .leave :: rest, conditions => pending decisions rest conditions.dropLast

variable {decisions : List Decision}

@[simp] theorem pending_start : pending decisions [.enter (.member 0)] [] = [.start] :=
  rfl

/-- To come to a member is to follow both extensions of the path. The steps behind the member find
the path as it was. -/
theorem pending_member {position : Nat} {d : Decision} (hd : decisions[position]? = some d)
    (conditions : List Condition) (rest : List Step) :
    pending decisions (.enter d.target :: .turn position :: rest) (conditions ++ [d.condition]) =
      Path.extend ⟨conditions, .member position⟩ d ++ pending decisions rest conditions := by
  simp [pending, hd, Path.extend]

/-- To turn to the other edge of a member is to follow the second of the extensions. -/
theorem pending_turn {position : Nat} {d : Decision} (hd : decisions[position]? = some d)
    (conditions : List Condition) (rest : List Step) :
    pending decisions (.enter d.otherwise :: .leave :: rest)
        (conditions.dropLast ++ [d.condition.inverse]) =
      pending decisions (.turn position :: rest) conditions := by
  simp [pending, hd]

/-- The paths that are found when paths are left to follow and none is too long. -/
inductive Explored (decisions : List Decision) : List Path → List Path → Prop where
  | nil : Explored decisions [] []
  | exit {path : Path} {rest later : List Path} (hexit : path.exit = .body ∨ path.exit = .past)
      (hlater : Explored decisions rest later) :
      Explored decisions (path :: rest) (noted path ++ later)
  | member {path : Path} {rest later : List Path} {position : Nat} {d : Decision}
      (hexit : path.exit = .member position) (hd : decisions[position]? = some d)
      (hlater : Explored decisions (path.extend d ++ rest) later) :
      Explored decisions (path :: rest) (noted path ++ later)
  | lost {path : Path} {rest later : List Path} {position : Nat}
      (hexit : path.exit = .member position) (hd : decisions[position]? = none)
      (hlater : Explored decisions rest later) :
      Explored decisions (path :: rest) (noted path ++ later)

/-- What the walk finds is what is found from the paths that its steps stand for. -/
theorem explored_of_walk {steps : List Step} {conditions : List Condition} {found : List Path}
    (h : walk decisions steps conditions = some found) :
    Explored decisions (pending decisions steps conditions) found := by
  fun_induction walk decisions steps conditions generalizing found with
  | case1 => cases h; exact .nil
  | case2 rest conditions ih =>
    obtain ⟨later, hlater, rfl⟩ := Option.map_eq_some_iff.1 h
    exact .exit (.inl rfl) (ih hlater)
  | case3 rest conditions ih =>
    obtain ⟨later, hlater, rfl⟩ := Option.map_eq_some_iff.1 h
    exact .exit (.inr rfl) (ih hlater)
  | case4 rest conditions position _ d hd ih =>
    obtain ⟨later, hlater, rfl⟩ := Option.map_eq_some_iff.1 h
    exact .member rfl hd (pending_member hd conditions rest ▸ ih hlater)
  | case5 rest conditions position _ hd ih =>
    obtain ⟨later, hlater, rfl⟩ := Option.map_eq_some_iff.1 h
    exact .lost rfl hd (ih hlater)
  | case6 => cases h
  | case7 position rest conditions d hd ih => exact pending_turn hd conditions rest ▸ ih h
  | case8 position rest conditions hd ih => simpa [pending, hd] using ih h
  | case9 rest conditions ih => exact ih h

/-- No path is too long for the walk if the paths that it follows have a property that bounds their
length and is kept when they are extended. -/
theorem exists_walk_of_forall {P : Path → Prop}
    (hshort : ∀ path position, P path → path.exit = .member position →
      path.conditions.length < decisions.length)
    (hextend : ∀ path position d, P path → path.exit = .member position →
      decisions[position]? = some d → ∀ p ∈ path.extend d, P p)
    (steps : List Step) (conditions : List Condition)
    (h : ∀ p ∈ pending decisions steps conditions, P p) :
    ∃ found, walk decisions steps conditions = some found := by
  fun_induction walk decisions steps conditions with
  | case1 => exact ⟨[], rfl⟩
  | case2 rest conditions ih | case3 rest conditions ih =>
    obtain ⟨later, hlater⟩ := ih (List.forall_mem_cons.1 h).2
    exact ⟨_, by rw [hlater]; rfl⟩
  | case4 rest conditions position _ d hd ih =>
    obtain ⟨hpath, hrest⟩ := List.forall_mem_cons.1 h
    obtain ⟨later, hlater⟩ := ih fun p hp => by
      rw [pending_member hd] at hp
      exact (List.mem_append.1 hp).elim (hextend _ position d hpath rfl hd p) (hrest p)
    exact ⟨_, by rw [hlater]; rfl⟩
  | case5 rest conditions position _ _ ih =>
    obtain ⟨later, hlater⟩ := ih (List.forall_mem_cons.1 h).2
    exact ⟨_, by rw [hlater]; rfl⟩
  | case6 rest conditions position hlong =>
    exact absurd (hshort _ position (List.forall_mem_cons.1 h).1 rfl) hlong
  | case7 position rest conditions d hd ih => exact ih (pending_turn hd conditions rest ▸ h)
  | case8 position rest conditions hd ih => exact ih (by simpa [pending, hd] using h)
  | case9 rest conditions ih => exact ih h

end DecisionGraph

end Unjump
