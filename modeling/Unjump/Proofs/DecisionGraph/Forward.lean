import Unjump.Proofs.DecisionGraph.Course

/-!
# Groups whose edges lead forward

A path through a group whose edges lead forward has at most as many tests as there are members in
front of the one that it leads to. So no path is too long, and all paths are found (`exists_walk`).
-/

namespace Unjump.DecisionGraph

/-- An edge that leads to a member leads further on, to one that there is. -/
def LeadsOn (decisions : List Decision) (position : Nat) : Exit → Prop
  | .member next => position < next ∧ next < decisions.length
  | .body | .past => True

/-- A path that leads to a member has no more tests than there are members in front of that one. -/
def Within (decisions : List Decision) (path : Path) : Prop :=
  ∀ position, path.exit = .member position →
    path.conditions.length ≤ position ∧ position < decisions.length

variable {decisions : List Decision}

/-- One more test brings a path at least one member further on. -/
theorem within_of_extend {path p : Path} {position : Nat} {d : Decision}
    (hexit : path.exit = .member position) (hpath : Within decisions path)
    (hforward : LeadsOn decisions position d.target ∧ LeadsOn decisions position d.otherwise)
    (hp : p ∈ path.extend d) : Within decisions p := by
  obtain ⟨hle, -⟩ := hpath position hexit
  intro next hnext
  obtain rfl | rfl : p = _ ∨ p = _ := by simpa [Path.extend] using hp
  · obtain ⟨hlt, hlt'⟩ : LeadsOn decisions position (.member next) := hnext ▸ hforward.1
    exact ⟨by rw [List.length_append, List.length_singleton]; omega, hlt'⟩
  · obtain ⟨hlt, hlt'⟩ : LeadsOn decisions position (.member next) := hnext ▸ hforward.2
    exact ⟨by rw [List.length_append, List.length_singleton]; omega, hlt'⟩

/-- Where every edge leads forward, all paths are found. -/
theorem exists_walk (hforward : ∀ position d, decisions[position]? = some d →
      LeadsOn decisions position d.target ∧ LeadsOn decisions position d.otherwise)
    (hne : decisions ≠ []) : ∃ found, walk decisions [.enter (.member 0)] [] = some found := by
  refine exists_walk_of_forall (P := Within decisions) ?_ ?_ _ _ ?_
  · -- a path that leads to a member is not too long
    intro path position hpath hexit
    have := hpath position hexit
    omega
  · intro path position d hpath hexit hd p hp
    exact within_of_extend hexit hpath (hforward position d hd) hp
  · intro p hp
    rw [pending_start, List.mem_singleton] at hp
    subst hp
    rintro position ⟨⟩
    exact ⟨Nat.le_refl 0, List.length_pos_iff.2 hne⟩

end Unjump.DecisionGraph
