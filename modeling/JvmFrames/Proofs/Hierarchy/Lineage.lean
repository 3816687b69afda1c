import JvmFrames.Hierarchy

/-!
Trees by lineages: each node has a list of the nodes from itself up to the root. The nearest node
that two lineages share is the least upper bound of the two nodes.
-/

namespace JvmFrames

variable {α : Type} {lineage : α → List α} {root : α}

structure Rooted (lineage : α → List α) (root : α) : Prop where
  step : ∀ node, node = root ∧ lineage node = [root] ∨
    ∃ parent, lineage node = node :: lineage parent

namespace Rooted

theorem head?_lineage (rooted : Rooted lineage root) (node : α) :
    (lineage node).head? = some node := by
  rcases rooted.step node with ⟨same, alone⟩ | ⟨parent, more⟩
  · rw [alone, same]
    rfl
  · rw [more]
    rfl

theorem self_mem (rooted : Rooted lineage root) (node : α) : node ∈ lineage node :=
  List.mem_of_head? (rooted.head?_lineage node)

theorem root_mem (rooted : Rooted lineage root) (node : α) : root ∈ lineage node := by
  induction length : (lineage node).length generalizing node with
  | zero =>
      have empty := List.length_eq_zero_iff.mp length
      have self := rooted.self_mem node
      simp [empty] at self
  | succ number ih =>
      rcases rooted.step node with ⟨_, alone⟩ | ⟨parent, more⟩
      · simp [alone]
      · rw [more, List.length_cons] at length
        rw [more]
        exact List.mem_cons_of_mem _ (ih parent (by omega))

/-- What stands behind a node in any lineage is the rest of the node's own lineage. -/
theorem lineage_of_append (rooted : Rooted lineage root) {node other : α} {before after : List α}
    (parts : lineage node = before ++ other :: after) : lineage other = other :: after := by
  -- Taking off the first node leaves the lineage of its parent.
  induction before generalizing node with
  | nil =>
      rcases rooted.step node with ⟨same, alone⟩ | ⟨parent, more⟩
      · have both := alone.symm.trans parts
        simp only [List.nil_append, List.cons.injEq] at both
        rw [← both.1, ← same, alone, ← both.2, same]
      · have both := more.symm.trans parts
        simp only [List.nil_append, List.cons.injEq] at both
        rw [← both.1, more, both.2]
  | cons first before ih =>
      rcases rooted.step node with ⟨_, alone⟩ | ⟨parent, more⟩
      · simp [alone] at parts
      · rw [more, List.cons_append, List.cons.injEq] at parts
        exact ih parts.2

theorem lineage_suffix (rooted : Rooted lineage root) {node other : α}
    (above : other ∈ lineage node) : lineage other <:+ lineage node := by
  obtain ⟨before, after, parts⟩ := List.append_of_mem above
  rw [rooted.lineage_of_append parts]
  exact ⟨before, parts.symm⟩

theorem lineage_root (rooted : Rooted lineage root) : lineage root = [root] := by
  rcases rooted.step root with ⟨_, alone⟩ | ⟨parent, more⟩
  · exact alone
  · have shorter := (rooted.lineage_suffix (rooted.root_mem parent)).length_le
    rw [more, List.length_cons] at shorter
    omega

theorem above_trans (rooted : Rooted lineage root) {node other last : α}
    (above : other ∈ lineage node) (further : last ∈ lineage other) : last ∈ lineage node :=
  (rooted.lineage_suffix above).subset further

theorem eq_of_above (rooted : Rooted lineage root) {left right : α} (up : right ∈ lineage left)
    (down : left ∈ lineage right) : left = right := by
  have upSuffix := rooted.lineage_suffix up
  have downSuffix := rooted.lineage_suffix down
  have same : lineage left = lineage right :=
    downSuffix.eq_of_length_le upSuffix.length_le
  have heads := congrArg List.head? same
  rw [rooted.head?_lineage, rooted.head?_lineage] at heads
  exact Option.some.inj heads

theorem eq_of_lineage (rooted : Rooted lineage root) {left right : α}
    (same : ∀ node, node ∈ lineage left ↔ node ∈ lineage right) : left = right :=
  rooted.eq_of_above ((same right).mpr (rooted.self_mem right))
    ((same left).mp (rooted.self_mem left))

end Rooted

variable [DecidableEq α]

def nearest (lineage : α → List α) (root left right : α) : α :=
  ((lineage right).find? fun node => node ∈ lineage left).getD root

namespace Rooted

theorem nearest_parts (rooted : Rooted lineage root) (left right : α) :
    nearest lineage root left right ∈ lineage left ∧
      ∃ before after, lineage right = before ++ nearest lineage root left right :: after ∧
        ∀ node ∈ before, node ∉ lineage left := by
  cases found : (lineage right).find? fun node => node ∈ lineage left with
  | none =>
      have missing := List.find?_eq_none.mp found root (rooted.root_mem right)
      simp [rooted.root_mem left] at missing
  | some node =>
      obtain ⟨above, before, after, parts, first⟩ := List.find?_eq_some_iff_append.mp found
      rw [nearest, found]
      refine ⟨by simpa using above, before, after, parts, ?_⟩
      intro other member
      simpa using first other member

/-- The nearest node shared is below exactly what both nodes are below. -/
theorem mem_lineage_nearest (rooted : Rooted lineage root) {left right node : α} :
    node ∈ lineage (nearest lineage root left right) ↔
      node ∈ lineage left ∧ node ∈ lineage right := by
  obtain ⟨onLeft, before, after, parts, first⟩ := rooted.nearest_parts left right
  constructor
  · intro above
    refine ⟨rooted.above_trans onLeft above, rooted.above_trans ?_ above⟩
    rw [parts]
    exact List.mem_append_right _ List.mem_cons_self
  · rintro ⟨aboveLeft, aboveRight⟩
    rw [rooted.lineage_of_append parts]
    rw [parts] at aboveRight
    rcases List.mem_append.mp aboveRight with early | late
    -- Anything in front of the nearest shared node is not shared.
    · exact absurd aboveLeft (first node early)
    · exact late

theorem nearest_self (rooted : Rooted lineage root) (node : α) :
    nearest lineage root node node = node := by
  apply rooted.eq_of_lineage
  intro other
  rw [rooted.mem_lineage_nearest, and_self_iff]

theorem nearest_comm (rooted : Rooted lineage root) (left right : α) :
    nearest lineage root left right = nearest lineage root right left := by
  apply rooted.eq_of_lineage
  intro other
  rw [rooted.mem_lineage_nearest, rooted.mem_lineage_nearest, and_comm]

theorem nearest_right_comm (rooted : Rooted lineage root) (first second third : α) :
    nearest lineage root (nearest lineage root first second) third =
      nearest lineage root (nearest lineage root first third) second := by
  apply rooted.eq_of_lineage
  intro other
  simp only [rooted.mem_lineage_nearest, and_right_comm]

end Rooted

end JvmFrames
