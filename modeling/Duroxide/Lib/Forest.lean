import Mathlib.Data.List.Perm.Subperm
import Mathlib.Logic.Relation

/-! # Trees of parent links

A table whose entries may name another entry as their parent. `walk` collects what lies below an entry
with a worklist: take the entry on top, visit it, and put its children on top. It carries fuel, since
parent links may run in a circle; below an entry without a parent there is no circle, and as much fuel
as there are entries is enough to visit everything below it, once.
-/

namespace Duroxide.Lib

structure Forest (α : Type) where
  entries : List α
  parent : α → Option α
  distinct : entries.Nodup
  listed : ∀ entry up, parent entry = some up → entry ∈ entries

namespace Forest

variable {α : Type} [DecidableEq α] (forest : Forest α)

def children (up : α) : List α := forest.entries.filter fun entry => forest.parent entry == some up

/-- Take entries off the worklist, top first, until it is empty; none when the fuel runs out. -/
def walk : Nat → List α → Option (List α)
  | _, [] => some []
  | 0, _ :: _ => none
  | fuel + 1, top :: rest => (walk fuel ((forest.children top).reverse ++ rest)).map (top :: ·)

/-- Following parent links upwards from an entry leads to another. -/
def Below : α → α → Prop := Relation.ReflTransGen fun up entry => forest.parent entry = some up

variable {forest}

@[simp] theorem mem_children {up entry : α} : entry ∈ forest.children up ↔ forest.parent entry = some up := by
  simp only [children, List.mem_filter, beq_iff_eq, and_iff_right_iff_imp]
  intro linked
  exact forest.listed entry up linked

omit [DecidableEq α] in
theorem Below.refl (entry : α) : forest.Below entry entry := Relation.ReflTransGen.refl

omit [DecidableEq α] in
theorem Below.step {root up entry : α} (above : forest.Below root up) (linked : forest.parent entry = some up) :
    forest.Below root entry := Relation.ReflTransGen.tail above linked

omit [DecidableEq α] in
theorem below_iff_child {up entry : α} :
    forest.Below up entry ↔ entry = up ∨ ∃ child, forest.parent child = some up ∧ forest.Below child entry := by
  unfold Below
  rw [Relation.ReflTransGen.cases_head_iff, eq_comm]

omit [DecidableEq α] in
/-- The entries below another one are itself and those with a parent below it. -/
theorem below_iff_parent {root entry : α} :
    forest.Below root entry ↔ entry = root ∨ ∃ up, forest.Below root up ∧ forest.parent entry = some up := by
  unfold Below
  rw [Relation.ReflTransGen.cases_tail_iff]

omit [DecidableEq α] in
/-- Everything lies below at most one entry without a parent. -/
theorem Below.root_unique {root other entry : α} (parentless : forest.parent root = none)
    (otherParentless : forest.parent other = none) (below : forest.Below root entry) (otherBelow : forest.Below other entry) :
    root = other := by
  induction below with
  | refl =>
    rcases below_iff_parent.mp otherBelow with same | ⟨up, _, linked⟩
    · exact same
    · rw [parentless] at linked
      cases linked
  | tail _ linked ih =>
    rcases below_iff_parent.mp otherBelow with rfl | ⟨up, above, otherLinked⟩
    · rw [otherParentless] at linked
      cases linked
    · rw [linked] at otherLinked
      obtain rfl := Option.some.inj otherLinked
      exact ih above

omit [DecidableEq α] in
/-- Removing links elsewhere leaves what is below an entry. -/
theorem below_congr {other : Forest α} {root entry : α}
    (removes : ∀ entry up, other.parent entry = some up → forest.parent entry = some up)
    (kept : ∀ entry, forest.Below root entry → other.parent entry = forest.parent entry) :
    other.Below root entry ↔ forest.Below root entry := by
  constructor
  · intro below
    exact Relation.ReflTransGen.mono (fun up entry linked => removes entry up linked) _ _ below
  · intro below
    induction below with
    | refl => exact .refl _
    | tail above linked ih =>
      refine ih.step ?_
      rw [kept _ (Below.step above linked), linked]

/-! ## The walk -/

/-- A walk visits exactly what lies below the entries on its worklist. -/
theorem mem_walk {fuel : Nat} {worklist visited : List α} (walked : forest.walk fuel worklist = some visited) {entry : α} :
    entry ∈ visited ↔ ∃ start ∈ worklist, forest.Below start entry := by
  induction fuel generalizing worklist visited with
  | zero =>
    cases worklist with
    | nil =>
      cases walked
      simp
    | cons top rest => cases walked
  | succ fuel ih =>
    cases worklist with
    | nil =>
      cases walked
      simp
    | cons top rest =>
      obtain ⟨later, continued, rfl⟩ := Option.map_eq_some_iff.mp walked
      rw [List.mem_cons, ih continued]
      simp only [List.mem_append, List.mem_reverse, mem_children, List.mem_cons, or_and_right, exists_or,
        exists_eq_left]
      rw [below_iff_child, or_assoc]

/-- The state of a walk from a root: every entry is met once, and after its parent was visited. -/
structure Walking (forest : Forest α) (root : α) (visited worklist : List α) : Prop where
  distinct : (visited ++ worklist).Nodup
  linked : ∀ entry ∈ visited ++ worklist, entry = root ∨ ∃ up ∈ visited, forest.parent entry = some up

omit [DecidableEq α] in
theorem Walking.start (root : α) : forest.Walking root [] [root] where
  distinct := by simp
  linked entry listed := .inl (List.mem_singleton.mp listed)

theorem Walking.visit {root top : α} {visited rest : List α} (walking : forest.Walking root visited (top :: rest))
    (parentless : forest.parent root = none) :
    forest.Walking root (visited ++ [top]) ((forest.children top).reverse ++ rest) := by
  have unvisited : top ∉ visited := fun seen =>
    (List.nodup_append.mp walking.distinct).2.2 top seen top List.mem_cons_self rfl
  constructor
  · have fresh : ∀ entry ∈ visited ++ top :: rest, forest.parent entry ≠ some top := by
      intro entry met linked
      rcases walking.linked entry met with rfl | ⟨up, seen, otherLinked⟩
      · rw [parentless] at linked
        cases linked
      · rw [linked] at otherLinked
        obtain rfl := Option.some.inj otherLinked
        exact unvisited seen
    have apart : ((visited ++ top :: rest) ++ (forest.children top).reverse).Nodup := by
      refine List.nodup_append.mpr ⟨walking.distinct, List.pairwise_reverse.mpr ((forest.distinct.filter _).imp Ne.symm), ?_⟩
      rintro entry met _ child rfl
      exact fresh entry met (mem_children.mp (List.mem_reverse.mp child))
    refine (List.Perm.nodup_iff ?_).mp apart
    rw [List.append_assoc, List.append_assoc]
    apply List.Perm.append_left
    exact List.Perm.cons top List.perm_append_comm
  · intro entry met
    simp only [List.mem_append, List.mem_singleton, List.mem_reverse, mem_children] at met
    have earlier : entry ∈ visited ++ top :: rest → entry = root ∨ ∃ up ∈ visited ++ [top], forest.parent entry = some up := by
      intro listed
      refine (walking.linked entry listed).imp_right ?_
      rintro ⟨up, seen, linked⟩
      exact ⟨up, List.mem_append_left [top] seen, linked⟩
    rcases met with (seen | rfl) | child | waiting
    · exact earlier (List.mem_append_left _ seen)
    · exact earlier (List.mem_append_right visited List.mem_cons_self)
    · exact .inr ⟨top, by simp, child⟩
    · exact earlier (List.mem_append_right visited (List.mem_cons_of_mem top waiting))

omit [DecidableEq α] in
/-- No more entries are met than there are in the table, besides the root. -/
theorem Walking.length_le {root : α} {visited worklist : List α} (walking : forest.Walking root visited worklist) :
    visited.length + worklist.length ≤ forest.entries.length + 1 := by
  have within : visited ++ worklist ⊆ root :: forest.entries := by
    intro entry met
    rcases walking.linked entry met with rfl | ⟨up, _, linked⟩
    · exact List.mem_cons_self
    · exact List.mem_cons_of_mem root (forest.listed entry up linked)
  have bound := (List.subperm_of_subset walking.distinct within).length_le
  rw [List.length_append, List.length_cons] at bound
  exact bound

theorem Walking.ends {root : α} {visited worklist : List α} (walking : forest.Walking root visited worklist)
    (parentless : forest.parent root = none) {fuel : Nat} (enough : forest.entries.length + 1 ≤ visited.length + fuel) :
    ∃ later, forest.walk fuel worklist = some later ∧ (visited ++ later).Nodup := by
  induction fuel generalizing visited worklist with
  | zero =>
    cases worklist with
    | nil => exact ⟨[], rfl, walking.distinct⟩
    | cons top rest =>
      have bound := walking.length_le
      rw [List.length_cons] at bound
      omega
  | succ fuel ih =>
    cases worklist with
    | nil => exact ⟨[], rfl, walking.distinct⟩
    | cons top rest =>
      have next := walking.visit parentless
      obtain ⟨later, walked, distinct⟩ := ih next (by rw [List.length_append, List.length_singleton]; omega)
      refine ⟨top :: later, ?_, ?_⟩
      · simp only [walk, walked, Option.map_some]
      · rw [List.append_assoc] at distinct
        exact distinct

/-- From an entry without a parent the walk ends, and visits everything below it once. -/
theorem walk_root {root : α} (parentless : forest.parent root = none) {fuel : Nat}
    (enough : forest.entries.length + 1 ≤ fuel) :
    ∃ visited, forest.walk fuel [root] = some visited ∧ visited.Nodup ∧
      ∀ entry, entry ∈ visited ↔ forest.Below root entry := by
  have started : forest.Walking root [] [root] := .start root
  have counted : forest.entries.length + 1 ≤ ([] : List α).length + fuel := by simpa using enough
  obtain ⟨visited, walked, distinct⟩ := started.ends parentless counted
  refine ⟨visited, walked, distinct, ?_⟩
  intro entry
  rw [mem_walk walked]
  simp

end Forest

end Duroxide.Lib
