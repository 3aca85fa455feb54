import Duroxide.Proofs.Deletion

/-! # Deleting leaves first

Where the bulk deletion of self-referring rows is rejected the instance rows are deleted one by one, in the
order of a depth-first search along the parent column. The search ends for every parent column and lists
each instance once; where the links among the instances run in no circle no row is deleted while another
one still names it, so the foreign key never rejects a deletion and what is left is what the bulk deletion
leaves.
-/

namespace Duroxide

namespace ProviderAdmin

open Lib

variable {db : ListedStore} {ids : List String}

/-! ## The children that the query finds -/

theorem pushChild_apply (children : String → List String) (row : String × Option String) (parentId : String) :
    pushChild ids children row parentId =
      children parentId ++ if parentId ∈ ids ∧ row.2 = some parentId then [row.1] else [] := by
  obtain ⟨child, _ | named⟩ := row
  · simp [pushChild]
  · rw [pushChild]
    by_cases same : named = parentId
    · subst same
      by_cases listed : named ∈ ids <;> simp [listed]
    · split_ifs <;> simp_all [Function.update_of_ne (Ne.symm same)]

theorem childrenByParent_eq (ids : List String) (relRows : List (String × Option String)) (parentId : String) :
    childrenByParent ids relRows parentId =
      (relRows.filter fun row => parentId ∈ ids ∧ row.2 = some parentId).map Prod.fst := by
  suffices accumulated : ∀ children : String → List String, relRows.foldl (pushChild ids) children parentId =
      children parentId ++ (relRows.filter fun row => parentId ∈ ids ∧ row.2 = some parentId).map Prod.fst by
    exact accumulated fun _ => []
  induction relRows with
  | nil => simp
  | cons row rest ih =>
    intro children
    rw [List.foldl_cons, ih, pushChild_apply, List.filter_cons, List.append_assoc]
    split_ifs <;> simp_all

/-- The links among the instances that are deleted. -/
theorem mem_childrenByParent {parentId child : String} :
    child ∈ childrenByParent ids (relRows db ids) parentId ↔
      parentId ∈ ids ∧ child ∈ ids ∧ db.store.parentId child = some parentId := by
  simp only [childrenByParent_eq, List.mem_map, List.mem_filter, relRows, List.mem_filterMap, decide_eq_true_eq]
  constructor
  · rintro ⟨row, ⟨⟨instanceId, _, found⟩, listed, named⟩, rfl⟩
    split_ifs at found with among
    obtain ⟨stored, present, rfl⟩ := Option.map_eq_some_iff.mp found
    exact ⟨listed, among, by simp only [Store.parentId, present, Option.bind_some]; exact named⟩
  · rintro ⟨listed, among, linked⟩
    obtain ⟨row, stored, named⟩ := Option.bind_eq_some_iff.mp linked
    refine ⟨(child, some parentId), ⟨⟨child, db.listed child row stored, ?_⟩, listed, rfl⟩, rfl⟩
    simp only [among, if_true, stored, Option.map_some, named]

/-! ## The order -/

theorem pushInstanceDeleteOrder_eq_visit (children : String → List String) (fuel : Nat) :
    pushInstanceDeleteOrder children fuel = Search.visit children fuel := by
  induction fuel with
  | zero => rfl
  | succ fuel ih =>
    funext search instanceId
    rw [pushInstanceDeleteOrder, Search.visit, ih]

theorem instanceDeleteOrder_eq_all (db : ListedStore) (ids : List String) :
    instanceDeleteOrder db ids = Search.all (childrenByParent ids (relRows db ids)) (ids.length + 1) ids := by
  rw [instanceDeleteOrder, pushInstanceDeleteOrder_eq_visit]
  rfl

/-- A row of some instances names a parent among them. -/
def LinkedAmong (db : ListedStore) (ids : List String) (child parent : String) : Prop :=
  child ∈ ids ∧ parent ∈ ids ∧ db.store.parentId child = some parent

/-- The parent links among some instances run in no circle. -/
def Acyclic (db : ListedStore) (ids : List String) : Prop :=
  ∀ instanceId, ¬ Relation.TransGen (LinkedAmong db ids) instanceId instanceId

/-- The search ends with each instance once. -/
theorem instanceDeleteOrder_ends (db : ListedStore) (ids : List String) :
    ∃ order, instanceDeleteOrder db ids = some order ∧ order.Nodup ∧ ∀ instanceId, instanceId ∈ order ↔ instanceId ∈ ids := by
  rw [instanceDeleteOrder_eq_all]
  apply Search.all_ends
  · intro parent _ child linked
    exact (mem_childrenByParent.mp linked).2.1
  · omega

/-- Without a circle every child comes before its parent. -/
theorem instanceDeleteOrder_childrenFirst {order before after : List String} {child parent : String} (acyclic : Acyclic db ids)
    (ordered : instanceDeleteOrder db ids = some order) (split : order = before ++ parent :: after)
    (linked : LinkedAmong db ids child parent) : child ∈ before := by
  rw [instanceDeleteOrder_eq_all] at ordered
  have flipped : ∀ entry, ¬ Relation.TransGen
      (fun up child => child ∈ childrenByParent ids (relRows db ids) up) entry entry := by
    intro entry circle
    apply acyclic entry
    refine Relation.transGen_swap.mp (Relation.TransGen.mono ?_ _ _ circle)
    intro up child member
    obtain ⟨upListed, childListed, named⟩ := mem_childrenByParent.mp member
    exact ⟨childListed, upListed, named⟩
  refine Search.all_childrenFirst flipped ordered before parent after split ?_
  exact mem_childrenByParent.mpr ⟨linked.2.1, linked.1, linked.2.2⟩

/-! ## The rows that are left -/

/-- The instances table without the rows of some instances. -/
def rowsWithout (db : ListedStore) (deleted : List String) (instanceId : String) : Option InstanceRow :=
  if instanceId ∈ deleted then none else db.store.instances instanceId

theorem rowsWithout_eq_deleteInstances {deleted : List String} (same : ∀ instanceId, instanceId ∈ deleted ↔ instanceId ∈ ids) :
    rowsWithout db deleted = (db.deleteInstances ids).store.instances := by
  funext instanceId
  rcases Decidable.em (instanceId ∈ ids) with listed | unlisted
  · rw [ListedStore.deleted_of_mem listed, rowsWithout, if_pos ((same instanceId).mpr listed)]
  · rw [ListedStore.kept_of_not_mem unlisted, rowsWithout, if_neg fun deleted => unlisted ((same instanceId).mp deleted)]

/-- A row goes when every row that names it has gone. -/
theorem deleteInstanceRow_eq_some {before : List String} {instanceId : String}
    (gone : ∀ child, child ≠ instanceId → db.store.parentId child = some instanceId → child ∈ before) :
    deleteInstanceRow (rowsWithout db before) instanceId db.ids = some (rowsWithout db (before ++ [instanceId])) := by
  have unnamed : (db.ids.any fun child =>
      child != instanceId && (rowsWithout db before child).any (·.parentInstanceId == some instanceId)) = false := by
    apply List.any_eq_false.mpr
    intro child _
    simp only [Bool.and_eq_true, bne_iff_ne, ne_eq, Option.any_eq_true, beq_iff_eq, not_and, not_exists]
    intro other row stored named
    unfold rowsWithout at stored
    split_ifs at stored with deleted
    apply deleted
    apply gone child other
    simp only [Store.parentId, stored, Option.bind_some, named]
  rw [deleteInstanceRow, unnamed, if_neg Bool.false_ne_true]
  congr 1
  funext other
  simp only [rowsWithout, Function.update_apply, List.mem_append, List.mem_singleton]
  split_ifs <;> tauto

/-- Rows deleted in an order in which every row that names another one goes first. -/
theorem deleteRows_eq_some {before rest : List String}
    (first : ∀ earlier instanceId later, rest = earlier ++ instanceId :: later →
      ∀ child, child ≠ instanceId → db.store.parentId child = some instanceId → child ∈ before ++ earlier) :
    rest.foldlM (fun rows instanceId => deleteInstanceRow rows instanceId db.ids) (rowsWithout db before) =
      some (rowsWithout db (before ++ rest)) := by
  induction rest generalizing before with
  | nil => rw [List.append_nil, List.foldlM_nil]; rfl
  | cons instanceId rest ih =>
    have deletes : deleteInstanceRow (rowsWithout db before) instanceId db.ids = some (rowsWithout db (before ++ [instanceId])) := by
      apply deleteInstanceRow_eq_some
      simpa using first [] instanceId rest rfl
    rw [List.foldlM_cons, deletes, Option.bind_eq_bind, Option.bind_some, ih, List.append_assoc, List.singleton_append]
    rintro earlier other later rfl
    simpa using first (instanceId :: earlier) other later rfl

/-- Leaf-first deletion orders each instance once. Where the links among the instances run in no circle every
child comes before its parent, and when the deletion has found no orphan no row is deleted before the last
row that names it, so the deletion goes through and leaves what the bulk deletion leaves. -/
theorem leafFirstInstanceDelete_valid (db : ListedStore) (ids : List String) :
    ∃ order, instanceDeleteOrder db ids = some order ∧
      (∀ instanceId, order.count instanceId = if instanceId ∈ ids then 1 else 0) ∧
      (Acyclic db ids →
        (∀ before parent after child, order = before ++ parent :: after → LinkedAmong db ids child parent → child ∈ before) ∧
        (orphanOf db ids = none →
          (∀ before instanceId after child row, order = before ++ instanceId :: after →
            rowsWithout db before child = some row → row.parentInstanceId ≠ some instanceId) ∧
          leafFirstInstanceDelete db ids = some (db.deleteInstances ids).store.instances)) := by
  obtain ⟨order, ordered, distinct, listed⟩ := instanceDeleteOrder_ends db ids
  refine ⟨order, ordered, ?_, ?_⟩
  · intro instanceId
    split_ifs with among
    · exact List.count_eq_one_of_mem distinct ((listed instanceId).mpr among)
    · exact List.count_eq_zero_of_not_mem fun member => among ((listed instanceId).mp member)
  · intro acyclic
    have first : ∀ before parent after child, order = before ++ parent :: after → LinkedAmong db ids child parent →
        child ∈ before := fun before parent after child split linked =>
      instanceDeleteOrder_childrenFirst acyclic ordered split linked
    refine ⟨first, fun closed => ?_⟩
    have linked : ∀ before instanceId after child, order = before ++ instanceId :: after →
        db.store.parentId child = some instanceId → LinkedAmong db ids child instanceId := by
      rintro before instanceId after child rfl named
      have among := (listed instanceId).mp (by simp)
      exact ⟨orphanOf_eq_none.mp closed child instanceId named among, among, named⟩
    constructor
    · intro before instanceId after child row split stays named
      unfold rowsWithout at stays
      split_ifs at stays with deleted
      have names : db.store.parentId child = some instanceId := by
        simp only [Store.parentId, stays, Option.bind_some, named]
      exact deleted (first before instanceId after child split (linked before instanceId after child split names))
    · have deletes : order.foldlM (fun rows instanceId => deleteInstanceRow rows instanceId db.ids) (rowsWithout db []) =
          some (rowsWithout db ([] ++ order)) := by
        apply deleteRows_eq_some
        intro earlier instanceId later split child _ named
        exact first earlier instanceId later child split (linked earlier instanceId later child split named)
      rw [List.nil_append, rowsWithout_eq_deleteInstances listed] at deletes
      rw [leafFirstInstanceDelete, ordered]
      exact deletes

end ProviderAdmin

end Duroxide
