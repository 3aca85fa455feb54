import Mathlib.Data.List.Sort
import Mathlib.Data.String.Basic

/-! # Conditions of SQL queries

Conditions over the columns of a row and numbered parameters, in the three-valued logic of SQL: a
comparison with NULL is unknown, and a row is selected when the condition is true. The lemmas `holds_..`
read a condition as a proposition. A query joins, filters, orders and limits lists of rows.
-/

namespace Duroxide.Lib.Sql

inductive Value where
  | null
  | integer (value : Int)
  | text (value : String)
deriving DecidableEq, Repr

namespace Value

def ofOption (inject : ι → Value) : Option ι → Value
  | some value => inject value
  | none => null

/-- Integers come before texts. -/
def atMost : Value → Value → Option Bool
  | null, _ => none
  | _, null => none
  | integer left, integer right => some (left ≤ right)
  | integer _, text _ => some true
  | text _, integer _ => some false
  | text left, text right => some (left ≤ right)

def equal : Value → Value → Option Bool
  | null, _ => none
  | _, null => none
  | left, right => some (left = right)

end Value

inductive Operand (Column : Type) where
  | column (name : Column)
  /-- `?1`, `?2` and so on. -/
  | parameter (position : Nat)

inductive Condition (Column : Type) where
  | constant (value : Bool)
  | isNull (operand : Operand Column)
  | equal (left right : Operand Column)
  | atMost (left right : Operand Column)
  | greater (left right : Operand Column)
  | isIn (operand : Operand Column) (list : List (Operand Column))
  | and (left right : Condition Column)
  | or (left right : Condition Column)

/-- True and false win over unknown where they decide. -/
def kleeneAnd : Option Bool → Option Bool → Option Bool
  | some false, _ => some false
  | _, some false => some false
  | some true, some true => some true
  | _, _ => none

def kleeneOr : Option Bool → Option Bool → Option Bool
  | some true, _ => some true
  | _, some true => some true
  | some false, some false => some false
  | _, _ => none

variable {Column : Type} (columns : Column → Value) (parameters : List Value)

/-- Positions count from 1; a parameter that is not bound is NULL. -/
def Operand.value : Operand Column → Value
  | .column name => columns name
  | .parameter position => (parameters[position - 1]?).getD .null

namespace Condition

def eval : Condition Column → Option Bool
  | .constant value => some value
  | .isNull operand => some (operand.value columns parameters = .null)
  | .equal left right => (left.value columns parameters).equal (right.value columns parameters)
  | .atMost left right => (left.value columns parameters).atMost (right.value columns parameters)
  | .greater left right => ((left.value columns parameters).atMost (right.value columns parameters)).map (!·)
  | .isIn operand list =>
      (list.map fun item => (operand.value columns parameters).equal (item.value columns parameters)).foldr kleeneOr (some false)
  | .and left right => kleeneAnd left.eval right.eval
  | .or left right => kleeneOr left.eval right.eval

/-- The condition selects the row. -/
def holds (condition : Condition Column) : Bool := condition.eval columns parameters = some true

variable {columns parameters}

theorem kleeneAnd_eq_true {left right : Option Bool} :
    kleeneAnd left right = some true ↔ left = some true ∧ right = some true := by
  rcases left with _ | _ | _ <;> rcases right with _ | _ | _ <;> simp [kleeneAnd]

theorem kleeneOr_eq_true {left right : Option Bool} :
    kleeneOr left right = some true ↔ left = some true ∨ right = some true := by
  rcases left with _ | _ | _ <;> rcases right with _ | _ | _ <;> simp [kleeneOr]

theorem equal_eq_true {left right : Value} : left.equal right = some true ↔ left ≠ .null ∧ left = right := by
  cases left <;> cases right <;> simp [Value.equal]

theorem holds_iff {condition : Condition Column} :
    holds columns parameters condition ↔ condition.eval columns parameters = some true :=
  decide_eq_true_iff

@[simp] theorem holds_constant {value : Bool} : holds columns parameters (.constant value) = value := by
  cases value <;> rfl

@[simp] theorem holds_isNull {operand : Operand Column} :
    holds columns parameters (.isNull operand) ↔ operand.value columns parameters = .null :=
  holds_iff.trans (Option.some_inj.trans decide_eq_true_iff)

@[simp] theorem holds_equal {left right : Operand Column} :
    holds columns parameters (.equal left right) ↔
      left.value columns parameters ≠ .null ∧ left.value columns parameters = right.value columns parameters :=
  holds_iff.trans equal_eq_true

@[simp] theorem holds_isIn {operand : Operand Column} {list : List (Operand Column)} :
    holds columns parameters (.isIn operand list) ↔
      operand.value columns parameters ≠ .null ∧ ∃ item ∈ list, operand.value columns parameters = item.value columns parameters := by
  refine holds_iff.trans ?_
  change (list.map _).foldr kleeneOr (some false) = some true ↔ _
  induction list with
  | nil => simp
  | cons item rest ih =>
    rw [List.map_cons, List.foldr_cons, kleeneOr_eq_true, ih, equal_eq_true, List.exists_mem_cons_iff]
    tauto

@[simp] theorem holds_and {left right : Condition Column} :
    holds columns parameters (.and left right) ↔ holds columns parameters left ∧ holds columns parameters right := by
  rw [holds_iff, holds_iff, holds_iff]
  exact kleeneAnd_eq_true

@[simp] theorem holds_or {left right : Condition Column} :
    holds columns parameters (.or left right) ↔ holds columns parameters left ∨ holds columns parameters right := by
  rw [holds_iff, holds_iff, holds_iff]
  exact kleeneOr_eq_true

/-- A number that may be missing, compared with an integer. -/
theorem atMost_ofOption {number : Option Int} {bound : Int} :
    (Value.ofOption .integer number).atMost (.integer bound) = number.map fun value => decide (value ≤ bound) := by
  cases number <;> rfl

/-- A comparison of integers, where the left one may be missing. -/
theorem holds_atMost_integer {left right : Operand Column} {bound : Int} (bounded : right.value columns parameters = .integer bound)
    {number : Option Int} (known : left.value columns parameters = .ofOption .integer number) :
    holds columns parameters (.atMost left right) ↔ ∃ value, number = some value ∧ value ≤ bound := by
  refine holds_iff.trans ?_
  change (left.value columns parameters).atMost (right.value columns parameters) = some true ↔ _
  rw [known, bounded, atMost_ofOption]
  simp

theorem holds_greater_integer {left right : Operand Column} {bound : Int} (bounded : right.value columns parameters = .integer bound)
    {number : Option Int} (known : left.value columns parameters = .ofOption .integer number) :
    holds columns parameters (.greater left right) ↔ ∃ value, number = some value ∧ bound < value := by
  refine holds_iff.trans ?_
  change ((left.value columns parameters).atMost (right.value columns parameters)).map (!·) = some true ↔ _
  rw [known, bounded, atMost_ofOption]
  simp

end Condition

/-! ## Queries -/

variable {Row Other : Type}

/-- Each left row with the right rows that match it, or with none. -/
def leftJoin (left : List Row) (right : List Other) (on : Row → Other → Bool) : List (Row × Option Other) :=
  left.flatMap fun row =>
    match right.filter (on row) with
    | [] => [(row, none)]
    | matched => matched.map fun other => (row, some other)

theorem mem_leftJoin {left : List Row} {right : List Other} {on : Row → Other → Bool} {row : Row} {other : Option Other} :
    (row, other) ∈ leftJoin left right on ↔
      row ∈ left ∧ match other with
        | some other => other ∈ right ∧ on row other
        | none => ∀ other ∈ right, ¬ on row other := by
  simp only [leftJoin, List.mem_flatMap]
  constructor
  · rintro ⟨found, listed, member⟩
    split at member
    · rename_i unmatched
      cases List.mem_singleton.mp member
      exact ⟨listed, fun other present => by simpa using List.filter_eq_nil_iff.mp unmatched other present⟩
    · obtain ⟨matched, present, same⟩ := List.mem_map.mp member
      cases same
      exact ⟨listed, List.mem_filter.mp present⟩
  · rintro ⟨listed, matched⟩
    refine ⟨row, listed, ?_⟩
    cases other with
    | none =>
      have unmatched : right.filter (on row) = [] := List.filter_eq_nil_iff.mpr (by simpa using matched)
      rw [unmatched]
      exact List.mem_singleton_self _
    | some other =>
      have present : other ∈ right.filter (on row) := List.mem_filter.mpr matched
      split
      · rename_i unmatched
        rw [unmatched] at present
        cases present
      · exact List.mem_map_of_mem present

/-- `ORDER BY` a number, `LIMIT 1`. -/
def first (key : Row → Nat) (rows : List Row) : Option Row :=
  (rows.mergeSort fun one other => key one ≤ key other).head?

theorem first_eq_none {key : Row → Nat} {rows : List Row} : first key rows = none ↔ rows = [] := by
  rw [first, List.head?_eq_none_iff]
  constructor
  · intro sorted
    exact List.Perm.eq_nil (sorted ▸ (List.mergeSort_perm rows _).symm)
  · rintro rfl
    exact List.mergeSort_nil

/-- The first row has the lowest key. -/
theorem first_eq_some {key : Row → Nat} {rows : List Row} {row : Row} (found : first key rows = some row) :
    row ∈ rows ∧ ∀ other ∈ rows, key row ≤ key other := by
  have sorted : (rows.mergeSort fun one other => key one ≤ key other).Pairwise fun one other => key one ≤ key other := by
    have pairwise := @List.pairwise_mergeSort Row (fun one other => decide (key one ≤ key other))
      (fun one two three => by simpa using le_trans) (fun one two => by simpa using le_total _ _) rows
    exact pairwise.imp fun ordered => of_decide_eq_true ordered
  have perm := List.mergeSort_perm rows fun one other => decide (key one ≤ key other)
  unfold first at found
  generalize rows.mergeSort (fun one other => decide (key one ≤ key other)) = all at found sorted perm
  cases all with
  | nil => cases found
  | cons head rest =>
    cases found
    refine ⟨perm.mem_iff.mp List.mem_cons_self, fun other listed => ?_⟩
    rcases List.mem_cons.mp (perm.mem_iff.mpr listed) with rfl | later
    · exact le_refl _
    · exact (List.pairwise_cons.mp sorted).1 other later

/-- `ORDER BY` numbers, highest first, and `LIMIT`. -/
def highest (limit : Nat) (numbers : List Nat) : List Nat :=
  (numbers.mergeSort fun one other => decide (other ≤ one)).take limit

/-- A number is among the highest exactly if fewer numbers than the limit are above it. -/
theorem mem_highest {limit number : Nat} {numbers : List Nat} (distinct : numbers.Nodup) (listed : number ∈ numbers) :
    number ∈ highest limit numbers ↔ (numbers.filter fun other => decide (number < other)).length < limit := by
  have perm := List.mergeSort_perm numbers fun one other => decide (other ≤ one)
  have sorted : (numbers.mergeSort fun one other => decide (other ≤ one)).Pairwise fun one other => other ≤ one := by
    have pairwise := @List.pairwise_mergeSort Nat (fun one other => decide (other ≤ one))
      (fun one two three => by simpa using fun first second => le_trans second first)
      (fun one two => by simpa using le_total _ _) numbers
    exact pairwise.imp fun ordered => of_decide_eq_true ordered
  unfold highest
  rw [← (perm.filter _).length_eq]
  have unique := perm.nodup_iff.mpr distinct
  have present := perm.mem_iff.mpr listed
  generalize numbers.mergeSort (fun one other => decide (other ≤ one)) = all at sorted unique present
  obtain ⟨above, below, rfl⟩ := List.append_of_mem present
  obtain ⟨aboveSorted, belowSorted, between⟩ := List.pairwise_append.mp sorted
  obtain ⟨aboveUnique, belowUnique, apart⟩ := List.nodup_append.mp unique
  have outside : number ∉ above := fun member => apart number member number List.mem_cons_self rfl
  have higher : ∀ other ∈ above, number < other := by
    intro other member
    refine lt_of_le_of_ne (between other member number List.mem_cons_self) ?_
    rintro rfl
    exact outside member
  have lower : ∀ other ∈ number :: below, ¬ number < other := by
    intro other member
    rcases List.mem_cons.mp member with rfl | later
    · exact lt_irrefl _
    · exact not_lt.mpr ((List.pairwise_cons.mp belowSorted).1 other later)
  have counted : ((above ++ number :: below).filter fun other => decide (number < other)) = above := by
    rw [List.filter_append, List.filter_eq_self.mpr, List.filter_eq_nil_iff.mpr, List.append_nil]
    · simpa using lower
    · simpa using higher
  rw [counted]
  constructor
  · intro member
    by_contra few
    rw [List.take_append_of_le_length (Nat.not_lt.mp few)] at member
    exact outside (List.mem_of_mem_take member)
  · intro few
    obtain ⟨more, rfl⟩ : ∃ more, limit = above.length + (more + 1) := ⟨limit - above.length - 1, by omega⟩
    rw [List.take_length_add_append, List.take_succ_cons]
    exact List.mem_append_right above List.mem_cons_self

end Duroxide.Lib.Sql
