import Mathlib.Data.List.Basic
import Mathlib.Data.List.Induction
import Mathlib.Data.List.Nodup

/-! # First come, first served slots

Holders claim slots in order, and every item that is offered goes into the next slot. A slot is only the position of
its holder, so it moves when a holder in front of it releases its own. As long as holders release only slots without
an item, every item stays with the holder that it went to. A ledger that hands the items to the holders one by one
says what happens otherwise.
-/

namespace Duroxide.Lib

variable {κ α : Type*} [DecidableEq κ]

structure Slots (κ α : Type*) where
  holders : List κ := []
  items : List α := []

inductive SlotOp (κ α : Type*) where
  | claim (holder : κ)
  | release (holder : κ)
  | offer (item : α)

namespace Slots

variable {slots : Slots κ α} {op : SlotOp κ α} {ops before more : List (SlotOp κ α)} {holder other : κ} {value : α}

/-- The item in the slot of a holder. -/
def item (slots : Slots κ α) (holder : κ) : Option α :=
  if holder ∈ slots.holders then slots.items[slots.holders.idxOf holder]? else none

/-- An item without a free slot is not taken. -/
def apply (slots : Slots κ α) : SlotOp κ α → Slots κ α
  | .claim holder => { slots with holders := slots.holders ++ [holder] }
  | .release holder => { slots with holders := slots.holders.erase holder }
  | .offer item =>
      if slots.items.length < slots.holders.length then { slots with items := slots.items ++ [item] } else slots

def after (ops : List (SlotOp κ α)) : Slots κ α := ops.foldl apply {}

theorem after_append (ops : List (SlotOp κ α)) (op : SlotOp κ α) : after (ops ++ [op]) = (after ops).apply op := by
  simp [after]

theorem item_of_mem (held : holder ∈ slots.holders) : slots.item holder = slots.items[slots.holders.idxOf holder]? :=
  if_pos held

theorem mem_of_item (found : slots.item holder = some value) : holder ∈ slots.holders := by
  by_contra absent
  rw [Slots.item, if_neg absent] at found
  cases found

theorem length_le_of_unserved (held : holder ∈ slots.holders) (empty : slots.item holder = none) :
    slots.items.length ≤ slots.holders.idxOf holder := by
  rw [item_of_mem held] at empty
  exact List.getElem?_eq_none_iff.mp empty

/-- Erasing an entry moves the entries behind it by one. -/
theorem idxOf_erase {entries : List κ} (distinct : entries.Nodup) (different : holder ≠ other) (present : holder ∈ entries) :
    (entries.erase other).idxOf holder =
      if entries.idxOf other < entries.idxOf holder then entries.idxOf holder - 1 else entries.idxOf holder := by
  induction entries with
  | nil => cases present
  | cons head rest ih =>
    obtain ⟨fresh, distinct⟩ := List.nodup_cons.mp distinct
    by_cases first : head = other
    · subst first
      rw [List.erase_cons_head, List.idxOf_cons_self, List.idxOf_cons_ne _ different.symm, if_pos (Nat.succ_pos _)]
      rfl
    · rw [List.erase_cons_tail (by simpa using first), List.idxOf_cons_ne _ first]
      by_cases here : head = holder
      · subst here
        simp
      · have later : holder ∈ rest := (List.mem_cons.mp present).resolve_left (Ne.symm here)
        rw [List.idxOf_cons_ne _ here, List.idxOf_cons_ne _ here, ih distinct later]
        split_ifs <;> omega

/-! ## Orderly slots -/

/-- Holders are different, and every item has a holder. -/
structure Orderly (slots : Slots κ α) : Prop where
  distinct : slots.holders.Nodup
  held : slots.items.length ≤ slots.holders.length

/-- A claim is for a new holder, and a slot that is released has no item. -/
def Admits (slots : Slots κ α) : SlotOp κ α → Prop
  | .claim holder => holder ∉ slots.holders
  | .release holder => slots.item holder = none
  | .offer _ => True

theorem Orderly.apply (orderly : Orderly slots) (admits : slots.Admits op) : Orderly (slots.apply op) := by
  cases op with
  | claim holder =>
    constructor
    · exact List.nodup_append.mpr ⟨orderly.distinct, List.nodup_singleton _, by
        rintro other member last same rfl
        have fresh : holder ∉ slots.holders := admits
        exact fresh (List.mem_singleton.mp same ▸ member)⟩
    · have held := orderly.held
      simp only [Slots.apply, List.length_append, List.length_singleton]
      omega
  | release holder =>
    refine ⟨orderly.distinct.erase _, ?_⟩
    by_cases held : holder ∈ slots.holders
    · have free := length_le_of_unserved held admits
      have bound := List.idxOf_lt_length_of_mem held
      simp only [Slots.apply, List.length_erase_of_mem held]
      omega
    · simp only [Slots.apply, List.erase_of_not_mem held]
      exact orderly.held
  | offer item =>
    unfold Slots.apply
    dsimp only
    split_ifs with free
    · exact ⟨orderly.distinct, by simpa [Nat.succ_le_iff] using free⟩
    · exact orderly

/-- Nobody loses an item, and an item is found only where it was, or with the first holder without one that it is
offered to. -/
theorem Orderly.item_apply (orderly : Orderly slots) (admits : slots.Admits op) :
    (slots.apply op).item holder = some value ↔ slots.item holder = some value ∨
      op = .offer value ∧ holder ∈ slots.holders ∧ slots.holders.idxOf holder = slots.items.length := by
  cases op with
  | claim other =>
    simp only [Slots.apply, reduceCtorEq, false_and, or_false]
    by_cases held : holder ∈ slots.holders
    · simp only [Slots.item, List.mem_append, held, true_or, if_true, List.idxOf_append_of_mem held]
    · simp only [Slots.item, held, if_false, reduceCtorEq, iff_false]
      have bound : slots.items.length ≤ (slots.holders ++ [other]).idxOf holder := by
        rw [List.idxOf_append_of_notMem held]
        exact Nat.le_trans orderly.held (Nat.le_add_right _ _)
      simp [List.getElem?_eq_none_iff.mpr bound]
  | release other =>
    have empty : slots.item other = none := admits
    simp only [Slots.apply, reduceCtorEq, false_and, or_false]
    by_cases present : other ∈ slots.holders
    swap
    · rw [List.erase_of_not_mem present]
    have free := length_le_of_unserved present empty
    by_cases same : holder = other
    · subst same
      rw [empty, Slots.item, if_neg orderly.distinct.not_mem_erase]
    by_cases held : holder ∈ slots.holders
    · have kept : holder ∈ slots.holders.erase other := (List.mem_erase_of_ne same).mpr held
      simp only [Slots.item, held, kept, if_true, idxOf_erase orderly.distinct same held]
      split_ifs with front
      · -- Behind the released slot nobody had an item, and nobody gets one.
        rw [List.getElem?_eq_none_iff.mpr (by omega), List.getElem?_eq_none_iff.mpr (by omega)]
      · rfl
    · have gone : holder ∉ slots.holders.erase other := fun member => held (List.mem_of_mem_erase member)
      rw [Slots.item, if_neg gone, Slots.item, if_neg held]
  | offer offered =>
    simp only [Slots.apply, SlotOp.offer.injEq]
    split_ifs with free
    · by_cases held : holder ∈ slots.holders
      · simp only [Slots.item, held, if_true, true_and]
        rcases Nat.lt_trichotomy (slots.holders.idxOf holder) slots.items.length with served | next | behind
        · rw [List.getElem?_append_left served]
          simp [Nat.ne_of_lt served]
        · simp [next]
        · have longer : (slots.items ++ [offered]).length ≤ slots.holders.idxOf holder := by
            rw [List.length_append, List.length_singleton]
            omega
          rw [List.getElem?_eq_none_iff.mpr (Nat.le_of_lt behind), List.getElem?_eq_none_iff.mpr longer]
          simp [Nat.ne_of_gt behind]
      · simp [Slots.item, held]
    · have full := orderly.held
      constructor
      · exact .inl
      · rintro (kept | ⟨_, held, next⟩)
        · exact kept
        · have bound := List.idxOf_lt_length_of_mem held
          omega

/-! ## Runs -/

/-- Every operation of a sequence is admitted when its turn comes. -/
def Admitted (ops : List (SlotOp κ α)) : Prop := ∀ before op rest, ops = before ++ op :: rest → (after before).Admits op

theorem Admitted.earlier (admitted : Admitted (before ++ more)) : Admitted before :=
  fun first op rest split => admitted first op (rest ++ more) (by rw [split, List.append_assoc, List.cons_append])

theorem Admitted.last (admitted : Admitted (before ++ [op])) : (after before).Admits op := admitted before op [] rfl

theorem Admitted.orderly (admitted : Admitted ops) : Orderly (after ops) := by
  induction ops using List.reverseRecOn with
  | nil => exact ⟨List.nodup_nil, Nat.le_refl _⟩
  | append_singleton before op ih =>
    rw [after_append]
    exact (ih admitted.earlier).apply admitted.last

/-- An item stays with its holder. -/
theorem Admitted.item_stays (admitted : Admitted (before ++ more)) (found : (after before).item holder = some value) :
    (after (before ++ more)).item holder = some value := by
  induction more using List.reverseRecOn with
  | nil => rwa [List.append_nil]
  | append_singleton more op ih =>
    rw [← List.append_assoc] at admitted ⊢
    rw [after_append]
    exact (admitted.earlier.orderly.item_apply admitted.last).mpr (.inl (ih admitted.earlier))

/-- An item went to a holder that had none when the item was offered. -/
theorem Admitted.item_origin (admitted : Admitted ops) (found : (after ops).item holder = some value) :
    ∃ before rest, ops = before ++ .offer value :: rest ∧ holder ∈ (after before).holders ∧
      (after before).item holder = none := by
  induction ops using List.reverseRecOn with
  | nil => cases found
  | append_singleton before op ih =>
    rw [after_append, admitted.earlier.orderly.item_apply admitted.last] at found
    rcases found with old | ⟨rfl, held, next⟩
    · obtain ⟨first, rest, split, held, empty⟩ := ih admitted.earlier old
      exact ⟨first, rest ++ [op], by rw [split, List.append_assoc, List.cons_append], held, empty⟩
    · refine ⟨before, [], rfl, held, ?_⟩
      rw [item_of_mem held, next]
      exact List.getElem?_eq_none_iff.mpr (Nat.le_refl _)

def claimed : SlotOp κ α → Option κ
  | .claim holder => some holder
  | _ => none

def offered : SlotOp κ α → Option α
  | .offer value => some value
  | _ => none

/-- The holders are in the order of their claims. -/
theorem holders_sublist (ops : List (SlotOp κ α)) : (after ops).holders.Sublist (ops.filterMap claimed) := by
  induction ops using List.reverseRecOn with
  | nil => exact .slnil
  | append_singleton before op ih =>
    rw [after_append, List.filterMap_append]
    cases op with
    | claim holder => exact ih.append (.refl _)
    | release holder =>
      refine List.Sublist.trans ?_ (List.sublist_append_left _ _)
      exact List.erase_sublist.trans ih
    | offer value =>
      refine List.Sublist.trans ?_ (List.sublist_append_left _ _)
      unfold Slots.apply
      dsimp only
      split_ifs <;> exact ih

/-- The items are in the order in which they were offered. -/
theorem items_sublist (ops : List (SlotOp κ α)) : (after ops).items.Sublist (ops.filterMap offered) := by
  induction ops using List.reverseRecOn with
  | nil => exact .slnil
  | append_singleton before op ih =>
    rw [after_append, List.filterMap_append]
    cases op with
    | claim holder | release holder => exact ih.trans (List.sublist_append_left _ _)
    | offer value =>
      unfold Slots.apply
      dsimp only
      split_ifs
      · exact ih.append (.refl _)
      · exact ih.trans (List.sublist_append_left _ _)

/-- Different holders have different items. -/
theorem item_injective (distinct : slots.items.Nodup) (found : slots.item holder = some value)
    (otherFound : slots.item other = some value) : holder = other := by
  have held := mem_of_item found
  rw [item_of_mem held] at found
  rw [item_of_mem (mem_of_item otherFound), ← found] at otherFound
  have bound := (List.getElem?_eq_some_iff.mp found).1
  exact (List.idxOf_inj held).mp ((List.getElem?_inj bound distinct).mp otherFound.symm)

variable {r : κ → κ → Prop}

/-- An order of the holders is the order of their slots. -/
theorem idxOf_lt_of_pairwise (asymm : ∀ first second, r first second → ¬ r second first)
    (ordered : slots.holders.Pairwise r) (held : holder ∈ slots.holders) (otherHeld : other ∈ slots.holders)
    (ahead : r holder other) : slots.holders.idxOf holder < slots.holders.idxOf other := by
  have bound := List.idxOf_lt_length_of_mem held
  have otherBound := List.idxOf_lt_length_of_mem otherHeld
  rcases Nat.lt_trichotomy (slots.holders.idxOf holder) (slots.holders.idxOf other) with front | same | behind
  · exact front
  · obtain rfl := (List.idxOf_inj held).mp same
    exact absurd ahead (asymm _ _ ahead)
  · have reversed := List.pairwise_iff_getElem.mp ordered _ _ otherBound bound behind
    rw [List.getElem_idxOf, List.getElem_idxOf] at reversed
    exact absurd reversed (asymm _ _ ahead)

/-- Items are in the order of their holders. -/
theorem item_order (asymm : ∀ first second, r first second → ¬ r second first) (ordered : slots.holders.Pairwise r)
    {s : α → α → Prop} (offered : slots.items.Pairwise s) (ahead : r holder other) {later : α}
    (found : slots.item holder = some value) (otherFound : slots.item other = some later) : s value later := by
  have held := mem_of_item found
  have otherHeld := mem_of_item otherFound
  have front := idxOf_lt_of_pairwise asymm ordered held otherHeld ahead
  rw [item_of_mem held] at found
  rw [item_of_mem otherHeld] at otherFound
  obtain ⟨bound, rfl⟩ := List.getElem?_eq_some_iff.mp found
  obtain ⟨otherBound, rfl⟩ := List.getElem?_eq_some_iff.mp otherFound
  exact List.pairwise_iff_getElem.mp offered _ _ bound otherBound front

/-- Nobody has an item while a holder in front of them has none. -/
theorem item_of_ahead (asymm : ∀ first second, r first second → ¬ r second first) (ordered : slots.holders.Pairwise r)
    (held : holder ∈ slots.holders) (ahead : r holder other) (otherFound : slots.item other = some value) :
    (slots.item holder).isSome := by
  have front := idxOf_lt_of_pairwise asymm ordered held (mem_of_item otherFound) ahead
  rw [item_of_mem (mem_of_item otherFound)] at otherFound
  have bound := (List.getElem?_eq_some_iff.mp otherFound).1
  rw [item_of_mem held, List.getElem?_eq_getElem (Nat.lt_trans front bound)]
  rfl

end Slots

/-! ## A ledger of who was served -/

/-- The holders whose turn has not come, those that an item came for, and the items in slots beyond them. -/
structure Ledger (κ : Type*) where
  waiting : List κ := []
  served : List κ := []
  surplus : Nat := 0

namespace Ledger

variable {ledger : Ledger κ} {op : SlotOp κ α} {ops : List (SlotOp κ α)} {holder : κ}

/-- A holder that is served and leaves lets an item move to the holder behind it; the slots do not take an item for a
holder that has one so. -/
def apply (ledger : Ledger κ) : SlotOp κ α → Ledger κ
  | .claim holder => { ledger with waiting := ledger.waiting ++ [holder] }
  | .release holder =>
      if holder ∈ ledger.served then
        { ledger with served := ledger.served.erase holder, surplus := ledger.surplus + 1 }
      else { ledger with waiting := ledger.waiting.erase holder }
  | .offer _ =>
      match ledger.waiting with
      | [] => ledger
      | next :: rest =>
          { waiting := rest
            served := ledger.served ++ [next]
            surplus := if ledger.surplus ≤ rest.length then ledger.surplus else ledger.surplus - 1 }

def after (ops : List (SlotOp κ α)) : Ledger κ := ops.foldl apply {}

theorem after_append (ops : List (SlotOp κ α)) (op : SlotOp κ α) : after (ops ++ [op]) = (after ops).apply op := by
  simp [after]

/-- A ledger of the slots: whoever is served is in front of whoever waits. -/
structure Keeps (ledger : Ledger κ) (slots : Slots κ α) : Prop where
  distinct : slots.holders.Nodup
  holders : slots.holders = ledger.served ++ ledger.waiting
  items : slots.items.length = ledger.served.length + ledger.surplus

theorem Keeps.apply {slots : Slots κ α} (keeps : Keeps ledger slots)
    (fresh : ∀ holder, op = .claim holder → holder ∉ slots.holders) : Keeps (ledger.apply op) (slots.apply op) := by
  have holders := keeps.holders
  have items := keeps.items
  have distinct := keeps.distinct
  cases op with
  | claim holder =>
    refine ⟨?_, ?_, items⟩
    · exact List.nodup_append.mpr ⟨distinct, List.nodup_singleton _, by
        rintro other member last same rfl
        exact fresh holder rfl (List.mem_singleton.mp same ▸ member)⟩
    · simp [Ledger.apply, Slots.apply, holders]
  | release holder =>
    by_cases served : holder ∈ ledger.served
    · refine ⟨distinct.erase _, ?_, ?_⟩
      · simp only [Ledger.apply, Slots.apply, served, if_true, holders, List.erase_append_left _ served]
      · have positive := List.length_pos_of_mem served
        simp only [Ledger.apply, Slots.apply, served, if_true, List.length_erase_of_mem served]
        omega
    · refine ⟨distinct.erase _, ?_, ?_⟩
      · simp only [Ledger.apply, Slots.apply, served, if_false, holders, List.erase_append_right _ served]
      · simpa only [Ledger.apply, Slots.apply, served, if_false] using items
  | offer value =>
    have lengths : slots.holders.length = ledger.served.length + ledger.waiting.length := by
      rw [holders, List.length_append]
    unfold Ledger.apply Slots.apply
    dsimp only
    cases waits : ledger.waiting with
    | nil =>
      rw [waits, List.length_nil] at lengths
      rw [if_neg (by omega)]
      exact keeps
    | cons next rest =>
      rw [waits, List.length_cons] at lengths
      dsimp only
      split_ifs with free within within
      · refine ⟨distinct, by simp [holders, waits], ?_⟩
        simp only [List.length_append, List.length_singleton]
        omega
      · omega
      · omega
      · refine ⟨distinct, by simp [holders, waits], ?_⟩
        simp only [List.length_append, List.length_singleton]
        omega

/-- The slots and the ledger agree on who has no item if and only if nothing is in surplus or nobody waits. -/
theorem Keeps.agree_iff {slots : Slots κ α} (keeps : Keeps ledger slots) :
    (∀ holder ∈ slots.holders, slots.item holder = none ↔ holder ∉ ledger.served) ↔
      ledger.surplus = 0 ∨ ledger.waiting = [] := by
  have holders := keeps.holders
  have items := keeps.items
  have apart : ∀ holder, holder ∈ ledger.served → holder ∉ ledger.waiting := by
    have distinct := keeps.distinct
    rw [holders, List.nodup_append] at distinct
    exact fun holder served waits => distinct.2.2 holder served holder waits rfl
  constructor
  · intro agree
    by_contra neither
    rw [not_or] at neither
    obtain ⟨next, rest, waits⟩ := List.exists_cons_of_ne_nil neither.2
    have unserved : next ∉ ledger.served := fun served => apart next served (by simp [waits])
    have held : next ∈ slots.holders := by simp [holders, waits]
    have empty := (agree next held).mpr unserved
    have position : slots.holders.idxOf next = ledger.served.length := by
      rw [holders, waits, List.idxOf_append_of_notMem unserved, List.idxOf_cons_self, Nat.add_zero]
    have free := Slots.length_le_of_unserved held empty
    omega
  · intro none holder held
    rw [Slots.item_of_mem held, List.getElem?_eq_none_iff, holders]
    rw [holders, List.mem_append] at held
    constructor
    · intro free served
      have bound := List.idxOf_lt_length_of_mem served
      rw [List.idxOf_append_of_mem served] at free
      omega
    · intro unserved
      rcases none with balanced | idle
      · rw [List.idxOf_append_of_notMem unserved]
        omega
      · rw [idle] at held
        exact absurd (held.resolve_right List.not_mem_nil) unserved

end Ledger

end Duroxide.Lib
