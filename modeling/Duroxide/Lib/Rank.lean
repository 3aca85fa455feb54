import Mathlib.Data.List.Nodup
import Mathlib.Data.List.Induction
import Mathlib.Data.List.TakeWhile

/-! # Ranks in a keyed list

The rank of a key is the number of counted entries in front of it. A queue that serves the entry of
rank `n` with its `n`-th message is first in, first out as long as ranks do not move: they do not
move when entries are appended or when counting changes only at or behind the key, and the counted
entries in front of a key have exactly the smaller ranks.
-/

namespace Duroxide.Lib

variable {α κ : Type*} [DecidableEq κ]

/-- The entries in front of the first entry with a key; all of them when the key is absent. -/
def before (key : α → κ) (k : κ) (entries : List α) : List α := entries.takeWhile fun entry => key entry != k

/-- The number of counted entries in front of a key. -/
def rank (key : α → κ) (counted : α → Bool) (k : κ) (entries : List α) : Nat :=
  (before key k entries).countP counted

variable {key : α → κ} {counted other : α → Bool} {k : κ} {entries more : List α}

theorem before_append_of_mem (present : k ∈ entries.map key) : before key k (entries ++ more) = before key k entries := by
  obtain ⟨entry, member, rfl⟩ := List.mem_map.mp present
  induction entries with
  | nil => simp at member
  | cons head tail ih =>
    by_cases same : key head = key entry
    · simp [before, same]
    · have inTail : entry ∈ tail := by
        rcases List.mem_cons.mp member with rfl | inTail
        · exact absurd rfl same
        · exact inTail
      simpa [before, same] using ih inTail (List.mem_map_of_mem inTail)

theorem mem_of_mem_before {entry : α} (member : entry ∈ before key k entries) : entry ∈ entries :=
  (List.takeWhile_sublist _).subset member

theorem key_ne_of_mem_before {entry : α} (member : entry ∈ before key k entries) : key entry ≠ k := by
  have := List.mem_takeWhile_imp member
  simpa using this

theorem rank_append_of_mem (present : k ∈ entries.map key) :
    rank key counted k (entries ++ more) = rank key counted k entries := by
  rw [rank, before_append_of_mem present, rank]

/-- Only the counting in front of a key matters for its rank. -/
theorem rank_congr (same : ∀ entry ∈ before key k entries, counted entry = other entry) :
    rank key counted k entries = rank key other k entries :=
  List.countP_congr fun entry member => by rw [same entry member]

/-- An entry in front of a key has a smaller part of the list in front of it. -/
theorem before_eq_of_mem_before (distinct : (entries.map key).Nodup) {entry : α}
    (member : entry ∈ before key k entries) :
    ∃ between, before key k entries = before key (key entry) entries ++ entry :: between := by
  induction entries with
  | nil => simp [before] at member
  | cons head tail ih =>
    obtain ⟨fresh, distinct⟩ := List.nodup_cons.mp distinct
    by_cases found : key head = k
    · simp [before, found] at member
    · have unfolded : before key k (head :: tail) = head :: before key k tail := by simp [before, found]
      rw [unfolded] at member ⊢
      rcases List.mem_cons.mp member with rfl | member
      · exact ⟨before key k tail, by simp [before]⟩
      · have apart : key head ≠ key entry := fun same =>
          fresh (same ▸ List.mem_map_of_mem (mem_of_mem_before member))
        obtain ⟨between, split⟩ := ih distinct member
        exact ⟨between, by rw [split]; simp [before, apart]⟩

/-- Ranks grow strictly along counted entries. -/
theorem rank_lt_of_mem_before (distinct : (entries.map key).Nodup) {entry : α}
    (member : entry ∈ before key k entries) (counts : counted entry) :
    rank key counted (key entry) entries < rank key counted k entries := by
  obtain ⟨between, split⟩ := before_eq_of_mem_before distinct member
  rw [rank, rank, split, List.countP_append, List.countP_cons_of_pos counts]
  omega

theorem before_asymm (distinct : (entries.map key).Nodup) {left right : α}
    (front : left ∈ before key (key right) entries) : right ∉ before key (key left) entries := by
  intro behind
  have forward := @rank_lt_of_mem_before α κ _ key (fun _ => true) _ _ distinct _ front rfl
  have backward := @rank_lt_of_mem_before α κ _ key (fun _ => true) _ _ distinct _ behind rfl
  exact Nat.lt_asymm forward backward

/-- Every smaller rank belongs to a counted entry in front of the key. -/
theorem exists_rank_eq_of_lt (distinct : (entries.map key).Nodup) {n : Nat}
    (bound : n < rank key counted k entries) :
    ∃ entry ∈ before key k entries, counted entry ∧ rank key counted (key entry) entries = n := by
  induction entries generalizing n with
  | nil => simp [rank, before] at bound
  | cons head tail ih =>
    obtain ⟨fresh, distinct⟩ := List.nodup_cons.mp distinct
    by_cases found : key head = k
    · simp [rank, before, found] at bound
    · have unfolded : before key k (head :: tail) = head :: before key k tail := by simp [before, found]
      have headRank : rank key counted (key head) (head :: tail) = 0 := by simp [rank, before]
      have tailRank : ∀ entry ∈ before key k tail, rank key counted (key entry) (head :: tail) =
          (if counted head then 1 else 0) + rank key counted (key entry) tail := by
        intro entry member
        have apart : key head ≠ key entry := fun same =>
          fresh (same ▸ List.mem_map_of_mem (mem_of_mem_before member))
        simp [rank, before, apart, List.countP_cons, Nat.add_comm]
      rw [rank, unfolded, List.countP_cons] at bound
      by_cases counts : counted head
      · rw [if_pos counts] at bound
        cases n with
        | zero => exact ⟨head, by simp [unfolded], counts, headRank⟩
        | succ n =>
          obtain ⟨entry, member, entryCounts, entryRank⟩ := ih distinct (by rw [rank]; omega : n < rank key counted k tail)
          refine ⟨entry, by simp [unfolded, member], entryCounts, ?_⟩
          rw [tailRank entry member, if_pos counts, entryRank, Nat.add_comm]
      · rw [if_neg counts, Nat.add_zero] at bound
        obtain ⟨entry, member, entryCounts, entryRank⟩ := ih distinct bound
        refine ⟨entry, by simp [unfolded, member], entryCounts, ?_⟩
        rw [tailRank entry member, if_neg counts, entryRank, Nat.zero_add]

/-- Of two different keys of a list, one is in front of the other. -/
theorem before_total (key : α → κ) {left right : α} (leftMem : left ∈ entries) (rightMem : right ∈ entries)
    (apart : key left ≠ key right) (distinct : (entries.map key).Nodup) :
    left ∈ before key (key right) entries ∨ right ∈ before key (key left) entries := by
  induction entries with
  | nil => simp at leftMem
  | cons head tail ih =>
    obtain ⟨fresh, distinct⟩ := List.nodup_cons.mp distinct
    rcases List.mem_cons.mp leftMem with rfl | leftMem
    · exact .inl (by simp [before, apart])
    · rcases List.mem_cons.mp rightMem with rfl | rightMem
      · exact .inr (by simp [before, apart.symm])
      · have notLeft : key head ≠ key left := fun same => fresh (same ▸ List.mem_map_of_mem leftMem)
        have notRight : key head ≠ key right := fun same => fresh (same ▸ List.mem_map_of_mem rightMem)
        have cons_before (k : κ) (notHead : key head ≠ k) :
            before key k (head :: tail) = head :: before key k tail := by simp [before, notHead]
        rw [cons_before _ notRight, cons_before _ notLeft]
        exact (ih leftMem rightMem distinct).imp (List.mem_cons_of_mem _) (List.mem_cons_of_mem _)

/-- Giving every counted entry the item of its rank hands out a prefix, in order. -/
theorem filterMap_rank {β : Type*} (key : α → κ) (counted : α → Bool) (items : List β) (entries : List α)
    (distinct : (entries.map key).Nodup) :
    entries.filterMap (fun entry => if counted entry then items[rank key counted (key entry) entries]? else none) =
      items.take (entries.countP counted) := by
  induction entries using List.reverseRecOn with
  | nil => simp
  | append_singleton init last ih =>
    rw [List.map_append] at distinct
    obtain ⟨initDistinct, -, apart⟩ := List.nodup_append.mp distinct
    have fresh : key last ∉ init.map key := fun member => apart _ member _ (List.mem_singleton_self _) rfl
    have lastRank : rank key counted (key last) (init ++ [last]) = init.countP counted := by
      have front : before key (key last) (init ++ [last]) = init := by
        rw [before, List.takeWhile_append_of_pos (by
          intro entry member
          have other : key entry ≠ key last := fun same => fresh (same ▸ List.mem_map_of_mem member)
          simpa using other)]
        simp
      rw [rank, front]
    have initRanks : init.filterMap (fun entry => if counted entry then
        items[rank key counted (key entry) (init ++ [last])]? else none) = items.take (init.countP counted) := by
      rw [← ih initDistinct]
      refine List.filterMap_congr fun entry member => ?_
      rw [rank_append_of_mem (List.mem_map_of_mem member)]
    rw [List.filterMap_append, initRanks, List.countP_append, List.countP_singleton, List.filterMap_cons, lastRank]
    by_cases counts : counted last
    · rw [if_pos counts, if_pos counts, List.take_add_one]
      cases items[init.countP counted]? <;> rfl
    · rw [if_neg counts, if_neg counts]
      simp

end Duroxide.Lib
